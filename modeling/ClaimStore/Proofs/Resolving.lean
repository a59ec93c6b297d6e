import ClaimStore.Proofs.Solo
import ClaimStore.Proofs.Worker.Turns

/-!
What becomes of requests.

Nothing is known here of the record store and the clock. A request that was queued is held by the
worker until it is answered, and what the worker holds is in the order in which it was queued.
-/
namespace ClaimStore

/-- What happens at a pool whose record others use as well. They can change the record store in any
way, and the clock can fail. -/
inductive SharedAct
  | solo (act : SoloAct)
  | others (client : Client) (clock : Option Timestamp)

def SharedAct.mutation? : SharedAct → Option Mutation
  | .solo act => act.mutation?
  | .others _ _ => none

/-- Where a request can be. -/
inductive Place
  | rejected
  | queued
  | inBatch
  | resolved
  deriving DecidableEq

namespace Desk

def shared (batchSize : Nat) (desk : Desk) : SharedAct → Desk
  | .solo act => desk.solo batchSize act
  | .others client clock => { desk with around := { desk.around with client, clock } }

def runShared (batchSize : Nat) (acts : List SharedAct) (desk : Desk) : Desk :=
  acts.foldl (shared batchSize) desk

/-- A request is rejected if it was not queued, and resolved if it was and has been answered. -/
def At (desk : Desk) (id : Nat) : Place → Prop
  | .rejected =>
      id ∉ desk.log.ids ∧ desk.store.queue.isClosed = true ∧ (id, .shutDown) ∈ desk.around.answers
  | .queued => id ∈ desk.store.queue.waiting.map Request.id
  | .inBatch => id ∈ desk.store.inHand
  | .resolved => id ∈ desk.log.ids ∧ ∃ answer, (id, answer) ∈ desk.around.answers

/-- Where a request is, if it is anywhere. -/
def place (desk : Desk) (id : Nat) : Place :=
  if id ∉ desk.log.ids then .rejected
  else if id ∈ desk.store.queue.waiting.map Request.id then .queued
  else if id ∈ desk.store.inHand then .inBatch
  else .resolved

/-- Every request has been answered or is held by the worker, in the order of the queue behind those
whose outcome has been told. -/
structure Accounts (desk : Desk) : Prop where
  whole : (desk.around.answers.map Prod.fst ++ desk.store.held).Perm (List.range desk.requests)
  ordered : (outcomes desk.around.answers ++ desk.store.held).Pairwise (· < ·)
  queued : desk.store.held ⊆ desk.log.ids
  rejected : ∀ id < desk.requests, id ∉ desk.log.ids → desk.At id .rejected

variable {desk : Desk} {batchSize : Nat} {next : PoolStore} {after : Surroundings}
variable {told : List (Nat × Answer)}

theorem accounts_start {snapshot : Snapshot} {around : Surroundings}
    (unanswered : around.answers = []) : (start snapshot around).Accounts := by
  have none : (start snapshot around).around.answers = [] := unanswered
  have empty : (start snapshot around).store.held = [] := rfl
  refine ⟨?_, ?_, ?_, fun id early => absurd early (Nat.not_lt_zero id)⟩
  · rw [none, empty]
    exact List.Perm.nil
  · rw [none, empty]
    exact List.Pairwise.nil
  · rw [empty]
    exact List.nil_subset _

theorem Accounts.held_lt (accounts : desk.Accounts) {id : Nat}
    (held : id ∈ outcomes desk.around.answers ++ desk.store.held) : id < desk.requests := by
  apply List.mem_range.mp
  apply accounts.whole.subset
  rcases List.mem_append.mp held with told | held
  · exact List.mem_append_left _ ((outcomes_sublist _).subset told)
  · exact List.mem_append_right _ held

theorem Accounts.update (accounts : desk.Accounts)
    (answers : after.answers = desk.around.answers ++ told)
    (serves : PoolStore.Serves desk.store.held next.held told)
    (closed : desk.store.queue.isClosed = true → next.queue.isClosed = true) :
    (desk.update (some (next, after))).Accounts := by
  have ids : (desk.update (some (next, after))).log.ids = desk.log.ids := Log.note_ids _ _ _
  refine ⟨?_, ?_, ?_, ?_⟩
  · change (after.answers.map Prod.fst ++ next.held).Perm (List.range desk.requests)
    rw [answers, List.map_append, List.append_assoc]
    exact (serves.whole.append_left _).trans accounts.whole
  · change (outcomes after.answers ++ next.held).Pairwise (· < ·)
    rw [answers, outcomes_append, List.append_assoc]
    exact accounts.ordered.sublist (serves.ordered.append_left _)
  · rw [ids]
    intro id held
    exact accounts.queued (serves.whole.subset (List.mem_append_right _ held))
  · rw [ids]
    intro id early foreign
    obtain ⟨-, shut, rejected⟩ := accounts.rejected id early foreign
    refine ⟨ids ▸ foreign, closed shut, ?_⟩
    change (id, .shutDown) ∈ after.answers
    rw [answers]
    exact List.mem_append_left _ rejected

theorem push_closed (closed : desk.store.queue.isClosed = true) (mutation : Mutation) :
    desk.push mutation =
      { desk with
        around := desk.around.answer desk.requests .shutDown
        requests := desk.requests + 1 } := by
  simp [Desk.push, PoolStore.push?, RequestQueue.push?, closed]

theorem push_opened (opened : desk.store.queue.isClosed = false) (mutation : Mutation) :
    desk.push mutation =
      { desk with
        store := { desk.store with
          queue := { desk.store.queue with
            waiting := desk.store.queue.waiting ++ [⟨desk.requests, mutation⟩] } }
        requests := desk.requests + 1
        log := desk.log.enqueue ⟨desk.requests, mutation⟩ } := by
  simp [Desk.push, PoolStore.push?, RequestQueue.push?, opened]

theorem Accounts.reject (accounts : desk.Accounts) (closed : desk.store.queue.isClosed = true)
    (mutation : Mutation) : (desk.push mutation).Accounts := by
  have silent : outcomes (desk.around.answers ++ [(desk.requests, .shutDown)]) =
      outcomes desk.around.answers := by
    rw [outcomes_append]
    exact List.append_nil _
  rw [push_closed closed]
  refine ⟨?_, ?_, accounts.queued, ?_⟩
  · simp only [Surroundings.answer, List.map_append, List.append_assoc, List.range_succ,
      List.map_cons, List.map_nil, List.cons_append, List.nil_append]
    exact (List.perm_middle.trans (accounts.whole.cons _)).trans
      (List.perm_append_singleton _ _).symm
  · simp only [Surroundings.answer, silent]
    exact accounts.ordered
  · intro id early foreign
    refine ⟨foreign, closed, ?_⟩
    rcases Nat.lt_succ_iff_lt_or_eq.mp early with earlier | rfl
    · exact List.mem_append_left _ (accounts.rejected id earlier foreign).2.2
    · exact List.mem_append_right _ List.mem_cons_self

theorem Accounts.queue (accounts : desk.Accounts) (opened : desk.store.queue.isClosed = false)
    (mutation : Mutation) : (desk.push mutation).Accounts := by
  have pushed := push_opened opened mutation
  have held : (desk.push mutation).store.held = desk.store.held ++ [desk.requests] := by
    rw [pushed, PoolStore.held, PoolStore.held, List.map_append, List.append_assoc]
    rfl
  have ids : (desk.push mutation).log.ids = desk.log.ids ++ [desk.requests] := by
    rw [pushed]
    exact List.map_append
  have answers : (desk.push mutation).around.answers = desk.around.answers := by rw [pushed]
  have requests : (desk.push mutation).requests = desk.requests + 1 := by rw [pushed]
  refine ⟨?_, ?_, ?_, ?_⟩
  · rw [held, answers, requests, List.range_succ, ← List.append_assoc]
    exact accounts.whole.append_right _
  · rw [held, answers, ← List.append_assoc, List.pairwise_append]
    refine ⟨accounts.ordered, List.pairwise_singleton _ _, ?_⟩
    intro id early last member
    rw [List.mem_singleton.mp member]
    exact accounts.held_lt early
  · rw [held, ids]
    exact List.append_subset.mpr
      ⟨fun _ held => List.mem_append_left _ (accounts.queued held),
        List.subset_append_right _ _⟩
  · intro id early foreign
    rw [requests] at early
    rw [ids, List.mem_append, List.mem_singleton, not_or] at foreign
    have earlier : id < desk.requests := by omega
    obtain ⟨-, shut, -⟩ := accounts.rejected id earlier foreign.1
    rw [opened] at shut
    contradiction

theorem Accounts.push (accounts : desk.Accounts) (mutation : Mutation) :
    (desk.push mutation).Accounts := by
  cases closed : desk.store.queue.isClosed with
  | true => exact accounts.reject closed mutation
  | false => exact accounts.queue closed mutation

theorem Accounts.shared (accounts : desk.Accounts) (sharedAct : SharedAct) :
    (desk.shared batchSize sharedAct).Accounts := by
  have same : ∀ store : PoolStore, store.held = desk.store.held →
      store.queue.isClosed = desk.store.queue.isClosed → ∀ around : Surroundings,
      around.answers = desk.around.answers → (desk.update (some (store, around))).Accounts := by
    intro store held closed around silent
    apply accounts.update (silent.trans (List.append_nil _).symm)
    · rw [held]
      exact PoolStore.Serves.refl _
    · exact fun shut => closed.trans shut
  cases sharedAct with
  | others client clock =>
      exact ⟨accounts.whole, accounts.ordered, accounts.queued, accounts.rejected⟩
  | solo soloAct =>
      cases soloAct with
      | desk deskAct =>
          cases deskAct with
          | push mutation => exact accounts.push mutation
          | work =>
              simp only [Desk.shared, solo, act]
              cases worked : PoolStore.step? batchSize desk.isShutDown (desk.store, desk.around) with
              | none => exact accounts
              | some result =>
                  obtain ⟨next, after⟩ := result
                  obtain ⟨told, answers, serves⟩ := (PoolStore.turn_of_step? worked).serves
                  apply accounts.update answers serves
                  intro shut
                  rcases PoolStore.step?_isClosed worked with same | ⟨-, closed⟩
                  · exact same.trans shut
                  · exact closed
          | notify | shutDown | tick now =>
              exact ⟨accounts.whole, accounts.ordered, accounts.queued, accounts.rejected⟩
      | finishUpdate =>
          simp only [Desk.shared, solo]
          cases finished : PoolStore.finishUpdate? (desk.store, desk.around) with
          | none => exact accounts
          | some result =>
              obtain ⟨next, after⟩ := result
              obtain ⟨batch, change, delay, reply, client, awaiting, rfl, rfl, -⟩ :=
                PoolStore.end_of_finishUpdate? finished
              apply same <;> simp [PoolStore.held, awaiting]
      | abandonUpdate =>
          simp only [Desk.shared, solo]
          cases abandoned : PoolStore.abandonUpdate? (desk.store, desk.around) with
          | none => exact accounts
          | some result =>
              obtain ⟨next, after⟩ := result
              obtain ⟨batch, change, delay, client, awaiting, rfl, rfl, -⟩ :=
                PoolStore.end_of_abandonUpdate? abandoned
              apply same <;> simp [PoolStore.held, awaiting]

theorem Accounts.runShared (accounts : desk.Accounts) (acts : List SharedAct) :
    (desk.runShared batchSize acts).Accounts := by
  induction acts generalizing desk with
  | nil => exact accounts
  | cons first rest ih => exact ih (accounts.shared first)

theorem requests_update (desk : Desk) (result : Option (PoolStore × Surroundings)) :
    (desk.update result).requests = desk.requests := by
  cases result <;> rfl

theorem requests_shared (desk : Desk) (sharedAct : SharedAct) :
    (desk.shared batchSize sharedAct).requests =
      desk.requests + sharedAct.mutation?.toList.length := by
  cases sharedAct with
  | others client clock => rfl
  | solo soloAct =>
      cases soloAct with
      | desk deskAct =>
          cases deskAct with
          | push mutation =>
              simp only [Desk.shared, solo, act, push]
              split <;> rfl
          | work => exact desk.requests_update _
          | notify | shutDown | tick now => rfl
      | finishUpdate | abandonUpdate => exact desk.requests_update _

/-- Requests are counted in the order in which they come. -/
theorem requests_runShared (desk : Desk) (acts : List SharedAct) :
    (desk.runShared batchSize acts).requests =
      desk.requests + (acts.filterMap SharedAct.mutation?).length := by
  induction acts generalizing desk with
  | nil => rfl
  | cons first rest ih =>
      have pushed : ((first :: rest).filterMap SharedAct.mutation?).length =
          first.mutation?.toList.length + (rest.filterMap SharedAct.mutation?).length := by
        cases mutation : first.mutation? <;> simp [mutation, Nat.add_comm]
      change ((desk.shared batchSize first).runShared batchSize rest).requests = _
      rw [ih, requests_shared, pushed, Nat.add_assoc]

/-- No request is held twice, or held and answered, or answered twice. -/
theorem Accounts.apart (accounts : desk.Accounts) :
    (desk.around.answers.map Prod.fst).Nodup ∧ desk.store.held.Nodup ∧
      ∀ id ∈ desk.around.answers.map Prod.fst, id ∉ desk.store.held := by
  have distinct := accounts.whole.nodup_iff.mpr List.nodup_range
  obtain ⟨answered, held, apart⟩ := List.nodup_append.mp distinct
  exact ⟨answered, held, fun id early late => apart id early id late rfl⟩

theorem Accounts.at_iff (accounts : desk.Accounts) {id : Nat} (early : id < desk.requests)
    (place : Place) : desk.At id place ↔ place = desk.place id := by
  obtain ⟨-, held, apart⟩ := accounts.apart
  have answered : ∀ {answer : Answer}, (id, answer) ∈ desk.around.answers → id ∉ desk.store.held :=
    fun given => apart id (List.mem_map_of_mem given)
  have waits : id ∈ desk.store.queue.waiting.map Request.id → id ∈ desk.store.held :=
    fun waiting => List.mem_append_right _ waiting
  have works : id ∈ desk.store.inHand → id ∈ desk.store.held :=
    fun working => List.mem_append_left _ working
  have either : id ∈ desk.store.inHand → id ∉ desk.store.queue.waiting.map Request.id :=
    fun working waiting => (List.nodup_append.mp held).2.2 id working id waiting rfl
  unfold Desk.place
  constructor
  · intro here
    cases place with
    | rejected => rw [if_pos here.1]
    | queued =>
        have waiting : id ∈ desk.store.queue.waiting.map Request.id := here
        rw [if_neg (not_not_intro (accounts.queued (waits waiting))), if_pos waiting]
    | inBatch =>
        have working : id ∈ desk.store.inHand := here
        rw [if_neg (not_not_intro (accounts.queued (works working))), if_neg (either working),
          if_pos working]
    | resolved =>
        obtain ⟨queued, answer, given⟩ := here
        rw [if_neg (not_not_intro queued), if_neg fun waiting => answered given (waits waiting),
          if_neg fun working => answered given (works working)]
  · rintro rfl
    split
    · rename_i foreign
      exact accounts.rejected id early foreign
    · rename_i queued
      split
      · assumption
      · split
        · assumption
        · rename_i idle absent
          have known := accounts.whole.mem_iff.mpr (List.mem_range.mpr early)
          rcases List.mem_append.mp known with told | held
          · obtain ⟨⟨_, answer⟩, given, rfl⟩ := List.mem_map.mp told
            exact ⟨not_not.mp queued, answer, given⟩
          · exact absurd held (by rw [PoolStore.held_eq, List.mem_append]; tauto)

/-- Whatever the record store and the clock do, and whenever the worker is told to stop: a request is
in one place at any time and is answered once. When the worker rests and the queue is empty, all are
answered. The outcomes of batches are told in the order in which requests were queued. -/
theorem resolved_once_in_order (batchSize : Nat) (snapshot : Snapshot) (client : Client)
    (clock : Option Timestamp) (cache : TokenCache) (meters : StoreMeters) (acts : List SharedAct) :
    let desk := runShared batchSize acts (.start snapshot ⟨client, clock, cache, meters, []⟩)
    desk.requests = (acts.filterMap SharedAct.mutation?).length ∧
    (∀ id < desk.requests, ∃! place, desk.At id place) ∧
    (desk.around.answers.map Prod.fst).Nodup ∧
    (desk.store.inHand ++ desk.store.queue.waiting.map Request.id).Nodup ∧
    (desk.store.isDraining = false → desk.store.queue.waiting = [] →
      ∀ id < desk.requests, ∃ answer, (id, answer) ∈ desk.around.answers) ∧
    (outcomes desk.around.answers).Pairwise (· < ·) := by
  intro desk
  have accounts : desk.Accounts := (accounts_start rfl).runShared acts
  refine ⟨?_, ?_, accounts.apart.1, accounts.apart.2.1, ?_, ?_⟩
  · exact (requests_runShared (.start snapshot ⟨client, clock, cache, meters, []⟩) acts).trans
      (Nat.zero_add _)
  · intro id early
    exact ⟨desk.place id, (accounts.at_iff early _).mpr rfl,
      fun other there => (accounts.at_iff early other).mp there⟩
  · intro rests empty id early
    have held : desk.store.held = [] := by
      rw [PoolStore.held_eq, PoolStore.inHand_of_rest rests, empty]
      rfl
    have known := accounts.whole.mem_iff.mpr (List.mem_range.mpr early)
    rw [held, List.append_nil] at known
    obtain ⟨⟨_, answer⟩, given, rfl⟩ := List.mem_map.mp known
    exact ⟨answer, given⟩
  · exact (List.pairwise_append.mp accounts.ordered).1

/-- Three requests, of which the second fails and the third comes after a shutdown. Somebody
else removes the record before the commit of the first one. -/
def removedActs : List SharedAct :=
  [SharedAct.solo (.desk (.push (.ofTransition (.deposit 5)))),
    .solo (.desk (.push (.ofTransition (.release ⟨"claim"⟩)))), .solo (.desk .notify)] ++
  List.replicate 5 (SharedAct.solo (.desk .work)) ++
  [SharedAct.others .empty (some .epoch), .solo .finishUpdate, .solo (.desk .shutDown)] ++
  List.replicate 7 (SharedAct.solo (.desk .work)) ++
  [SharedAct.solo (.desk (.push (.ofTransition (.deposit 7))))]

theorem resolved_once_in_order_removed :
    let desk := runShared 2 removedActs (.start sampleStart ⟨sampleClient, some .epoch, .empty, {}, []⟩)
    desk.store.isDraining = false ∧ desk.At 0 .resolved ∧ desk.At 1 .resolved ∧
      desk.At 2 .rejected ∧ (0, .rolledBack) ∈ desk.around.answers ∧
      (∀ id < 3, ∃ answer, (id, answer) ∈ desk.around.answers) ∧
      (desk.around.answers.map Prod.fst).Nodup := by
  intro desk
  have facts : desk.requests = 3 ∧ desk.store.isDraining = false ∧
      desk.store.queue.waiting.isEmpty = true ∧ desk.place 0 = .resolved ∧
      desk.place 1 = .resolved ∧ desk.place 2 = .rejected ∧
      (0, .rolledBack) ∈ desk.around.answers := by
    subst desk
    decide +kernel
  obtain ⟨three, rests, empty, first, second, third, rolledBack⟩ := facts
  subst desk
  have resolved := resolved_once_in_order 2 sampleStart sampleClient (some .epoch) .empty {}
    removedActs
  have accounts : Accounts
      (runShared 2 removedActs (.start sampleStart ⟨sampleClient, some .epoch, .empty, {}, []⟩)) :=
    (accounts_start rfl).runShared removedActs
  have here := fun id (early : id < 3) place same =>
    (accounts.at_iff (three ▸ early) place).mpr (Eq.symm (a := _) same)
  refine ⟨rests, here 0 (by decide) _ first, here 1 (by decide) _ second,
    here 2 (by decide) _ third, rolledBack, ?_, resolved.2.2.1⟩
  intro id early
  exact resolved.2.2.2.2.1 rests (List.isEmpty_iff.mp empty) id (three ▸ early)

end Desk

end ClaimStore
