import ClaimStore.Proofs.Shutdown.Moves
import ClaimStore.Proofs.Triggering

/-!
Workers whose clock works, and the requests that they hold.

Such a worker comes to an end only when it has closed its queue and found it empty. No request is
held by two workers, or held and answered, or answered twice.
-/
namespace ClaimStore

namespace PoolStore

/-- A worker whose clock works. It has stopped only if its queue is closed and empty, and it does not
wait for requests when the queue is closed. -/
structure Lives (store : PoolStore) : Prop where
  alive : store.phase ≠ .died
  stopped : store.phase = .stopped → store.queue.isClosed = true ∧ store.queue.waiting = []
  idle : store.phase = .idle → store.queue.isClosed = false

variable {batchSize : Nat} {isShutDown : Bool} {store next : PoolStore}
variable {around after : Surroundings}

theorem lives_start (snapshot : Snapshot) : (start snapshot).Lives :=
  ⟨nofun, nofun, fun _ => rfl⟩

theorem alive_of_step? (clock : around.clock.isSome = true)
    (stepped : step? batchSize isShutDown (store, around) = some (next, after)) :
    next.phase ≠ .died := by
  obtain ⟨now, clock⟩ := Option.isSome_iff_exists.mp clock
  intro died
  rcases step_or_commit default stepped with step | ⟨batch, applying, committed⟩
  · cases step with
    | rest taking passed => rcases passed with rfl | rfl <;> cases died
    | wake | take | accept | refuse | abandon | send | conclude | adopt | finish | resolve =>
        cases died
  · simp only [commit, send, clock] at committed
    split at committed
    · cases committed
      cases died
    · split at committed <;> cases committed <;> cases died

theorem lives_step (positive : 0 < batchSize) (clock : around.clock.isSome = true)
    (stepped : step? batchSize isShutDown (store, around) = some (next, after)) : next.Lives := by
  refine ⟨alive_of_step? clock stepped, ?_, ?_⟩
  · intro stopped
    obtain ⟨empty, paused⟩ := pause_of_step? positive stepped (by rw [isDraining, stopped]; rfl)
    rw [stopped] at paused
    split at paused
    · rename_i closed
      exact ⟨closed, empty⟩
    · cases paused
  · exact fun idle => (rest_of_step? positive stepped idle).2

end PoolStore

namespace Reception

/-- The clock works, and so do the workers. -/
structure Lively (reception : Reception) : Prop where
  clock : reception.registry.clock.isSome = true
  lives : ∀ key store, reception.registry.find? key = some store → store.Lives

/-- The requests that the worker of a pool holds, if there is one. -/
def held (reception : Reception) (key : PoolKey) : List Nat :=
  ((reception.registry.find? key).map PoolStore.held).getD []

/-- The requests that have been answered. -/
def answered (reception : Reception) : List Nat := reception.registry.answers.map Prod.fst

/-- No request is in two places. -/
structure Distinct (reception : Reception) : Prop where
  once : reception.answered.Nodup
  early : ∀ id ∈ reception.answered, id < reception.requests
  kept : ∀ key, (reception.held key).Nodup ∧
    ∀ id ∈ reception.held key, id < reception.requests ∧ id ∉ reception.answered
  apart : ∀ key other, key ≠ other → ∀ id ∈ reception.held key, id ∉ reception.held other

variable {reception after : Reception} {key : PoolKey} {store next : PoolStore}
variable {told : List (Nat × Answer)}

theorem held_of_found (found : reception.registry.find? key = some store) :
    reception.held key = store.held := by
  rw [held, found]
  rfl

theorem Lively.act (lively : reception.Lively) {act : ReceptionAct} (sound : reception.Sound)
    (never : ∀ client, act ≠ .others client none) : (reception.act act).Lively := by
  have move := move_act sound act
  generalize reception.act act = after at move
  have replace : ∀ {key next told}, reception.registry.Moves after.registry key next told →
      next.Lives → after.Lively := fun moves lives =>
    ⟨moves.clock ▸ lively.clock, moves.every _ lively.lives lives⟩
  cases move with
  | aside silent rests stores clock told requests =>
      refine ⟨?_, fun key store there => lively.lives key store (stores key ▸ there)⟩
      rcases clock with same | ⟨client, rfl⟩
      · exact same ▸ lively.clock
      · cases clock : after.registry.clock with
        | none => exact absurd (congrArg (ReceptionAct.others client) clock) (never client)
        | some now => rfl
  | install absent isOpen moves requests => exact replace moves (PoolStore.lives_start _)
  | queue handle found opened moves requests =>
      obtain ⟨alive, stopped, idle⟩ := lively.lives _ _ found
      refine replace moves ⟨alive, ?_, idle⟩
      intro halted
      rw [(stopped halted).1] at opened
      cases opened
  | reject handle found closed moves requests => exact replace moves (lively.lives _ _ found)
  | notify found moves requests =>
      obtain ⟨alive, stopped, idle⟩ := lively.lives _ _ found
      exact replace moves ⟨alive, stopped, idle⟩
  | work found stepped answers moves requests =>
      have positive := reception.registry.options.batchSize_pos
      exact replace moves (PoolStore.lives_step positive lively.clock stepped)
  | conclude ending found awaiting moves requests => exact replace moves ⟨nofun, nofun, nofun⟩

/-- Once there is a shutdown and every worker has stopped, there is no other worker any more. -/
theorem stopped_act (sound : reception.Sound) (isDown : reception.registry.isShutDown = true)
    (stopped : ∀ key store, reception.registry.find? key = some store → store.phase = .stopped)
    (act : ReceptionAct) :
    ∀ key store, (reception.act act).registry.find? key = some store → store.phase = .stopped := by
  have move := move_act sound act
  generalize reception.act act = after at move
  cases move with
  | aside silent rests stores clock told requests =>
      intro key store there
      exact stopped key store ((stores key).symm.trans there)
  | install absent isOpen moves requests => cases isOpen.symm.trans isDown
  | queue handle found opened moves requests | reject handle found closed moves requests
  | notify found moves requests =>
      have halted := stopped _ _ found
      exact moves.every (fun store => store.phase = .stopped) stopped halted
  | work found stepped answers moves requests =>
      simp [PoolStore.step?, stopped _ _ found] at stepped
  | conclude ending found awaiting moves requests =>
      cases (stopped _ _ found).symm.trans awaiting

/-- A worker that is given new requests answers some of all that it holds, and keeps the others. -/
theorem Distinct.replace (distinct : reception.Distinct) (new : List Nat)
    (moves : reception.registry.Moves after.registry key next told)
    (whole : (told.map Prod.fst ++ next.held).Perm (reception.held key ++ new))
    (numbered : new = List.range' reception.requests new.length)
    (requests : after.requests = reception.requests + new.length) : after.Distinct := by
  have answers : after.answered = reception.answered ++ told.map Prod.fst := by
    rw [answered, moves.told, List.map_append]
    rfl
  have holds : ∀ place, after.held place =
      if place = key then next.held else reception.held place := by
    intro place
    rw [Reception.held, moves.stores]
    split <;> rfl
  have fresh : ∀ id ∈ new, reception.requests ≤ id ∧ id < after.requests := by
    intro id member
    rw [numbered, List.mem_range'_1] at member
    exact ⟨member.1, requests ▸ member.2⟩
  have grown : ∀ {id}, id < reception.requests → id < after.requests := by
    intro id early
    rw [requests]
    exact Nat.lt_add_right _ early
  -- what the worker had before and what is new is nowhere else
  have own : ∀ id ∈ told.map Prod.fst ++ next.held, id < after.requests ∧
      id ∉ reception.answered ∧ ∀ place, place ≠ key → id ∉ reception.held place := by
    intro id member
    rcases List.mem_append.mp (whole.subset member) with old | late
    · obtain ⟨early, silent⟩ := (distinct.kept key).2 id old
      exact ⟨grown early, silent, fun place other => distinct.apart key place (Ne.symm other) id old⟩
    · obtain ⟨last, within⟩ := fresh id late
      refine ⟨within, fun given => ?_, fun place _ there => ?_⟩
      · exact Nat.not_lt_of_le last (distinct.early id given)
      · exact Nat.not_lt_of_le last ((distinct.kept place).2 id there).1
  have parts : (told.map Prod.fst ++ next.held).Nodup := by
    rw [whole.nodup_iff, List.nodup_append]
    refine ⟨(distinct.kept key).1, numbered ▸ List.nodup_range', ?_⟩
    intro id old other late same
    exact Nat.not_lt_of_le (fresh other late).1 (same ▸ ((distinct.kept key).2 id old).1)
  obtain ⟨once, kept, away⟩ := List.nodup_append.mp parts
  have given : ∀ id ∈ told.map Prod.fst, id ∈ told.map Prod.fst ++ next.held :=
    fun _ => List.mem_append_left _
  have left : ∀ id ∈ next.held, id ∈ told.map Prod.fst ++ next.held :=
    fun _ => List.mem_append_right _
  refine ⟨?_, ?_, ?_, ?_⟩
  · rw [answers, List.nodup_append]
    refine ⟨distinct.once, once, ?_⟩
    intro id early other late same
    exact (own other (given other late)).2.1 (same ▸ early)
  · rw [answers]
    intro id member
    rcases List.mem_append.mp member with early | late
    · exact grown (distinct.early id early)
    · exact (own id (given id late)).1
  · intro place
    rw [holds, answers]
    split
    · refine ⟨kept, fun id member => ⟨(own id (left id member)).1, ?_⟩⟩
      rw [List.mem_append, not_or]
      exact ⟨(own id (left id member)).2.1, fun late => away id late id member rfl⟩
    · rename_i other
      obtain ⟨nodup, known⟩ := distinct.kept place
      refine ⟨nodup, fun id member => ⟨grown (known id member).1, ?_⟩⟩
      rw [List.mem_append, not_or]
      exact ⟨(known id member).2, fun late => (own id (given id late)).2.2 place other member⟩
  · intro place other differ id
    rw [holds, holds]
    split
    · rename_i here
      rw [if_neg fun same => differ (here.trans same.symm)]
      intro member
      exact (own id (left id member)).2.2 other fun same => differ (here.trans same.symm)
    · rename_i elsewhere
      intro member
      split
      · exact fun late => (own id (left id late)).2.2 place elsewhere member
      · exact distinct.apart place other differ id member

theorem Distinct.serve (distinct : reception.Distinct)
    (found : reception.registry.find? key = some store)
    (moves : reception.registry.Moves after.registry key next told)
    (serves : PoolStore.Serves store.held next.held told)
    (requests : after.requests = reception.requests) : after.Distinct := by
  refine distinct.replace [] moves ?_ rfl requests
  rw [held_of_found found, List.append_nil]
  exact serves.whole

theorem Distinct.act (distinct : reception.Distinct) (sound : reception.Sound)
    (act : ReceptionAct) : (reception.act act).Distinct := by
  have move := move_act sound act
  generalize reception.act act = after at move
  cases move with
  | aside silent rests stores clock told requests =>
      have holds : ∀ key, after.held key = reception.held key := by
        intro key
        rw [Reception.held, stores]
        rfl
      have answers : after.answered = reception.answered := congrArg (List.map Prod.fst) told
      refine ⟨answers ▸ distinct.once, ?_, ?_, ?_⟩
      · rw [answers, requests]
        exact distinct.early
      · simp only [holds, answers, requests]
        exact distinct.kept
      · simp only [holds]
        exact distinct.apart
  | install absent isOpen moves requests =>
      refine distinct.replace [] moves ?_ rfl requests
      rw [Reception.held, absent]
      exact List.Perm.nil
  | queue handle found opened moves requests =>
      refine distinct.replace [reception.requests] moves ?_ rfl requests
      rw [held_of_found found]
      simp [PoolStore.held]
  | reject handle found closed moves requests =>
      refine distinct.replace [reception.requests] moves ?_ rfl requests
      rw [held_of_found found]
      exact List.perm_append_comm
  | notify found moves requests =>
      exact distinct.serve found moves (PoolStore.Serves.refl _) requests
  | work found stepped answers moves requests =>
      obtain ⟨told, given, serves⟩ := (PoolStore.turn_of_step? stepped).serves
      obtain rfl := List.append_cancel_left (given.symm.trans answers)
      exact distinct.serve found moves serves requests
  | conclude ending found awaiting moves requests =>
      refine distinct.serve found moves ?_ requests
      simp only [PoolStore.held, awaiting]
      exact PoolStore.Serves.refl _

theorem distinct_start {options : Options} {now : Timestamp} {registry : Registry}
    (made : Registry.create options now = .ok registry) (client : Client) :
    (start registry client).Distinct := by
  unfold Registry.create at made
  split at made <;> cases made
  refine ⟨List.nodup_nil, ?_, ?_, ?_⟩
  · intro id member
    cases member
  · intro key
    refine ⟨List.nodup_nil, ?_⟩
    intro id member
    cases member
  · intro key other differ id member
    cases member

theorem Distinct.only (distinct : reception.Distinct) {id : Nat} {answer : Answer}
    (given : (id, answer) ∈ reception.registry.answers) (other : Answer) :
    (id, other) ∈ reception.registry.answers ↔ other = answer := by
  constructor
  · intro again
    have same := List.inj_on_of_nodup_map distinct.once again given rfl
    exact (Prod.mk.inj same).2
  · intro same
    exact same ▸ given

end Reception

end ClaimStore
