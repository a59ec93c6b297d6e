import ClaimStore.Proofs.Worker.Log

/-!
One pool with its worker, seen alone.

Requests come under consecutive numbers. The log is kept for the record; nothing that happens depends
on it.
-/
namespace ClaimStore

/-- The store of a pool, what its worker uses, the number of requests so far, and the log. -/
structure Desk where
  store : PoolStore
  around : Surroundings
  isShutDown : Bool
  requests : Nat
  log : Log

/-- What happens at a pool: a request is queued, the worker is notified of requests, it takes a step,
it is told to stop, or the clock moves. -/
inductive DeskAct
  | push (mutation : Mutation)
  | notify
  | work
  | shutDown
  | tick (now : Timestamp)

namespace Desk

def start (snapshot : Snapshot) (around : Surroundings) : Desk :=
  ⟨.start snapshot, around, false, 0, .empty⟩

/-- Queues a request under the next number. If the queue is closed, it is answered at once. -/
def push (desk : Desk) (mutation : Mutation) : Desk :=
  let request : Request := ⟨desk.requests, mutation⟩
  match desk.store.push? request with
  | none =>
      { desk with
        around := desk.around.answer request.id .shutDown
        requests := desk.requests + 1 }
  | some store =>
      { desk with store, requests := desk.requests + 1, log := desk.log.enqueue request }

def update (desk : Desk) (result : Option (PoolStore × Surroundings)) : Desk :=
  match result with
  | none => desk
  | some (store, around) => { desk with store, around, log := desk.log.note desk.store store }

def act (batchSize : Nat) (desk : Desk) : DeskAct → Desk
  | .push mutation => desk.push mutation
  | .notify => { desk with store := desk.store.trigger }
  | .work => desk.update (PoolStore.step? batchSize desk.isShutDown (desk.store, desk.around))
  | .shutDown => { desk with isShutDown := true }
  | .tick now => { desk with around := { desk.around with clock := some now } }

/-- The clock works, updates that are answered are carried out, and the numbers of all requests so
far are smaller than the next one. A request that was not queued has been answered at once. -/
structure Ready (desk : Desk) : Prop where
  clock : desk.around.clock.isSome = true
  honest : desk.around.client.Honest
  numbered : ∀ id ∈ desk.log.ids, id < desk.requests
  answered : ∀ answer ∈ desk.around.answers, answer.1 < desk.requests
  owned : ∀ answer ∈ desk.around.answers, answer.1 ∈ desk.log.ids ∨ answer.2 = .shutDown

variable {desk : Desk} {snapshot : Snapshot} {around : Surroundings} {verdict : Nat → Bool}
variable {batchSize : Nat}

theorem ready_start (clock : around.clock.isSome = true) (honest : around.client.Honest)
    (unanswered : around.answers = []) : (start snapshot around).Ready := by
  have none : ∀ answer, answer ∉ (start snapshot around).around.answers := by
    intro answer member
    change answer ∈ around.answers at member
    rw [unanswered] at member
    cases member
  refine ⟨clock, honest, ?_, fun answer member => absurd member (none answer),
    fun answer member => absurd member (none answer)⟩
  intro id member
  cases member

theorem Ready.update (ready : desk.Ready) {store : PoolStore} {after : Surroundings}
    (clock : after.clock = desk.around.clock) (honest : after.client.Honest)
    (answers : ∃ more, after.answers = desk.around.answers ++ more ∧
      ∀ answer ∈ more, answer.1 ∈ desk.log.ids) :
    (desk.update (some (store, after))).Ready := by
  obtain ⟨more, whole, own⟩ := answers
  have ids : (desk.update (some (store, after))).log.ids = desk.log.ids := Log.note_ids _ _ _
  refine ⟨?_, honest, ?_, ?_, ?_⟩
  · exact (congrArg Option.isSome clock).trans ready.clock
  · intro id member
    exact ready.numbered id (ids ▸ member)
  · intro answer member
    change answer ∈ after.answers at member
    rw [whole] at member
    rcases List.mem_append.mp member with early | late
    · exact ready.answered answer early
    · exact ready.numbered _ (own answer late)
  · intro answer member
    change answer ∈ after.answers at member
    rw [whole] at member
    rw [ids]
    rcases List.mem_append.mp member with early | late
    · exact ready.owned answer early
    · exact .inl (own answer late)

/-- Only the steps of the worker change its phase, its snapshot, its batches or its client. -/
theorem act_frame (desk : Desk) (batchSize : Nat) {deskAct : DeskAct} (aside : deskAct ≠ .work) :
    (desk.act batchSize deskAct).store.phase = desk.store.phase ∧
      (desk.act batchSize deskAct).store.snapshot = desk.store.snapshot ∧
      (desk.act batchSize deskAct).log.batches = desk.log.batches ∧
      (desk.act batchSize deskAct).around.client = desk.around.client := by
  cases deskAct with
  | work => exact absurd rfl aside
  | push mutation =>
      cases closed : desk.store.queue.isClosed <;>
        simp [act, push, PoolStore.push?, RequestQueue.push?, closed, Surroundings.answer,
          Log.enqueue]
  | notify | shutDown | tick => exact ⟨rfl, rfl, rfl, rfl⟩

theorem step_of_work (ready : desk.Ready) {store : PoolStore} {after : Surroundings}
    (worked : PoolStore.step? batchSize desk.isShutDown (desk.store, desk.around) =
      some (store, after)) :
    ∃ now, PoolStore.Step now (desk.store, desk.around) (store, after) := by
  obtain ⟨now, clock⟩ := Option.isSome_iff_exists.mp ready.clock
  exact ⟨now, PoolStore.step_of_step? clock ready.honest worked⟩

theorem Ready.push (ready : desk.Ready) (mutation : Mutation) : (desk.push mutation).Ready := by
  unfold Desk.push
  simp only
  split
  · refine ⟨ready.clock, ready.honest, ?_, ?_, ?_⟩
    · intro id member
      exact Nat.lt_succ_of_lt (ready.numbered id member)
    · intro answer member
      rcases List.mem_append.mp member with early | late
      · exact Nat.lt_succ_of_lt (ready.answered answer early)
      · rw [List.mem_singleton.mp late]
        exact Nat.lt_succ_self _
    · intro answer member
      rcases List.mem_append.mp member with early | late
      · exact ready.owned answer early
      · exact .inr (congrArg Prod.snd (List.mem_singleton.mp late))
  · have ids : (desk.log.enqueue ⟨desk.requests, mutation⟩).ids =
        desk.log.ids ++ [desk.requests] := List.map_append
    refine ⟨ready.clock, ready.honest, ?_, ?_, ?_⟩
    · intro id member
      rw [ids] at member
      rcases List.mem_append.mp member with early | late
      · exact Nat.lt_succ_of_lt (ready.numbered id early)
      · rw [List.mem_singleton.mp late]
        exact Nat.lt_succ_self _
    · intro answer member
      exact Nat.lt_succ_of_lt (ready.answered answer member)
    · intro answer member
      rw [ids]
      exact (ready.owned answer member).imp_left (List.mem_append_left _)

theorem Ready.act (ready : desk.Ready)
    (fits : desk.log.Fits verdict desk.store desk.around.answers) (deskAct : DeskAct) :
    (desk.act batchSize deskAct).Ready := by
  cases deskAct with
  | push mutation => exact ready.push mutation
  | notify =>
      exact ⟨ready.clock, ready.honest, ready.numbered, ready.answered, ready.owned⟩
  | work =>
      unfold Desk.act
      simp only
      cases worked : PoolStore.step? batchSize desk.isShutDown (desk.store, desk.around) with
      | none => exact ready
      | some next =>
          obtain ⟨store, after⟩ := next
          obtain ⟨now, step⟩ := step_of_work ready worked
          obtain ⟨quiet, clock, -, -, more, whole, own⟩ := step.frame
          exact ready.update clock (quiet.honest ready.honest)
            ⟨more, whole, fun answer member => fits.held (own answer member)⟩
  | shutDown =>
      exact ⟨ready.clock, ready.honest, ready.numbered, ready.answered, ready.owned⟩
  | tick now => exact ⟨rfl, ready.honest, ready.numbered, ready.answered, ready.owned⟩

/-- The log is kept up; `verdict` is true of some batches that have been concluded. -/
structure Sound (verdict : Nat → Bool) (desk : Desk) : Prop where
  ready : desk.Ready
  fits : desk.log.Fits verdict desk.store desk.around.answers
  concluded : ∀ index, verdict index = true → index < desk.log.batches.length ∧
    (index + 1 < desk.log.batches.length ∨ desk.store.phase.isOpen = false)

theorem sound_start (clock : around.clock.isSome = true) (honest : around.client.Honest)
    (unanswered : around.answers = []) : Sound (fun _ => false) (start snapshot around) :=
  ⟨ready_start clock honest unanswered, Log.fits_start _ _ _, by rintro _ ⟨⟩⟩

theorem Sound.undecided (sound : desk.Sound verdict) (opened : desk.store.phase.isOpen = true) :
    verdict (desk.log.batches.length - 1) = false := by
  rw [← Bool.not_eq_true]
  intro decided
  obtain ⟨within, earlier | closed⟩ := sound.concluded _ decided
  · omega
  · rw [opened] at closed
    contradiction

theorem Sound.act (sound : desk.Sound verdict) (deskAct : DeskAct) :
    (desk.act batchSize deskAct).Sound verdict := by
  have ready : (desk.act batchSize deskAct).Ready := sound.ready.act sound.fits deskAct
  cases deskAct with
  | push mutation =>
      refine ⟨ready, ?_, ?_⟩
      · unfold Desk.act Desk.push
        simp only
        split
        · refine sound.fits.frame rfl rfl ?_
          intro ids within
          refine answersTo_append_apart ?_ _
          intro answer member held
          rw [List.mem_singleton.mp member] at held
          exact Nat.lt_irrefl _ (sound.ready.numbered _ (within held))
        · rename_i store pushed
          unfold PoolStore.push? RequestQueue.push? at pushed
          split at pushed
          · contradiction
          · cases pushed
            exact sound.fits.enqueue rfl rfl sound.ready.numbered sound.ready.answered
      · unfold Desk.act Desk.push
        simp only
        split
        · exact sound.concluded
        · rename_i store pushed
          unfold PoolStore.push? RequestQueue.push? at pushed
          split at pushed
          · contradiction
          · cases pushed
            exact sound.concluded
  | notify => exact ⟨ready, sound.fits.frame rfl rfl fun _ _ => rfl, sound.concluded⟩
  | work =>
      unfold Desk.act at ready ⊢
      simp only at ready ⊢
      cases worked : PoolStore.step? batchSize desk.isShutDown (desk.store, desk.around) with
      | none => exact sound
      | some next =>
          obtain ⟨store, after⟩ := next
          obtain ⟨now, step⟩ := step_of_work sound.ready worked
          rw [worked] at ready
          refine ⟨ready, sound.fits.step step sound.undecided, ?_⟩
          intro index decided
          obtain ⟨within, passed⟩ := sound.concluded index decided
          simp only [update]
          rcases desk.log.note_step step with ⟨batches, opens, -⟩ | ⟨taken, batches, -⟩
          · rw [batches]
            refine ⟨within, passed.imp_right ?_⟩
            intro closed
            rw [← Bool.not_eq_true] at closed ⊢
            exact fun opened => closed (opens opened)
          · rw [batches, List.length_append, List.length_singleton]
            exact ⟨by omega, .inl (by omega)⟩
  | shutDown => exact ⟨ready, sound.fits, sound.concluded⟩
  | tick now => exact ⟨ready, sound.fits, sound.concluded⟩

/-- The verdicts after the last batch has been concluded. -/
def conclude (verdict : Nat → Bool) (desk : Desk) (isCommitted : Bool) (index : Nat) : Bool :=
  if index + 1 = desk.log.batches.length then isCommitted else verdict index

section Conclude

variable {earlier : List Taken} {taken : Taken} {isCommitted : Bool}

theorem conclude_last (batches : desk.log.batches = earlier ++ [taken]) :
    desk.conclude verdict isCommitted earlier.length = isCommitted := by
  rw [Desk.conclude, batches, List.length_append, List.length_singleton]
  exact if_pos rfl

theorem conclude_earlier (batches : desk.log.batches = earlier ++ [taken]) {index : Nat}
    (early : index < earlier.length) :
    desk.conclude verdict isCommitted index = verdict index := by
  rw [Desk.conclude, batches, List.length_append, List.length_singleton]
  exact if_neg (by omega)

end Conclude

theorem Sound.conclude (sound : desk.Sound verdict) {batch : Batch} {change : Record} {delay : Nat}
    {conclusion : Conclusion} {client : Client}
    (awaiting : desk.store.phase = .awaiting batch change delay) (honest : client.Honest) :
    Sound (desk.conclude verdict conclusion.isCommitted)
      { desk with
        store := { desk.store with phase := .concluding batch conclusion }
        around := { desk.around with client } } := by
  obtain ⟨-, earlier, taken, batches, holds⟩ := sound.fits.working awaiting rfl
  obtain ⟨rfl, -, -, told⟩ := holds
  refine ⟨⟨sound.ready.clock, honest, sound.ready.numbered, sound.ready.answered,
    sound.ready.owned⟩, ?_, ?_⟩
  · exact sound.fits.hold batches rfl (fun _ early => conclude_earlier batches early)
      ⟨rfl, (conclude_last batches).symm, told⟩
  · intro index decided
    refine ⟨?_, .inr rfl⟩
    simp only [Desk.conclude] at decided
    split at decided
    · simp only
      omega
    · exact (sound.concluded index decided).1

def samplePool : PoolKey := ⟨"h", "t", "i", "n", "s"⟩

def sampleStart : Snapshot := ⟨.first, samplePool, .empty samplePool⟩

def sampleClient : Client :=
  { Client.empty with backend := Backend.empty.put (sampleStart.record .epoch) }

def sampleAround : Surroundings := ⟨sampleClient, some .epoch, .empty, {}, []⟩

end Desk

end ClaimStore
