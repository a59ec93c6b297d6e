import ClaimStore.Proofs.Shutdown.Histories

/-!
The history of a pool as the registry and its callers go on.

Only the worker of the pool and those who queue requests there add to it. Every request that comes
to the pool bears a number of its own.
-/
namespace ClaimStore

namespace History

variable {history : History} {store : PoolStore} {answers : List (Nat × Answer)}

/-- The numbers of all requests that have come to the pool. -/
def numbers (history : History) : List Nat := history.queued.map Request.id ++ history.rejected

theorem keeps_start (snapshot : Snapshot) (answers : List (Nat × Answer)) :
    History.empty.Keeps (.start snapshot) answers := by
  refine ⟨rfl, rfl, ?_, ?_⟩
  · intro request state failure run
    cases run
  · intro batch isCommitted ended
    cases ended

theorem Keeps.queue (keeps : history.Keeps store answers) (request : Request) :
    { history with queued := history.queued ++ [request] }.Keeps
      { store with queue := { store.queue with waiting := store.queue.waiting ++ [request] } }
      answers := by
  refine ⟨?_, keeps.accepted, keeps.failed, keeps.settles⟩
  simp only [keeps.stream, PoolStore.unapplied, List.append_assoc]

theorem Keeps.await (keeps : history.Keeps store answers) {batch : Batch} {change : Record}
    {delay : Nat} (awaiting : store.phase = .awaiting batch change delay)
    (conclusion : Conclusion) :
    history.Keeps { store with phase := .concluding batch conclusion } answers := by
  have settles := keeps.settles
  rw [awaiting] at settles
  refine keeps.pass ?_ ?_ (List.Subset.refl _) settles
  · simp [PoolStore.unapplied, awaiting]
  · simp [PoolStore.uncommitted, awaiting]

theorem work_frame (history : History) (store : PoolStore) :
    (history.work store).numbers = history.numbers ∧
      (history.work store).rejected = history.rejected := by
  unfold work
  split <;> exact ⟨rfl, rfl⟩

theorem work_of_rests {batchSize : Nat} {isShutDown : Bool} {around : Surroundings}
    (rests : PoolStore.step? batchSize isShutDown (store, around) = none) :
    history.work store = history := by
  cases phase : store.phase with
  | idle | taking | awaiting | adopting | resolving | stopped | died => simp only [work, phase]
  | concluding batch conclusion => simp [PoolStore.step?, phase] at rests
  | applying batch requests =>
      cases requests with
      | nil => simp [PoolStore.step?, phase] at rests
      | cons request rest =>
          simp only [PoolStore.step?, phase] at rests
          split at rests <;> cases rests

end History

namespace Closing

/-- The history of a pool is that of its store, and begins with it. -/
structure Recorded (watched : PoolKey) (closing : Closing) : Prop where
  absent : closing.registry.find? watched = none → closing.history = .empty
  keeps : ∀ store, closing.registry.find? watched = some store →
    closing.history.Keeps store closing.registry.answers
  once : closing.history.numbers.Nodup
  early : ∀ id ∈ closing.history.numbers, id < closing.reception.requests
  refused : ∀ id ∈ closing.history.rejected, (id, .shutDown) ∈ closing.registry.answers

variable {watched key : PoolKey} {closing : Closing} {after : Reception} {call : ShutdownCall}
variable {history : History} {next : PoolStore} {told : List (Nat × Answer)}

theorem recorded_start {registry : Registry} (client : Client)
    (none : registry.find? watched = .none) : (start registry client).Recorded watched := by
  refine ⟨fun _ => rfl, ?_, List.nodup_nil, ?_, ?_⟩
  · intro store found
    cases none.symm.trans found
  · intro id member
    cases member
  · intro id member
    cases member

/-- What happens to the other pools. -/
theorem Recorded.other (recorded : closing.Recorded watched)
    (moves : closing.registry.Moves after.registry key next told) (apart : key ≠ watched)
    (requests : closing.reception.requests ≤ after.requests) :
    Recorded watched ⟨after, call, closing.history⟩ := by
  have same : after.registry.find? watched = closing.registry.find? watched :=
    moves.other (Ne.symm apart)
  have grown : closing.registry.answers ⊆ after.registry.answers := by
    rw [moves.told]
    exact List.subset_append_left _ _
  refine ⟨?_, ?_, recorded.once, ?_, ?_⟩
  · intro absent
    exact recorded.absent (same.symm.trans absent)
  · intro store found
    exact (recorded.keeps store (same.symm.trans found)).grow grown
  · intro id member
    exact Nat.lt_of_lt_of_le (recorded.early id member) requests
  · intro id member
    exact grown (recorded.refused id member)

/-- What happens to the pool, to which so many new requests have come. -/
theorem Recorded.own (recorded : closing.Recorded watched) (count : Nat)
    (moves : closing.registry.Moves after.registry watched next told)
    (keeps : history.Keeps next (closing.registry.answers ++ told))
    (numbers : history.numbers.Perm
      (closing.history.numbers ++ List.range' closing.reception.requests count))
    (requests : after.requests = closing.reception.requests + count)
    (refused : ∀ id ∈ history.rejected, (id, .shutDown) ∈ closing.registry.answers ++ told) :
    Recorded watched ⟨after, call, history⟩ := by
  refine ⟨?_, ?_, ?_, ?_, moves.told ▸ refused⟩
  · intro absent
    cases moves.same.symm.trans absent
  · intro store found
    cases moves.same.symm.trans found
    exact moves.told ▸ keeps
  · rw [numbers.nodup_iff, List.nodup_append]
    refine ⟨recorded.once, List.nodup_range', ?_⟩
    intro id old other late same
    have first := (List.mem_range'_1.mp late).1
    exact Nat.not_lt_of_le first (same ▸ recorded.early id old)
  · intro id member
    rw [requests]
    rcases List.mem_append.mp (numbers.subset member) with old | late
    · exact Nat.lt_add_right _ (recorded.early id old)
    · exact (List.mem_range'_1.mp late).2

/-- No request comes to the pool, and the worker may have acted. -/
theorem Recorded.move (recorded : closing.Recorded watched)
    (moves : closing.registry.Moves after.registry watched next told)
    (keeps : history.Keeps next (closing.registry.answers ++ told))
    (same : history.numbers = closing.history.numbers ∧
      history.rejected = closing.history.rejected)
    (requests : after.requests = closing.reception.requests) :
    Recorded watched ⟨after, call, history⟩ := by
  refine recorded.own 0 moves keeps ?_ requests ?_
  · rw [same.1, List.range'_zero, List.append_nil]
  · intro id member
    rw [same.2] at member
    exact List.mem_append_left _ (recorded.refused id member)

/-- Nobody has got at the pool. -/
theorem note_of_silent {act : ReceptionAct}
    (silent : ∀ index mutation, act = .push index mutation →
      closing.reception.handle? index = none)
    (rests : ∀ key store, act = .work key → closing.registry.find? key = some store →
      PoolStore.step? closing.registry.batchSize closing.registry.isShutDown
        (store, closing.registry.surroundings closing.reception.client key) = none) :
    closing.note watched act = closing.history := by
  cases act with
  | push index mutation => simp [note, silent index mutation rfl]
  | work key =>
      simp only [note]
      split
      · rename_i same
        cases found : closing.registry.find? watched with
        | none => rfl
        | some store => exact History.work_of_rests (rests key store rfl (same ▸ found))
      · rfl
  | ask | look | enter | load | install | settle | leave | notify | finishUpdate | abandonUpdate
  | shutDown | others => rfl

theorem Recorded.act (recorded : closing.Recorded watched) (sound : closing.reception.Sound)
    (act : ReceptionAct) (lively : (closing.reception.act act).Lively) :
    (closing.act watched (.reception act)).Recorded watched := by
  have move := Reception.move_act sound act
  show Recorded watched ⟨closing.reception.act act, closing.callAfter act, closing.note watched act⟩
  generalize closing.reception.act act = after at move lively
  cases move with
  | aside silent rests stores clock answers requests =>
      rw [note_of_silent silent rests]
      refine ⟨?_, ?_, recorded.once, ?_, ?_⟩
      · intro absent
        exact recorded.absent ((stores watched).symm.trans absent)
      · intro store found
        show closing.history.Keeps store after.registry.answers
        rw [answers]
        exact recorded.keeps store ((stores watched).symm.trans found)
      · show ∀ id ∈ closing.history.numbers, id < after.requests
        rw [requests]
        exact recorded.early
      · show ∀ id ∈ closing.history.rejected, (id, .shutDown) ∈ after.registry.answers
        rw [answers]
        exact recorded.refused
  | @install index key snapshot _ absent isOpen moves requests =>
      by_cases here : key = watched
      · subst here
        have none : closing.history = .empty := recorded.absent absent
        show Recorded key ⟨after, _, closing.history⟩
        refine recorded.move moves ?_ ⟨rfl, rfl⟩ requests
        rw [none]
        exact History.keeps_start snapshot _
      · exact recorded.other moves here requests.ge
  | @queue index mutation key store _ handle found opened moves requests =>
      by_cases here : key = watched
      · subst here
        have noted : closing.note key (.push index mutation) =
            { closing.history with
              queued := closing.history.queued ++ [⟨closing.reception.requests, mutation⟩] } := by
          simp [note, handle, registry, found, History.push, opened]
        rw [noted]
        refine recorded.own 1 moves ?_ ?_ requests ?_
        · rw [List.append_nil]
          exact (recorded.keeps store found).queue _
        · simp only [History.numbers, List.map_append, List.append_assoc]
          exact List.perm_append_comm.append_left _
        · intro id member
          exact List.mem_append_left _ (recorded.refused id member)
      · have noted : closing.note watched (.push index mutation) = closing.history := by
          simp [note, handle, here]
        rw [noted]
        exact recorded.other moves here (requests ▸ Nat.le_succ _)
  | @reject index mutation key store _ handle found closed moves requests =>
      by_cases here : key = watched
      · subst here
        have noted : closing.note key (.push index mutation) =
            { closing.history with
              rejected := closing.history.rejected ++ [closing.reception.requests] } := by
          simp [note, handle, registry, found, History.push, closed]
        rw [noted]
        refine recorded.own 1 moves ?_ ?_ requests ?_
        · obtain ⟨stream, accepted, failed, settles⟩ :=
            (recorded.keeps store found).grow (List.subset_append_left _ _)
          exact ⟨stream, accepted, failed, settles⟩
        · simp only [History.numbers, List.append_assoc]
          exact List.Perm.refl _
        · intro id member
          rcases List.mem_append.mp member with early | last
          · exact List.mem_append_left _ (recorded.refused id early)
          · rw [List.mem_singleton.mp last]
            exact List.mem_append_right _ List.mem_cons_self
      · have noted : closing.note watched (.push index mutation) = closing.history := by
          simp [note, handle, here]
        rw [noted]
        exact recorded.other moves here (requests ▸ Nat.le_succ _)
  | @notify index key store _ found moves requests =>
      by_cases here : key = watched
      · subst here
        obtain ⟨stream, accepted, failed, settles⟩ := recorded.keeps store found
        refine recorded.move moves ?_ ⟨rfl, rfl⟩ requests
        rw [List.append_nil]
        exact ⟨stream, accepted, failed, settles⟩
      · exact recorded.other moves here requests.ge
  | @work key store next around told _ found stepped answers moves requests =>
      by_cases here : key = watched
      · subst here
        have noted : closing.note key (.work key) = closing.history.work store := by
          simp [note, registry, found]
        rw [noted]
        refine recorded.move moves ?_ (History.work_frame _ _) requests
        have alive := (lively.lives key next moves.same).alive
        have turned := (recorded.keeps store found).turn (PoolStore.turn_of_step? stepped) alive
        rw [answers] at turned
        exact turned
      · have noted : closing.note watched (.work key) = closing.history := if_neg here
        rw [noted]
        exact recorded.other moves here requests.ge
  | @conclude _ key store batch change delay conclusion _ ending found awaiting moves requests =>
      have noted : closing.note watched act = closing.history := by
        rcases ending with rfl | rfl <;> rfl
      rw [noted]
      by_cases here : key = watched
      · subst here
        refine recorded.move moves ?_ ⟨rfl, rfl⟩ requests
        rw [List.append_nil]
        exact (recorded.keeps store found).await awaiting conclusion
      · exact recorded.other moves here requests.ge

end Closing

end ClaimStore
