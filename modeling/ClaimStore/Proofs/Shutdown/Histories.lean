import ClaimStore.Proofs.Shutdown.Workers

/-!
What becomes of the requests of a pool.

The mutations of all requests that are queued are run once, in the order of the queue. A request
whose mutation fails is answered at once, and any other one is told how its batch has ended.
-/
namespace ClaimStore

namespace PoolStore

/-- The requests whose mutations have not been run. -/
def unapplied (store : PoolStore) : List Request :=
  (match store.phase with
    | .applying _ rest => rest
    | _ => []) ++ store.queue.waiting

/-- The requests in the batch in hand, as long as its commit has not been concluded. -/
def uncommitted (store : PoolStore) : List Nat :=
  match store.phase with
  | .applying batch _ | .awaiting batch _ _ | .concluding batch _ => batch.pending
  | _ => []

end PoolStore

namespace History

/-- The requests in these batches have been told how they have ended. -/
def Told (batches : List (List Nat × Bool)) (answers : List (Nat × Answer)) : Prop :=
  ∀ batch isCommitted, (batch, isCommitted) ∈ batches →
    ∀ id ∈ batch, (id, .ofCommit isCommitted) ∈ answers

/-- Of the batches that have ended only the last one may not have been told of to the end. -/
def Settles (history : History) (answers : List (Nat × Answer)) : Phase → Prop
  | .adopting batch conclusion =>
      ∃ earlier, history.ended = earlier ++ [(batch.pending, conclusion.isCommitted)] ∧
        Told earlier answers
  | .resolving answer pending =>
      ∃ earlier done isCommitted, history.ended = earlier ++ [(done ++ pending, isCommitted)] ∧
        answer = .ofCommit isCommitted ∧ Told earlier answers ∧ ∀ id ∈ done, (id, answer) ∈ answers
  | _ => Told history.ended answers

/-- The history of a pool tells how far its worker has come. -/
structure Keeps (history : History) (store : PoolStore) (answers : List (Nat × Answer)) : Prop where
  stream : history.queued = history.applied.map Prod.fst ++ store.unapplied
  accepted : history.accepted = history.ended.flatMap Prod.fst ++ store.uncommitted
  failed : ∀ request state failure, (request, state) ∈ history.applied →
    request.mutation state = .error failure → (request.id, .failed failure) ∈ answers
  settles : history.Settles answers store.phase

variable {history : History} {store next : PoolStore} {answers more : List (Nat × Answer)}
variable {around after : Surroundings}

theorem Told.grow {batches : List (List Nat × Bool)} (told : Told batches answers)
    (grown : answers ⊆ more) : Told batches more :=
  fun batch isCommitted ended id member => grown (told batch isCommitted ended id member)

theorem Settles.grow {phase : Phase} (settles : history.Settles answers phase)
    (grown : answers ⊆ more) : history.Settles more phase := by
  cases phase with
  | adopting batch conclusion =>
      obtain ⟨earlier, ended, told⟩ := settles
      exact ⟨earlier, ended, told.grow grown⟩
  | resolving answer pending =>
      obtain ⟨earlier, done, isCommitted, ended, own, told, given⟩ := settles
      exact ⟨earlier, done, isCommitted, ended, own, told.grow grown,
        fun id member => grown (given id member)⟩
  | idle | taking | applying | awaiting | concluding | stopped | died => exact Told.grow settles grown

theorem Keeps.grow (keeps : history.Keeps store answers) (grown : answers ⊆ more) :
    history.Keeps store more :=
  ⟨keeps.stream, keeps.accepted,
    fun request state failure run failed => grown (keeps.failed request state failure run failed),
    keeps.settles.grow grown⟩

theorem accepted_append (history : History) (request : Request) (state : PoolState) :
    { history with applied := history.applied ++ [(request, state)] }.accepted =
      history.accepted ++ if (request.mutation state).isOk then [request.id] else [] := by
  simp only [accepted, List.filter_append, List.map_append]
  cases run : (request.mutation state).isOk <;> simp [run]

/-- Nothing is run or concluded, and the worker may have answered a request. -/
theorem Keeps.pass (keeps : history.Keeps store answers)
    (unapplied : next.unapplied = store.unapplied)
    (uncommitted : next.uncommitted = store.uncommitted) (grown : answers ⊆ more)
    (settles : history.Settles more next.phase) : history.Keeps next more := by
  refine ⟨?_, ?_, (keeps.grow grown).failed, settles⟩
  · rw [unapplied]
    exact keeps.stream
  · rw [uncommitted]
    exact keeps.accepted

theorem Keeps.accept (keeps : history.Keeps store answers) {batch : Batch} {request : Request}
    {rest : List Request} {candidate : PoolState}
    (applying : store.phase = .applying batch (request :: rest))
    (accepted : request.mutation batch.candidate = .ok candidate) :
    { history with applied := history.applied ++ [(request, batch.candidate)] }.Keeps
      { store with
        phase := .applying { batch with candidate, pending := batch.pending ++ [request.id] } rest }
      answers := by
  obtain ⟨stream, before, failed, settles⟩ := keeps
  refine ⟨?_, ?_, ?_, ?_⟩
  · simpa [PoolStore.unapplied, applying] using stream
  · simp only [PoolStore.uncommitted, applying] at before
    rw [accepted_append, before, accepted]
    simp [PoolStore.uncommitted, Except.isOk, Except.toBool]
  · intro other state failure run fails
    rcases List.mem_append.mp run with early | last
    · exact failed other state failure early fails
    · obtain ⟨rfl, rfl⟩ := Prod.mk.inj (List.mem_singleton.mp last)
      rw [accepted] at fails
      cases fails
  · rw [applying] at settles
    exact settles

theorem Keeps.refuse (keeps : history.Keeps store answers) {batch : Batch} {request : Request}
    {rest : List Request} {failure : MutationFailure}
    (applying : store.phase = .applying batch (request :: rest))
    (refused : request.mutation batch.candidate = .error failure) :
    { history with applied := history.applied ++ [(request, batch.candidate)] }.Keeps
      { store with phase := .applying batch rest }
      (answers ++ [(request.id, Answer.failed failure)]) := by
  obtain ⟨stream, before, failed, settles⟩ := keeps
  refine ⟨?_, ?_, ?_, ?_⟩
  · simpa [PoolStore.unapplied, applying] using stream
  · simp only [PoolStore.uncommitted, applying] at before
    rw [accepted_append, before, refused]
    simp [PoolStore.uncommitted, Except.isOk, Except.toBool]
  · intro other state cause run fails
    rcases List.mem_append.mp run with early | last
    · exact List.mem_append_left _ (failed other state cause early fails)
    · obtain ⟨rfl, rfl⟩ := Prod.mk.inj (List.mem_singleton.mp last)
      rw [refused] at fails
      cases fails
      exact List.mem_append_right _ List.mem_cons_self
  · rw [applying] at settles
    exact Told.grow settles (List.subset_append_left _ _)

theorem Keeps.conclude (keeps : history.Keeps store answers) {batch : Batch}
    {conclusion : Conclusion} (concluding : store.phase = .concluding batch conclusion) :
    { history with ended := history.ended ++ [(batch.pending, conclusion.isCommitted)] }.Keeps
      { store with phase := .adopting batch conclusion } answers := by
  obtain ⟨stream, before, failed, settles⟩ := keeps
  refine ⟨?_, ?_, failed, ?_⟩
  · simpa [PoolStore.unapplied, concluding] using stream
  · have same : { history with
        ended := history.ended ++ [(batch.pending, conclusion.isCommitted)] }.accepted =
          history.accepted := rfl
    simp only [PoolStore.uncommitted, concluding] at before
    rw [same, before]
    simp [PoolStore.uncommitted]
  · rw [concluding] at settles
    exact ⟨history.ended, rfl, settles⟩

theorem Settles.adopt {batch : Batch} {conclusion : Conclusion}
    (settles : history.Settles answers (.adopting batch conclusion)) :
    history.Settles answers (.resolving (.ofCommit conclusion.isCommitted) batch.pending) := by
  obtain ⟨earlier, ended, told⟩ := settles
  refine ⟨earlier, [], conclusion.isCommitted, ended, rfl, told, ?_⟩
  intro id member
  cases member

theorem Settles.finish {answer : Answer} (settles : history.Settles answers (.resolving answer [])) :
    history.Settles answers .taking := by
  obtain ⟨earlier, done, isCommitted, ended, own, told, given⟩ := settles
  intro batch ending member id among
  rw [ended, List.append_nil] at member
  rcases List.mem_append.mp member with early | last
  · exact told batch ending early id among
  · obtain ⟨rfl, rfl⟩ := Prod.mk.inj (List.mem_singleton.mp last)
    exact own ▸ given id among

theorem Settles.resolve {answer : Answer} {request : Nat} {rest : List Nat}
    (settles : history.Settles answers (.resolving answer (request :: rest))) :
    history.Settles (answers ++ [(request, answer)]) (.resolving answer rest) := by
  obtain ⟨earlier, done, isCommitted, ended, own, told, given⟩ := settles
  refine ⟨earlier, done ++ [request], isCommitted, ?_, own,
    told.grow (List.subset_append_left _ _), ?_⟩
  · rw [ended, List.append_assoc]
    rfl
  · intro id member
    rcases List.mem_append.mp member with early | last
    · exact List.mem_append_left _ (given id early)
    · rw [List.mem_singleton.mp last]
      exact List.mem_append_right _ List.mem_cons_self

theorem Keeps.turn (keeps : history.Keeps store around.answers)
    (turn : PoolStore.Turn (store, around) (next, after)) (alive : next.phase ≠ .died) :
    (history.work store).Keeps next after.answers := by
  have settles := keeps.settles
  cases turn with
  | step now step =>
      cases step with
      | wake idle same =>
          rw [idle] at settles
          simp only [work, idle]
          refine keeps.pass ?_ ?_ (List.Subset.refl _) settles
          · simp [PoolStore.unapplied, idle, same]
          · simp [PoolStore.uncommitted, idle]
      | rest taking passed =>
          rw [taking] at settles
          simp only [work, taking]
          rcases passed with rfl | rfl
          · refine keeps.pass ?_ ?_ (List.Subset.refl _) settles
            · simp [PoolStore.unapplied, taking]
            · simp [PoolStore.uncommitted, taking]
          · refine keeps.pass ?_ ?_ (List.Subset.refl _) settles
            · simp [PoolStore.unapplied, taking]
            · simp [PoolStore.uncommitted, taking]
      | take requests waiting taking split some =>
          rw [taking] at settles
          simp only [work, taking]
          refine keeps.pass ?_ ?_ (List.Subset.refl _) settles
          · simp [PoolStore.unapplied, taking, split]
          · simp [PoolStore.uncommitted, taking, Batch.start]
      | accept applying accepted =>
          simp only [work, applying]
          exact keeps.accept applying accepted
      | refuse applying refused =>
          simp only [work, applying]
          exact keeps.refuse applying refused
      | abandon applying quiet | send applying storable quiet =>
          rw [applying] at settles
          simp only [work, applying]
          refine keeps.pass ?_ ?_ (List.Subset.refl _) settles
          · simp [PoolStore.unapplied, applying]
          · simp [PoolStore.uncommitted, applying]
      | @conclude _ _ batch conclusion concluding =>
          rw [(around.conclude_frame conclusion).1]
          simp only [work, concluding]
          exact keeps.conclude concluding
      | adopt adopting =>
          rw [adopting] at settles
          simp only [work, adopting]
          refine keeps.pass ?_ ?_ (List.Subset.refl _) settles.adopt
          · simp [PoolStore.unapplied, adopting]
          · simp [PoolStore.uncommitted, adopting]
      | finish resolving =>
          rw [resolving] at settles
          simp only [work, resolving]
          refine keeps.pass ?_ ?_ (List.Subset.refl _) settles.finish
          · simp [PoolStore.unapplied, resolving]
          · simp [PoolStore.uncommitted, resolving]
      | resolve resolving =>
          rw [resolving] at settles
          simp only [work, resolving]
          refine keeps.pass ?_ ?_ (List.subset_append_left _ _) settles.resolve
          · simp [PoolStore.unapplied, resolving]
          · simp [PoolStore.uncommitted, resolving]
  | answered applying storable records reply =>
      rw [applying] at settles
      simp only [work, applying]
      refine keeps.pass ?_ ?_ (List.Subset.refl _) settles
      · simp [PoolStore.unapplied, applying]
      · simp [PoolStore.uncommitted, applying]
  | die applying => exact absurd rfl alive

end History

end ClaimStore
