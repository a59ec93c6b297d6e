import ClaimStore.Proofs.Solo

/-!
Batches cannot be told from requests that are served one at a time.

However the stream of requests is cut into batches, the batches of a worker that is alone with its
record lead where the stream leads.
-/
namespace ClaimStore

def Request.numbered (mutations : List Mutation) : List Request :=
  mutations.zipIdx.map fun mutation => ⟨mutation.2, mutation.1⟩

theorem answersTo_append_perm {left right : List Nat} (apart : ∀ id ∈ left, id ∉ right)
    (answers : List (Nat × Answer)) :
    (answersTo (left ++ right) answers).Perm
      (answersTo left answers ++ answersTo right answers) := by
  induction answers with
  | nil => exact List.Perm.refl _
  | cons answer rest ih =>
      unfold answersTo at ih ⊢
      by_cases first : answer.1 ∈ left
      · have other : answer.1 ∉ right := apart _ first
        simpa [first, other] using ih
      · by_cases second : answer.1 ∈ right
        · simp only [List.mem_append] at ih
          simp only [List.filter_cons, List.mem_append, first, second, or_true, decide_true,
            if_true, decide_false, Bool.false_eq_true, if_false]
          exact (List.Perm.cons _ ih).trans List.perm_middle.symm
        · simpa [first, second] using ih

/-- If every batch is answered as it would be alone, so are all of them together. -/
theorem answersTo_batches {batches : List Taken} {answers : List (Nat × Answer)}
    (ordered : (batches.flatMap Taken.ids).Pairwise (· < ·))
    (told : ∀ taken ∈ batches,
      (answersTo taken.ids answers).Perm (taken.before.state.verdicts taken.requests)) :
    (answersTo (batches.flatMap Taken.ids) answers).Perm
      (batches.flatMap fun taken => taken.before.state.verdicts taken.requests) := by
  induction batches with
  | nil =>
      rw [List.flatMap_nil, answersTo_eq_nil fun _ _ => List.not_mem_nil]
      exact List.Perm.refl _
  | cons first rest ih =>
      rw [List.flatMap_cons, List.pairwise_append] at ordered
      obtain ⟨-, others, before⟩ := ordered
      have apart : ∀ id ∈ first.ids, id ∉ rest.flatMap Taken.ids :=
        fun id own later => Nat.lt_irrefl _ (before id own id later)
      refine (answersTo_append_perm apart answers).trans (List.Perm.append ?_ ?_)
      · exact told first List.mem_cons_self
      · exact ih others fun taken member => told taken (List.mem_cons_of_mem _ member)

namespace Desk

variable {desk : Desk} {batchSize : Nat} {mutations : List Mutation}

structure Open (mutations : List Mutation) (desk : Desk) : Prop where
  running : desk.isShutDown = false
  opened : desk.store.queue.isClosed = false
  counted : desk.requests = mutations.length
  queued : desk.log.queued = Request.numbered mutations

theorem numbered_concat (mutations : List Mutation) (mutation : Mutation) :
    Request.numbered (mutations ++ [mutation]) =
      Request.numbered mutations ++ [⟨mutations.length, mutation⟩] := by
  simp [Request.numbered, List.zipIdx_append]

theorem Open.update (opened : desk.Open mutations) {result : Option (PoolStore × Surroundings)}
    (same : ∀ store after, result = some (store, after) →
      store.queue.isClosed = desk.store.queue.isClosed) :
    (desk.update result).Open mutations := by
  unfold Desk.update
  split
  · exact opened
  · refine ⟨opened.running, ?_, opened.counted, ?_⟩
    · exact (same _ _ rfl).trans opened.opened
    · rw [Log.note_queued]
      exact opened.queued

theorem Open.solo (opened : desk.Open mutations) {soloAct : SoloAct}
    (running : soloAct ≠ .desk .shutDown) :
    (desk.solo batchSize soloAct).Open (mutations ++ soloAct.mutation?.toList) := by
  cases soloAct with
  | desk deskAct =>
      cases deskAct with
      | push mutation =>
          have pushed : desk.store.push? ⟨desk.requests, mutation⟩ =
              some { desk.store with
                queue := { desk.store.queue with
                  waiting := desk.store.queue.waiting ++ [⟨desk.requests, mutation⟩] } } := by
            simp [PoolStore.push?, RequestQueue.push?, opened.opened]
          simp only [Desk.solo, act, push, pushed]
          refine ⟨opened.running, opened.opened, ?_, ?_⟩
          · rw [opened.counted]
            simp [SoloAct.mutation?]
          · simp only [Log.enqueue, SoloAct.mutation?, Option.toList_some]
            rw [numbered_concat, opened.queued, opened.counted]
      | notify =>
          simp only [SoloAct.mutation?, Option.toList_none, List.append_nil]
          exact ⟨opened.running, opened.opened, opened.counted, opened.queued⟩
      | work =>
          simp only [SoloAct.mutation?, Option.toList_none, List.append_nil]
          refine opened.update ?_
          intro store after stepped
          rcases PoolStore.step?_isClosed stepped with same | ⟨shutDown, -⟩
          · exact same
          · rw [opened.running] at shutDown
            contradiction
      | shutDown => contradiction
      | tick now =>
          simp only [SoloAct.mutation?, Option.toList_none, List.append_nil]
          exact ⟨opened.running, opened.opened, opened.counted, opened.queued⟩
  | finishUpdate =>
      simp only [SoloAct.mutation?, Option.toList_none, List.append_nil]
      refine opened.update ?_
      intro store after finished
      obtain ⟨-, -, -, -, -, -, rfl, -⟩ := PoolStore.end_of_finishUpdate? finished
      rfl
  | abandonUpdate =>
      simp only [SoloAct.mutation?, Option.toList_none, List.append_nil]
      refine opened.update ?_
      intro store after abandoned
      obtain ⟨-, -, -, -, -, rfl, -⟩ := PoolStore.end_of_abandonUpdate? abandoned
      rfl

theorem Open.runSolo (opened : desk.Open mutations) {acts : List SoloAct}
    (running : ∀ soloAct ∈ acts, soloAct ≠ .desk .shutDown) :
    (desk.runSolo batchSize acts).Open (mutations ++ acts.filterMap SoloAct.mutation?) := by
  induction acts generalizing desk mutations with
  | nil =>
      rw [List.filterMap_nil, List.append_nil]
      exact opened
  | cons first rest ih =>
      have begun : (desk.solo batchSize first).Open (mutations ++ first.mutation?.toList) :=
        opened.solo (running first List.mem_cons_self)
      have next := ih begun fun soloAct member => running soloAct (List.mem_cons_of_mem _ member)
      have pushed : (first :: rest).filterMap SoloAct.mutation? =
          first.mutation?.toList ++ rest.filterMap SoloAct.mutation? := by
        cases mutation : first.mutation? <;> simp [mutation]
      rw [pushed, ← List.append_assoc]
      exact next

theorem Progress.lasts {start : Snapshot} (progress : desk.Progress start)
    (idle : desk.store.phase.isWorking = false) :
    Leads start desk.log.batches desk.store.snapshot ∧
      desk.Stores start.key desk.store.snapshot := by
  cases phase : desk.store.phase with
  | idle | taking | stopped =>
      simp only [Progress, phase] at progress
      exact progress
  | died => simp only [Progress, phase] at progress
  | applying | awaiting | concluding | adopting | resolving =>
      rw [phase] at idle
      contradiction

/-- A worker that is never rolled back cannot be told from one that serves its requests one at a
time: answers that were given are the same at any time, and once all requests are served, so are all
answers, the snapshot and the stored state. Only the version tells the number of batches. -/
theorem batching_unobservable (batchSize : Nat) (start : Snapshot) (around : Surroundings)
    (acts : List SoloAct) (clock : around.clock.isSome = true) (honest : around.client.Honest)
    (unanswered : around.answers = []) (stored : (Desk.start start around).Stores start.key start)
    (smooth : (runSolo batchSize acts (.start start around)).rollbacks =
      (Desk.start start around).rollbacks) :
    let desk := runSolo batchSize acts (.start start around)
    ((∀ soloAct ∈ acts, soloAct ≠ .desk .shutDown) →
      desk.log.queued = Request.numbered (acts.filterMap SoloAct.mutation?)) ∧
    (∀ id answer, (id, answer) ∈ desk.around.answers → id ∈ desk.log.ids →
      (id, answer) ∈ start.state.verdicts desk.log.queued) ∧
    (desk.AtRest →
      (answersTo desk.log.ids desk.around.answers).Perm (start.state.verdicts desk.log.queued) ∧
      desk.store.snapshot = ⟨Version.next^[desk.log.batches.length] start.version, start.key,
        start.state.serve desk.log.queued⟩ ∧
      desk.Stores start.key desk.store.snapshot ∧
      ∀ taken ∈ desk.log.batches, taken.requests ≠ []) := by
  intro desk
  have begun : (Desk.start start around).Smooth start fun _ => false := by
    refine ⟨⟨rfl, stored⟩, ?_⟩
    intro index within
    contradiction
  obtain ⟨verdict, sound, -, ends⟩ :=
    (sound_start clock honest unanswered).runSolo start acts
  have smooth : desk.Smooth start verdict := by
    rcases ends begun with rolledBack | smooth
    · exact absurd smooth (Nat.ne_of_gt rolledBack)
    · exact smooth
  refine ⟨?_, ?_, ?_⟩
  · intro running
    have opened : (Desk.start start around).Open [] := ⟨rfl, rfl, rfl, rfl⟩
    exact (opened.runSolo running).queued
  · intro id answer given queued
    exact smooth.agrees sound given queued
  · rintro ⟨idle, empty⟩
    have settled : desk.store.phase.isPending = false := by
      revert idle
      cases desk.store.phase <;> simp [Phase.isWorking, Phase.isPending]
    have stream := sound.fits.stream
    rw [empty, List.append_nil] at stream
    obtain ⟨leads, stores⟩ := smooth.progress.lasts idle
    have ids : desk.log.ids = desk.log.batches.flatMap Taken.ids := by
      rw [Log.ids, stream, List.map_flatMap]
      rfl
    have ordered := sound.fits.ordered
    rw [ids] at ordered
    refine ⟨?_, ?_, stores, sound.fits.filled⟩
    · rw [ids, stream, leads.verdicts_eq]
      refine answersTo_batches ordered ?_
      intro taken member
      obtain ⟨index, found⟩ := List.mem_iff_getElem?.mp member
      have within := (List.getElem?_eq_some_iff.mp found).1
      have told := sound.fits.told index taken found (.inr idle)
      rw [smooth.committed index within (.inr settled)] at told
      rw [told, Taken.batch, Taken.after, List.map_map]
      exact (PoolState.verdicts_perm _ _).symm
    · rw [leads.finish_eq, ← stream]

theorem sampleStart_stored : (Desk.start sampleStart sampleAround).Stores samplePool sampleStart :=
  ⟨sampleStart.record .epoch, by decide +kernel, Snapshot.ofRecord_encode (by decide +kernel) _ rfl⟩

/-- Three requests, of which the second fails, in batches of two. -/
def sampleActs : List SoloAct :=
  [SoloAct.desk (.push (.ofTransition (.deposit 5))),
    .desk (.push (.ofTransition (.release ⟨"claim"⟩))), .desk .notify, .desk .work, .desk .work,
    .desk (.push (.ofTransition (.deposit 7)))] ++
  List.replicate 3 (SoloAct.desk .work) ++ [SoloAct.finishUpdate] ++
  List.replicate 8 (SoloAct.desk .work) ++ [SoloAct.finishUpdate] ++
  List.replicate 6 (SoloAct.desk .work)

theorem batching_unobservable_three :
    (runSolo 2 sampleActs (.start sampleStart sampleAround)).AtRest ∧
      (runSolo 2 sampleActs (.start sampleStart sampleAround)).log.batches.length = 2 ∧
      (answersTo (runSolo 2 sampleActs (.start sampleStart sampleAround)).log.ids
        (runSolo 2 sampleActs (.start sampleStart sampleAround)).around.answers).Perm
        (sampleStart.state.verdicts
          (runSolo 2 sampleActs (.start sampleStart sampleAround)).log.queued) := by
  have facts : (runSolo 2 sampleActs (.start sampleStart sampleAround)).store.phase.isWorking =
      false ∧
      (runSolo 2 sampleActs (.start sampleStart sampleAround)).store.queue.waiting.isEmpty = true ∧
      (runSolo 2 sampleActs (.start sampleStart sampleAround)).log.batches.length = 2 ∧
      (runSolo 2 sampleActs (.start sampleStart sampleAround)).rollbacks =
        (Desk.start sampleStart sampleAround).rollbacks := by
    decide +kernel
  obtain ⟨idle, empty, two, smooth⟩ := facts
  have served := batching_unobservable 2 sampleStart sampleAround sampleActs rfl rfl rfl
    sampleStart_stored smooth
  have rest : (runSolo 2 sampleActs (.start sampleStart sampleAround)).AtRest :=
    ⟨idle, List.isEmpty_iff.mp empty⟩
  exact ⟨rest, two, (served.2.2 rest).1⟩

end Desk

end ClaimStore
