import ClaimStore.Proofs.Desk
import ClaimStore.Proofs.Ledger

/-!
A worker that is alone with its record.

As long as it is not rolled back, it starts every batch from the snapshot that the batch before has
led to, and this is also what is stored.
-/
namespace ClaimStore

/-- From one snapshot to another through batches that follow each other. -/
def Leads : Snapshot → List Taken → Snapshot → Prop
  | start, [], finish => finish = start
  | start, taken :: rest, finish => taken.before = start ∧ Leads taken.batch.committed rest finish

namespace Leads

variable {start middle finish : Snapshot} {batches : List Taken} {taken : Taken}

theorem concat (leads : Leads start batches taken.before) :
    Leads start (batches ++ [taken]) taken.batch.committed := by
  induction batches generalizing start with
  | nil => exact ⟨leads, rfl⟩
  | cons first rest ih => exact ⟨leads.1, ih leads.2⟩

theorem finish_eq (leads : Leads start batches finish) :
    finish = ⟨Version.next^[batches.length] start.version, start.key,
      start.state.serve (batches.flatMap Taken.requests)⟩ := by
  induction batches generalizing start with
  | nil => exact leads
  | cons first rest ih =>
      obtain ⟨rfl, leads⟩ := leads
      rw [ih leads, List.flatMap_cons, PoolState.serve_append, List.length_cons,
        Function.iterate_succ_apply]
      rfl

theorem key (leads : Leads start batches finish) : finish.key = start.key := by
  rw [leads.finish_eq]

theorem verdicts_eq (leads : Leads start batches finish) :
    start.state.verdicts (batches.flatMap Taken.requests) =
      batches.flatMap fun taken => taken.before.state.verdicts taken.requests := by
  induction batches generalizing start with
  | nil => rfl
  | cons first rest ih =>
      obtain ⟨rfl, leads⟩ := leads
      rw [List.flatMap_cons, List.flatMap_cons, PoolState.verdicts_append, ← ih leads]
      rfl

end Leads

/-- What happens to a worker that is alone with its record. Its updates end or are given up. -/
inductive SoloAct
  | desk (act : DeskAct)
  | finishUpdate
  | abandonUpdate

namespace SoloAct

def mutation? : SoloAct → Option Mutation
  | .desk (.push mutation) => some mutation
  | _ => none

end SoloAct

namespace Desk

def solo (batchSize : Nat) (desk : Desk) : SoloAct → Desk
  | .desk act => desk.act batchSize act
  | .finishUpdate => desk.update (PoolStore.finishUpdate? (desk.store, desk.around))
  | .abandonUpdate => desk.update (PoolStore.abandonUpdate? (desk.store, desk.around))

def runSolo (batchSize : Nat) (acts : List SoloAct) (desk : Desk) : Desk :=
  acts.foldl (solo batchSize) desk

/-- The number of commits that were rolled back, because of a conflict, a failure of the store or a
timeout. -/
def rollbacks (desk : Desk) : Nat := desk.around.meters.conflicts + desk.around.meters.storeFailures

def Stores (desk : Desk) (key : PoolKey) (snapshot : Snapshot) : Prop :=
  ∃ record, desk.around.client.backend.records.find? key.text = some record ∧
    Snapshot.ofRecord key record = .ok snapshot

def AtRest (desk : Desk) : Prop :=
  desk.store.phase.isWorking = false ∧ desk.store.queue.waiting = []

/-- How far a worker has come that was never rolled back. A rollback shows in the meters only after
it has been concluded. -/
def Progress (start : Snapshot) (desk : Desk) : Prop :=
  match desk.store.phase with
  | .idle | .taking | .stopped | .resolving _ _ =>
      Leads start desk.log.batches desk.store.snapshot ∧
        desk.Stores start.key desk.store.snapshot
  | .applying _ _ | .awaiting _ _ _ =>
      ∃ earlier taken, desk.log.batches = earlier ++ [taken] ∧ Leads start earlier taken.before ∧
        desk.Stores start.key taken.before
  | .concluding _ conclusion =>
      ∃ earlier taken, desk.log.batches = earlier ++ [taken] ∧ Leads start earlier taken.before ∧
        (conclusion.isCommitted = true →
          conclusion.snapshot = taken.batch.committed ∧
            desk.Stores start.key taken.batch.committed)
  | .adopting _ conclusion =>
      ∃ earlier taken, desk.log.batches = earlier ++ [taken] ∧ Leads start earlier taken.before ∧
        conclusion.isCommitted = true ∧ conclusion.snapshot = taken.batch.committed ∧
          desk.Stores start.key taken.batch.committed
  | .died => False

/-- Every batch whose outcome can be told has been committed. -/
structure Smooth (start : Snapshot) (verdict : Nat → Bool) (desk : Desk) : Prop where
  progress : desk.Progress start
  committed : ∀ index < desk.log.batches.length,
    index + 1 < desk.log.batches.length ∨ desk.store.phase.isPending = false →
    verdict index = true

variable {desk : Desk} {start : Snapshot} {next : PoolStore} {after : Surroundings}
variable {now : Timestamp} {batchSize : Nat} {verdict : Nat → Bool}

theorem Stores.quiet {key : PoolKey} {snapshot : Snapshot} {client : Client}
    (stores : desk.Stores key snapshot) (quiet : Client.Quiet desk.around.client client) :
    ∃ record, client.backend.records.find? key.text = some record ∧
      Snapshot.ofRecord key record = .ok snapshot := by
  rw [quiet.records]
  exact stores

theorem rollbacks_conclude (around : Surroundings) (conclusion : Conclusion) :
    (around.conclude conclusion).meters.conflicts +
        (around.conclude conclusion).meters.storeFailures =
      around.meters.conflicts + around.meters.storeFailures +
        (if conclusion.isCommitted then 0 else 1) := by
  cases conclusion with
  | committed snapshot => rfl
  | conflict snapshot =>
      simp only [Surroundings.conclude, Surroundings.countCommit, Conclusion.outcome,
        Conclusion.isCommitted, StoreMeters.timeCommit, StoreMeters.addCommit,
        Surroundings.invalidate]
      simp
      omega
  | storeFailure snapshot =>
      simp only [Surroundings.conclude, Surroundings.countCommit, Conclusion.outcome,
        Conclusion.isCommitted, StoreMeters.timeCommit, StoreMeters.addCommit,
        Surroundings.invalidate]
      simp
      omega

theorem Progress.step (progress : desk.Progress start)
    (step : PoolStore.Step now (desk.store, desk.around) (next, after)) :
    desk.rollbacks < (desk.update (some (next, after))).rollbacks ∨
      (desk.update (some (next, after))).rollbacks = desk.rollbacks ∧
        (desk.update (some (next, after))).Progress start := by
  have kept : desk.store.phase ≠ .taking → desk.log.note desk.store next = desk.log :=
    fun other => desk.log.note_of_ne next other
  cases step with
  | wake before | accept before | refuse before | finish before | resolve before =>
      simp only [Progress, before] at progress
      have log := kept (by rw [before]; simp)
      refine .inr ⟨rfl, ?_⟩
      simp only [Progress, update, log]
      exact progress
  | rest taking passed =>
      simp only [Progress, taking] at progress
      have log : ∀ phase, phase = .idle ∨ phase = .stopped →
          desk.log.note desk.store { desk.store with phase } = desk.log := by
        intro phase passed
        rcases passed with rfl | rfl <;> simp [Log.note, taking]
      refine .inr ⟨rfl, ?_⟩
      simp only [Progress, update, log _ passed]
      rcases passed with rfl | rfl <;> exact progress
  | take requests waiting taking split some =>
      simp only [Progress, taking] at progress
      refine .inr ⟨rfl, ?_⟩
      simp only [Progress, update, Log.note, taking]
      exact ⟨_, _, rfl, progress.1, progress.2⟩
  | abandon applying quiet =>
      simp only [Progress, applying] at progress
      have log := kept (by rw [applying]; simp)
      obtain ⟨earlier, taken, batches, leads, -⟩ := progress
      refine .inr ⟨rfl, ?_⟩
      simp only [Progress, update, log]
      exact ⟨earlier, taken, batches, leads, by rintro ⟨⟩⟩
  | send applying storable quiet =>
      simp only [Progress, applying] at progress
      have log := kept (by rw [applying]; simp)
      obtain ⟨earlier, taken, batches, leads, stores⟩ := progress
      refine .inr ⟨rfl, ?_⟩
      simp only [Progress, update, log]
      exact ⟨earlier, taken, batches, leads, stores.quiet quiet⟩
  | @conclude _ _ batch conclusion concluding =>
      simp only [Progress, concluding] at progress
      have log := kept (by rw [concluding]; simp)
      have counted := rollbacks_conclude desk.around conclusion
      obtain ⟨earlier, taken, batches, leads, committed⟩ := progress
      cases settled : conclusion.isCommitted with
      | false =>
          left
          simp only [rollbacks, update]
          rw [counted, settled]
          simp
      | true =>
          obtain ⟨snapshot, stores⟩ := committed settled
          rw [settled] at counted
          refine .inr ⟨counted, ?_⟩
          have quiet : (desk.around.conclude conclusion).client = desk.around.client := by
            simp [Surroundings.conclude, settled, Surroundings.countCommit]
          simp only [Progress, update, log, Stores, quiet]
          exact ⟨earlier, taken, batches, leads, settled, snapshot, stores⟩
  | adopt adopting =>
      simp only [Progress, adopting] at progress
      have log := kept (by rw [adopting]; simp)
      obtain ⟨earlier, taken, batches, leads, settled, snapshot, stores⟩ := progress
      refine .inr ⟨rfl, ?_⟩
      simp only [Progress, update, log]
      rw [snapshot, batches]
      exact ⟨leads.concat, stores⟩

theorem rollbacks_step (step : PoolStore.Step now (desk.store, desk.around) (next, after)) :
    desk.rollbacks ≤ (desk.update (some (next, after))).rollbacks := by
  cases step with
  | conclude concluding =>
      simp only [rollbacks, update, rollbacks_conclude]
      exact Nat.le_add_right _ _
  | wake | rest | take | accept | refuse | abandon | send | adopt | finish | resolve =>
      exact Nat.le_refl _

theorem Smooth.step (smooth : desk.Smooth start verdict) (sound : desk.Sound verdict)
    (step : PoolStore.Step now (desk.store, desk.around) (next, after)) :
    desk.rollbacks < (desk.update (some (next, after))).rollbacks ∨
      (desk.update (some (next, after))).Smooth start verdict := by
  refine (smooth.progress.step step).imp_right ?_
  rintro ⟨-, progress⟩
  refine ⟨progress, ?_⟩
  intro index within told
  rcases desk.log.note_step step with ⟨batches, -, pending⟩ | ⟨taken, batches, settled, waits⟩
  · simp only [update, batches] at within told
    rcases told with earlier | closed
    · exact smooth.committed index within (.inl earlier)
    · rcases pending closed with settled | ⟨batch, conclusion, adopting⟩
      · exact smooth.committed index within (.inr settled)
      · by_cases last : index + 1 < desk.log.batches.length
        · exact smooth.committed index within (.inl last)
        · have progress := smooth.progress
          simp only [Progress, adopting] at progress
          obtain ⟨-, -, -, -, settled, -⟩ := progress
          obtain ⟨-, earlier, taken, batches, holds⟩ := sound.fits.working adopting rfl
          obtain ⟨-, same, -⟩ := holds
          rw [batches, List.length_append, List.length_singleton] at within last
          have place : index = earlier.length := by omega
          rw [place, ← same]
          exact settled
  · simp only [update, batches, List.length_append, List.length_singleton] at within told
    rcases told with earlier | closed
    · exact smooth.committed index (by omega) (.inr settled)
    · rw [waits] at closed
      contradiction

/-- An update of a worker that is alone with its record is not refused, and if it succeeds, what it
has stored is what the batch has led to. -/
theorem Progress.finish (progress : desk.Progress start) (sound : desk.Sound verdict)
    {batch : Batch} {change : Record} {delay : Nat}
    {result : Except StoreError (List Record)} {client : Client}
    (awaiting : desk.store.phase = .awaiting batch change delay)
    (ends : UpdateEnd change desk.around.client.backend.records result client.backend.records) :
    Progress start
      { desk with
        store := { desk.store with phase := .concluding batch (batch.conclude result) }
        around := { desk.around with client } } := by
  simp only [Progress, awaiting] at progress
  obtain ⟨earlier, taken, batches, leads, record, found, read⟩ := progress
  obtain ⟨-, front, other, others, holds⟩ := sound.fits.working awaiting rfl
  obtain ⟨rfl, ⟨now, rfl⟩, storable, -⟩ := holds
  obtain ⟨-, same⟩ := List.append_inj' (batches.symm.trans others) rfl
  cases same
  have key : taken.before.key = start.key := leads.key
  refine ⟨earlier, taken, batches, leads, ?_⟩
  generalize before : desk.around.client.backend.records = records at ends found
  generalize done : client.backend.records = records' at ends
  cases ends with
  | failed error => rintro ⟨⟩
  | refused stored holds other =>
      refine absurd ?_ other
      have here : records.find? taken.before.key.text = some stored := holds
      rw [key, found] at here
      cases here
      exact (Snapshot.ofRecord_fields read).2.symm
  | written stored holds version =>
      intro _
      refine ⟨rfl, { taken.batch.change now with version := taken.before.version.next }, ?_, ?_⟩
      · rw [done, Records.find?_write, ← key]
        exact if_pos rfl
      · rw [Snapshot.ofRecord_encode storable start.key rfl, ← key]
        rfl

theorem update_concluding {batch : Batch} {change : Record} {delay : Nat}
    {conclusion : Conclusion} {client : Client}
    (awaiting : desk.store.phase = .awaiting batch change delay) :
    desk.update (some ({ desk.store with phase := .concluding batch conclusion },
      { desk.around with client })) =
      { desk with
        store := { desk.store with phase := .concluding batch conclusion }
        around := { desk.around with client } } := by
  simp only [update, desk.log.note_of_ne _ (show desk.store.phase ≠ .taking by simp [awaiting])]

theorem Smooth.conclude (smooth : desk.Smooth start verdict) {batch : Batch}
    {conclusion : Conclusion} {client : Client}
    (progress : Progress start
      { desk with
        store := { desk.store with phase := .concluding batch conclusion }
        around := { desk.around with client } }) :
    Smooth start (desk.conclude verdict conclusion.isCommitted)
      { desk with
        store := { desk.store with phase := .concluding batch conclusion }
        around := { desk.around with client } } := by
  refine ⟨progress, ?_⟩
  intro index within told
  rcases told with earlier | closed
  · have apart : index + 1 ≠ desk.log.batches.length := Nat.ne_of_lt earlier
    rw [Desk.conclude, if_neg apart]
    exact smooth.committed index within (.inl earlier)
  · contradiction

/-- What happens to the worker keeps the log, and a worker that has never been rolled back stays so
or shows it in the meters. -/
theorem Sound.solo (sound : desk.Sound verdict) (start : Snapshot) (soloAct : SoloAct) :
    ∃ verdict', (desk.solo batchSize soloAct).Sound verdict' ∧
      desk.rollbacks ≤ (desk.solo batchSize soloAct).rollbacks ∧
      (desk.Smooth start verdict →
        desk.rollbacks < (desk.solo batchSize soloAct).rollbacks ∨
          (desk.solo batchSize soloAct).Smooth start verdict') := by
  cases soloAct with
  | desk deskAct =>
      refine ⟨verdict, sound.act deskAct, ?_⟩
      cases deskAct with
      | work =>
          simp only [Desk.solo, Desk.act]
          cases worked : PoolStore.step? batchSize desk.isShutDown (desk.store, desk.around) with
          | none => exact ⟨Nat.le_refl _, .inr⟩
          | some next =>
              obtain ⟨store, after⟩ := next
              obtain ⟨now, step⟩ := step_of_work sound.ready worked
              exact ⟨rollbacks_step step, fun smooth => smooth.step sound step⟩
      | push mutation =>
          simp only [Desk.solo, Desk.act, push]
          split
          · exact ⟨Nat.le_refl _, fun smooth => .inr ⟨smooth.progress, smooth.committed⟩⟩
          · rename_i store pushed
            unfold PoolStore.push? RequestQueue.push? at pushed
            split at pushed
            · contradiction
            · cases pushed
              exact ⟨Nat.le_refl _, fun smooth => .inr ⟨smooth.progress, smooth.committed⟩⟩
      | notify => exact ⟨Nat.le_refl _, fun smooth => .inr ⟨smooth.progress, smooth.committed⟩⟩
      | shutDown => exact ⟨Nat.le_refl _, fun smooth => .inr ⟨smooth.progress, smooth.committed⟩⟩
      | tick now => exact ⟨Nat.le_refl _, fun smooth => .inr ⟨smooth.progress, smooth.committed⟩⟩
  | finishUpdate =>
      simp only [Desk.solo]
      cases finished : PoolStore.finishUpdate? (desk.store, desk.around) with
      | none => exact ⟨verdict, sound, Nat.le_refl _, .inr⟩
      | some next =>
          obtain ⟨store, after⟩ := next
          obtain ⟨batch, change, delay, result, client, awaiting, rfl, rfl, ends, honest⟩ :=
            PoolStore.end_of_finishUpdate? finished
          rw [update_concluding awaiting]
          refine ⟨_, sound.conclude awaiting (honest sound.ready.honest), Nat.le_refl _, ?_⟩
          intro smooth
          exact .inr (smooth.conclude (smooth.progress.finish sound awaiting ends))
  | abandonUpdate =>
      simp only [Desk.solo]
      cases abandoned : PoolStore.abandonUpdate? (desk.store, desk.around) with
      | none => exact ⟨verdict, sound, Nat.le_refl _, .inr⟩
      | some next =>
          obtain ⟨store, after⟩ := next
          obtain ⟨batch, change, delay, client, awaiting, rfl, rfl, quiet⟩ :=
            PoolStore.end_of_abandonUpdate? abandoned
          rw [update_concluding awaiting]
          refine ⟨_, sound.conclude awaiting (quiet.honest sound.ready.honest), Nat.le_refl _, ?_⟩
          intro smooth
          refine .inr (smooth.conclude ?_)
          have progress := smooth.progress
          simp only [Progress, awaiting] at progress
          obtain ⟨earlier, taken, batches, leads, -⟩ := progress
          exact ⟨earlier, taken, batches, leads, by rintro ⟨⟩⟩

theorem Sound.runSolo (sound : desk.Sound verdict) (start : Snapshot) (acts : List SoloAct) :
    ∃ verdict', (desk.runSolo batchSize acts).Sound verdict' ∧
      desk.rollbacks ≤ (desk.runSolo batchSize acts).rollbacks ∧
      (desk.Smooth start verdict →
        desk.rollbacks < (desk.runSolo batchSize acts).rollbacks ∨
          (desk.runSolo batchSize acts).Smooth start verdict') := by
  induction acts generalizing desk verdict with
  | nil => exact ⟨verdict, sound, Nat.le_refl _, .inr⟩
  | cons first rest ih =>
      obtain ⟨middle, kept, less, smooth⟩ := sound.solo start first
      obtain ⟨last, ended, more, goesOn⟩ := ih kept
      refine ⟨last, ended, Nat.le_trans less more, ?_⟩
      intro begun
      rcases smooth begun with rolledBack | smooth
      · exact .inl (Nat.lt_of_lt_of_le rolledBack more)
      · exact (goesOn smooth).imp_left (Nat.lt_of_le_of_lt less)

theorem Progress.leads (progress : desk.Progress start) :
    ∃ finish, Leads start desk.log.batches finish := by
  unfold Progress at progress
  split at progress
  · exact ⟨_, progress.1⟩
  · exact ⟨_, progress.1⟩
  · exact ⟨_, progress.1⟩
  · exact ⟨_, progress.1⟩
  · obtain ⟨earlier, taken, batches, leads, -⟩ := progress
    exact ⟨_, batches ▸ leads.concat⟩
  · obtain ⟨earlier, taken, batches, leads, -⟩ := progress
    exact ⟨_, batches ▸ leads.concat⟩
  · obtain ⟨earlier, taken, batches, leads, -⟩ := progress
    exact ⟨_, batches ▸ leads.concat⟩
  · obtain ⟨earlier, taken, batches, leads, -⟩ := progress
    exact ⟨_, batches ▸ leads.concat⟩
  · contradiction

/-- The answers given so far are those of the requests served one at a time. -/
theorem Smooth.agrees (smooth : desk.Smooth start verdict) (sound : desk.Sound verdict) {id : Nat}
    {answer : Answer} (given : (id, answer) ∈ desk.around.answers) (queued : id ∈ desk.log.ids) :
    (id, answer) ∈ start.state.verdicts desk.log.queued := by
  obtain ⟨finish, leads⟩ := smooth.progress.leads
  obtain ⟨index, taken, found, told⟩ := sound.fits.answered given queued
  rw [sound.fits.stream, PoolState.verdicts_append, leads.verdicts_eq]
  refine List.mem_append_left _ (List.mem_flatMap.mpr ⟨taken, List.mem_of_getElem? found, ?_⟩)
  refine (PoolState.verdicts_perm _ _).mem_iff.mpr (List.mem_append.mpr ?_)
  rcases told with refused | ⟨pending, rfl, passed⟩
  · exact .inl refused
  · have within := (List.getElem?_eq_some_iff.mp found).1
    rw [smooth.committed index within passed]
    obtain ⟨request, accepted, rfl⟩ := List.mem_map.mp pending
    exact .inr (List.mem_map.mpr ⟨request, accepted, rfl⟩)

end Desk

end ClaimStore
