import ClaimStore.Proofs.Solo
import ClaimStore.Proofs.Worker.Turns

/-!
What a worker does when no update fails.

It never concludes a batch by itself: only the end of an update tells what has become of it. Until
then the worker keeps to the snapshot that the batches concluded so far have led to.
-/
namespace ClaimStore

namespace Client

/-- No update fails, and one that is answered without a mismatch of its own record is carried
out. -/
structure Calm (client : Client) : Prop where
  honest : client.Honest
  accepted : client.backend.faults.internalUpdates = 0
  carriedOut : client.backend.faults.failedUpdates = 0

variable {client : Client} {change stored : Record}

theorem Calm.startUpdate (calm : client.Calm) (changes : List Record) :
    ∃ delay after, client.startUpdate changes = (.started delay, after) ∧ after.Calm := by
  have honest : client.backend.faults.foreignMismatches = 0 := calm.honest
  unfold Client.startUpdate Backend.startUpdate
  simp only [calm.accepted, honest, Nat.lt_irrefl, if_false]
  exact ⟨_, _, rfl, calm.honest, calm.accepted, calm.carriedOut⟩

theorem Calm.finishUpdate (calm : client.Calm)
    (found : client.backend.records.find? change.key = some stored) :
    ∃ mismatches after, client.finishUpdate [change] = (.ok mismatches, after) ∧
      UpdateEnd change client.backend.records (.ok mismatches) after.backend.records ∧
      after.Calm := by
  unfold Client.finishUpdate Client.record Backend.finishUpdate
  simp only [calm.carriedOut, Nat.lt_irrefl, if_false]
  rcases client.backend.records.update_single change with ⟨-, absent⟩ | ⟨_, _, updated, ends⟩
  · rw [found] at absent
    contradiction
  · simp only [updated]
    exact ⟨_, _, rfl, ends, calm.honest, calm.accepted, calm.carriedOut⟩

end Client

/-- The record of a pool is stored at a valid version and can be read. -/
def Records.Tell (records : Records) (key : PoolKey) (snapshot : Snapshot) : Prop :=
  ∃ record, records.find? key.text = some record ∧ record.key = key.text ∧
    record.version.isValid = true ∧ Snapshot.ofRecord key record = .ok snapshot

theorem Records.Tell.key {records : Records} {key : PoolKey} {snapshot : Snapshot}
    (tells : records.Tell key snapshot) : snapshot.key = key := by
  obtain ⟨_, -, -, -, read⟩ := tells
  exact (Snapshot.ofRecord_fields read).1

/-- An update that does not fail compares the version before the batch with the stored one. If they
are the same the batch is committed, and otherwise what is stored becomes known. -/
theorem Client.Calm.conclude {client : Client} {key : PoolKey} {base : Snapshot} {taken : Taken}
    (calm : client.Calm) (tells : client.backend.records.Tell key base)
    (own : taken.before.key = key)
    (storable : Storage.poolFormat.isStorable taken.batch.candidate = true) (now : Timestamp) :
    ∃ mismatches after,
      client.finishUpdate [taken.batch.change now] = (.ok mismatches, after) ∧ after.Calm ∧
      (taken.before.version ≠ base.version ∧
          taken.batch.conclude (.ok mismatches) = .conflict base ∧
          after.backend.records.Tell key base ∨
        taken.before.version = base.version ∧
          taken.batch.conclude (.ok mismatches) = .committed taken.batch.committed ∧
          after.backend.records.Tell key taken.batch.committed) := by
  obtain ⟨record, found, keyed, valid, read⟩ := tells
  have version : base.version = record.version := (Snapshot.ofRecord_fields read).2
  have place : (taken.batch.change now).key = key.text := congrArg PoolKey.text own
  have here : client.backend.records.find? (taken.batch.change now).key = some record := by
    rw [place]
    exact found
  obtain ⟨mismatches, after, ended, ends, calm⟩ := calm.finishUpdate here
  refine ⟨mismatches, after, ended, calm, ?_⟩
  generalize before : client.backend.records = records at ends here found
  generalize done : after.backend.records = records' at ends
  cases ends with
  | refused stored holds other =>
      rw [here] at holds
      cases holds
      have reads : Snapshot.ofRecord taken.batch.before.key record = .ok base := own ▸ read
      refine .inl ⟨?_, ?_, record, found, keyed, valid, read⟩
      · intro same
        exact other (version.symm.trans same.symm)
      · exact Batch.conclude_read (keyed.trans place.symm) reads
  | written stored holds same =>
      rw [here] at holds
      cases holds
      refine .inr ⟨same.symm.trans version.symm, rfl,
        { taken.batch.change now with version := taken.before.version.next }, ?_, place,
        Version.next_isValid _, ?_⟩
      · rw [Records.find?_write]
        exact if_pos place.symm
      · rw [Snapshot.ofRecord_encode storable key rfl, ← own]
        rfl

namespace PoolStore

variable {batchSize : Nat} {isShutDown : Bool} {now : Timestamp} {store next : PoolStore}
variable {around after : Surroundings}

/-- The snapshot that the last concluded batch has led to. It may not have been adopted yet. -/
def standing (store : PoolStore) : Snapshot :=
  match store.phase with
  | .concluding _ conclusion | .adopting _ conclusion => conclusion.snapshot
  | .idle | .taking | .applying _ _ | .awaiting _ _ _ | .resolving _ _ | .stopped | .died =>
      store.snapshot

theorem calm_of_step? (calm : around.client.Calm) (clock : around.clock = some now)
    (storable : ∀ batch, store.phase = .applying batch [] →
      Storage.poolFormat.isStorable batch.candidate = true)
    (stepped : step? batchSize isShutDown (store, around) = some (next, after)) :
    Step now (store, around) (next, after) ∧ after.client.Calm ∧
      (store.phase.isOpen = true → next.phase.isOpen = true) := by
  have step := step_of_step? clock calm.honest stepped
  by_cases committing : ∃ batch, store.phase = .applying batch []
  · obtain ⟨batch, applying⟩ := committing
    obtain ⟨delay, client, started, calm⟩ := calm.startUpdate [batch.change now]
    simp only [step?, applying, commit, storable batch applying, clock, send, started,
      Bool.not_true, Bool.false_eq_true, if_false, Option.some.injEq, Prod.mk.injEq] at stepped
    obtain ⟨rfl, rfl⟩ := stepped
    exact ⟨step, calm, fun _ => rfl⟩
  · have same : after.client = around.client := by
      by_contra asked
      exact committing (applying_of_client stepped asked)
    refine ⟨step, same ▸ calm, ?_⟩
    intro opened
    cases step with
    | take | accept | refuse | send => rfl
    | abandon applying => exact absurd ⟨_, applying⟩ committing
    | wake before | rest before | conclude before | adopt before | finish before
    | resolve before =>
        rw [before] at opened
        contradiction

/-- A worker with a batch in hand goes on by itself, unless it waits for the end of an update. -/
theorem step?_of_working (working : store.phase.isWorking = true)
    (moves : ∀ batch change delay, store.phase ≠ .awaiting batch change delay) :
    (step? batchSize isShutDown (store, around)).isSome = true := by
  cases phase : store.phase with
  | awaiting batch change delay => exact absurd phase (moves batch change delay)
  | applying batch rest =>
      cases rest with
      | nil => simp [step?, phase]
      | cons request rest =>
          cases added : batch.add request <;> simp [step?, phase, added]
  | concluding batch conclusion | adopting batch conclusion => simp [step?, phase]
  | resolving answer pending => cases pending <;> simp [step?, phase]
  | idle | taking | stopped | died =>
      rw [phase] at working
      contradiction

theorem standing_step (step : Step now (store, around) (next, after))
    (opens : store.phase.isOpen = true → next.phase.isOpen = true) :
    next.standing = store.standing := by
  cases step with
  | abandon applying =>
      rw [applying] at opens
      cases opens rfl
  | rest taking passed => rcases passed with rfl | rfl <;> simp [standing, taking]
  | wake before | take _ _ before | accept before | refuse before | send before
  | conclude before | adopt before | finish before | resolve before =>
      simp [standing, before]

end PoolStore

namespace Desk

variable {desk : Desk} {next : PoolStore} {after : Surroundings} {now : Timestamp}
variable {batchSize : Nat} {verdict : Nat → Bool}

/-- The batches whose commit has been concluded. -/
def decided (desk : Desk) : List Taken :=
  if desk.store.phase.isOpen then desk.log.batches.dropLast else desk.log.batches

/-- The batch in hand starts from the snapshot that those before it have led to. -/
def Starts (desk : Desk) : Prop :=
  ∀ earlier taken, desk.store.phase.isOpen = true → desk.log.batches = earlier ++ [taken] →
    taken.before = desk.store.standing

theorem starts_of_closed (closed : desk.store.phase.isOpen = false) : desk.Starts := by
  intro earlier taken opened
  rw [closed] at opened
  contradiction

theorem decided_of_open {earlier : List Taken} {taken : Taken}
    (opened : desk.store.phase.isOpen = true) (batches : desk.log.batches = earlier ++ [taken]) :
    desk.decided = earlier := by
  rw [decided, if_pos opened, batches, List.dropLast_concat]

theorem decided_of_closed (closed : desk.store.phase.isOpen = false) :
    desk.decided = desk.log.batches := by
  rw [decided, closed]
  rfl

theorem decided_step (step : PoolStore.Step now (desk.store, desk.around) (next, after))
    (opens : desk.store.phase.isOpen = true → next.phase.isOpen = true) :
    (desk.update (some (next, after))).decided = desk.decided := by
  have kept : desk.store.phase ≠ .taking → desk.log.note desk.store next = desk.log :=
    fun other => desk.log.note_of_ne next other
  cases step with
  | abandon applying =>
      rw [applying] at opens
      cases opens rfl
  | rest taking passed =>
      rcases passed with rfl | rfl <;> simp [decided, update, Log.note, taking, Phase.isOpen]
  | take requests waiting taking split some =>
      simp [decided, update, Log.note, taking, Phase.isOpen]
  | wake before | accept before | refuse before | send before | conclude before | adopt before
  | finish before | resolve before =>
      simp [decided, update, kept (by rw [before]; simp), before, Phase.isOpen]

theorem Starts.step (starts : desk.Starts)
    (step : PoolStore.Step now (desk.store, desk.around) (next, after))
    (opens : desk.store.phase.isOpen = true → next.phase.isOpen = true) :
    (desk.update (some (next, after))).Starts := by
  intro earlier last opened batches
  have same : (desk.update (some (next, after))).store.standing = desk.store.standing :=
    PoolStore.standing_step step opens
  rw [same]
  simp only [update] at opened batches
  cases step with
  | take requests waiting taking split some =>
      simp only [Log.note, taking] at batches
      obtain ⟨-, own⟩ := List.append_inj' batches rfl
      cases own
      simp [PoolStore.standing, taking]
  | accept before | refuse before | send before =>
      rw [desk.log.note_of_ne _ (by rw [before]; simp)] at batches
      exact starts earlier last (by rw [before]; rfl) batches
  | rest taking passed => rcases passed with rfl | rfl <;> cases opened
  | wake | abandon | conclude | adopt | finish | resolve => cases opened

theorem front_solo (desk : Desk) (batchSize : Nat) (soloAct : SoloAct) :
    desk.log.batches <+: (desk.solo batchSize soloAct).log.batches := by
  have updated : ∀ result, desk.log.batches <+: (desk.update result).log.batches := by
    intro result
    cases result with
    | none => exact List.prefix_rfl
    | some result => exact desk.log.front_note _ _
  cases soloAct with
  | desk deskAct =>
      by_cases works : deskAct = .work
      · rw [works]
        exact updated _
      · obtain ⟨-, -, batches, -⟩ := desk.act_frame batchSize works
        exact batches ▸ List.prefix_rfl
  | finishUpdate | abandonUpdate => exact updated _

theorem front_runSolo (desk : Desk) (batchSize : Nat) (acts : List SoloAct) :
    desk.log.batches <+: (desk.runSolo batchSize acts).log.batches := by
  induction acts generalizing desk with
  | nil => exact List.prefix_rfl
  | cons first rest ih => exact (desk.front_solo batchSize first).trans (ih _)

/-- Some steps of the worker, and the end of its update, bring it to the end of the batch in
hand. -/
def Ends (batchSize : Nat) (desk : Desk) : Prop :=
  ∃ more : List SoloAct, (∀ soloAct ∈ more, soloAct = .desk .work ∨ soloAct = .finishUpdate) ∧
    (desk.runSolo batchSize more).log.batches = desk.log.batches ∧
    (desk.runSolo batchSize more).store.phase.isWorking = false

theorem Ends.cons {first : SoloAct} (own : first = .desk .work ∨ first = .finishUpdate)
    (batches : (desk.solo batchSize first).log.batches = desk.log.batches)
    (ends : (desk.solo batchSize first).Ends batchSize) : desk.Ends batchSize := by
  obtain ⟨more, steps, kept, rests⟩ := ends
  exact ⟨first :: more, List.forall_mem_cons.mpr ⟨own, steps⟩, kept.trans batches, rests⟩

theorem Sound.ends (sound : desk.Sound verdict) : desk.Ends batchSize := by
  induction ahead : desk.store.workAhead using Nat.strong_induction_on
    generalizing desk verdict with
  | _ ahead ih =>
    subst ahead
    cases working : desk.store.phase.isWorking with
    | false => exact ⟨[], by simp, rfl, working⟩
    | true =>
        obtain ⟨kept, -⟩ := sound.fits.working rfl working
        cases finished : PoolStore.finishUpdate? (desk.store, desk.around) with
        | some result =>
            obtain ⟨store, around⟩ := result
            obtain ⟨batch, change, delay, reply, client, awaiting, rfl, rfl, -, honest⟩ :=
              PoolStore.end_of_finishUpdate? finished
            have concluded : (desk.solo batchSize .finishUpdate).Sound
                (desk.conclude verdict (batch.conclude reply).isCommitted) := by
              simp only [Desk.solo, finished, update_concluding awaiting]
              exact sound.conclude awaiting (honest sound.ready.honest)
            have less : (desk.solo batchSize .finishUpdate).store.workAhead <
                desk.store.workAhead := by
              simp only [Desk.solo, finished, update, PoolStore.workAhead, awaiting]
              omega
            refine Ends.cons (.inr rfl) ?_ (ih _ less concluded rfl)
            simp only [Desk.solo, finished, update, kept]
        | none =>
            have moves : ∀ batch change delay,
                desk.store.phase ≠ .awaiting batch change delay := by
              intro batch change delay awaiting
              simp [PoolStore.finishUpdate?, awaiting] at finished
            have goesOn : (PoolStore.step? batchSize desk.isShutDown
                (desk.store, desk.around)).isSome = true :=
              PoolStore.step?_of_working working moves
            obtain ⟨⟨store, around⟩, worked⟩ := Option.isSome_iff_exists.mp goesOn
            have less : (desk.solo batchSize (.desk .work)).store.workAhead <
                desk.store.workAhead := by
              simp only [Desk.solo, Desk.act, worked, update]
              exact PoolStore.step?_workAhead worked
            refine Ends.cons (.inl rfl) ?_ (ih _ less (sound.act .work) rfl)
            simp only [Desk.solo, Desk.act, worked, update, kept]

end Desk

end ClaimStore
