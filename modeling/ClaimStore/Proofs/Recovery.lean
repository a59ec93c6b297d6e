import ClaimStore.Proofs.Delivery
import ClaimStore.Proofs.Recovery.Steps

/-!
The way back to what is stored.

After conflicts, failures and timeouts a worker may go by a snapshot that is old, or whose version
has been forgotten. A snapshot at the stored version is what is stored, though, so the first batch
that is sent in calm is committed or makes known what is stored, and all later ones are committed.
-/
namespace ClaimStore

/-- A snapshot that can only be at the stored version if it is what is stored. -/
def Snapshot.Faithful (base snapshot : Snapshot) : Prop :=
  snapshot.key = base.key ∧ (snapshot.version = base.version → snapshot = base)

theorem Snapshot.Faithful.forget {base snapshot : Snapshot} (valid : base.version.isValid = true)
    (faithful : base.Faithful snapshot) : base.Faithful snapshot.forgetVersion := by
  refine ⟨faithful.1, ?_⟩
  intro same
  rw [← same] at valid
  contradiction

namespace Desk

/-- How far a worker has come since so many batches were decided. It goes by any faithful snapshot
until one more is, and then it keeps pace with the record. -/
inductive Stage (key : PoolKey) (base : Snapshot) (before : List Taken) (verdict : Nat → Bool)
    (desk : Desk) : Prop
  | astray (decided : desk.decided = before)
      (tells : desk.around.client.backend.records.Tell key base)
      (knows : desk.store.Knows base.Faithful)
  | regained (lost kept : List Taken) (decided : desk.decided = before ++ (lost ++ kept))
      (few : lost.length ≤ 1) (some : lost ++ kept ≠ [])
      (leads : Leads base kept desk.store.standing)
      (tells : desk.around.client.backend.records.Tell key desk.store.standing)
      (starts : desk.Starts)
      (verdicts : ∀ index < (lost ++ kept).length,
        verdict (before.length + index) = decide (lost.length ≤ index))

variable {desk : Desk} {key : PoolKey} {base : Snapshot} {before : List Taken}
variable {verdict : Nat → Bool} {batchSize : Nat}

theorem Stage.front (stage : desk.Stage key base before verdict) : before <+: desk.decided := by
  cases stage with
  | astray decided => exact decided ▸ List.prefix_rfl
  | regained lost kept decided =>
      rw [decided]
      exact List.prefix_append _ _

/-- Only the phase, the snapshot, the batches and the stored records matter. -/
theorem Stage.keep (stage : desk.Stage key base before verdict) {next : Desk}
    (phase : next.store.phase = desk.store.phase)
    (snapshot : next.store.snapshot = desk.store.snapshot)
    (batches : next.log.batches = desk.log.batches)
    (client : next.around.client = desk.around.client) :
    next.Stage key base before verdict := by
  have decided : next.decided = desk.decided := by rw [Desk.decided, Desk.decided, phase, batches]
  have standing : next.store.standing = desk.store.standing := by
    rw [PoolStore.standing, PoolStore.standing, phase, snapshot]
  cases stage with
  | astray same tells knows =>
      refine .astray (decided.trans same) (client ▸ tells) ?_
      rw [PoolStore.Knows, phase, snapshot]
      exact knows
  | regained lost kept same few some leads tells starts verdicts =>
      refine .regained lost kept (decided.trans same) few some (standing ▸ leads) ?_ ?_ verdicts
      · rw [client, standing]
        exact tells
      · rw [Starts, phase, batches, standing]
        exact starts

section Step

variable {now : Timestamp} {next : PoolStore} {after : Surroundings}

theorem Stage.step (stage : desk.Stage key base before verdict)
    (step : PoolStore.Step now (desk.store, desk.around) (next, after))
    (opens : desk.store.phase.isOpen = true → next.phase.isOpen = true) :
    (desk.update (some (next, after))).Stage key base before verdict := by
  have decided := decided_step step opens
  have standing : (desk.update (some (next, after))).store.standing = desk.store.standing :=
    PoolStore.standing_step step opens
  have records : after.client.backend.records = desk.around.client.backend.records :=
    step.frame.1.records
  cases stage with
  | astray same tells knows =>
      have valid : base.version.isValid = true := by
        obtain ⟨record, -, -, valid, read⟩ := tells
        rw [(Snapshot.ofRecord_fields read).2]
        exact valid
      exact .astray (decided.trans same) (records ▸ tells)
        (knows.step (fun _ => Snapshot.Faithful.forget valid) step)
  | regained lost kept same few some leads tells starts verdicts =>
      refine .regained lost kept (decided.trans same) few some (standing ▸ leads) ?_
        (starts.step step opens) verdicts
      rw [standing]
      exact records ▸ tells

end Step

/-- The first update that ends tells what is stored, and those after it replace the record. -/
theorem Stage.conclude (stage : desk.Stage key base before verdict) (sound : desk.Sound verdict)
    (calm : desk.around.client.Calm) {batch : Batch} {change : Record} {delay : Nat}
    (awaiting : desk.store.phase = .awaiting batch change delay) :
    ∃ mismatches client,
      desk.around.client.finishUpdate [change] = (.ok mismatches, client) ∧ client.Calm ∧
      Stage key base before
        (desk.conclude verdict (batch.conclude (.ok mismatches)).isCommitted)
        { desk with
          store := { desk.store with phase := .concluding batch (batch.conclude (.ok mismatches)) }
          around := { desk.around with client } } := by
  obtain ⟨-, earlier, taken, batches, holds⟩ := sound.fits.working awaiting rfl
  obtain ⟨rfl, ⟨now, rfl⟩, storable, -⟩ := holds
  have opened : desk.store.phase.isOpen = true := by rw [awaiting]; rfl
  have decided : desk.decided = earlier := decided_of_open opened batches
  cases stage with
  | astray same tells knows =>
      have faithful := knows.2
      rw [awaiting] at faithful
      obtain ⟨⟨own, told⟩, -⟩ := faithful
      obtain ⟨mismatches, client, ended, quiet, outcome⟩ :=
        calm.conclude tells (own.trans tells.key) storable now
      refine ⟨mismatches, client, ended, quiet, ?_⟩
      cases decided.symm.trans same
      -- The batch is lost or kept by whether the snapshot before it was at the stored version.
      rcases outcome with ⟨-, conflict, tells⟩ | ⟨version, committed, tells⟩
      · rw [conflict]
        refine .regained [taken] [] ((decided_of_closed rfl).trans batches) (Nat.le_refl _)
          (List.cons_ne_nil _ _) rfl tells (starts_of_closed rfl) ?_
        intro index within
        cases Nat.lt_one_iff.mp within
        exact conclude_last batches
      · rw [committed]
        refine .regained [] [taken] ((decided_of_closed rfl).trans batches) (Nat.zero_le _)
          (List.cons_ne_nil _ _) ⟨told version, rfl⟩ tells (starts_of_closed rfl) ?_
        intro index within
        cases Nat.lt_one_iff.mp within
        exact conclude_last batches
  | regained lost kept same few some leads tells starts verdicts =>
      have standing := starts earlier taken opened batches
      obtain ⟨mismatches, client, ended, quiet, outcome⟩ :=
        calm.conclude tells ((congrArg Snapshot.key standing).trans tells.key) storable now
      refine ⟨mismatches, client, ended, quiet, ?_⟩
      rcases outcome with ⟨other, -⟩ | ⟨-, committed, tells⟩
      · exact absurd (congrArg Snapshot.version standing) other
      rw [committed]
      cases decided.symm.trans same
      refine .regained lost (kept ++ [taken]) ?_ few (by simp) (Leads.concat (standing ▸ leads))
        tells (starts_of_closed rfl) ?_
      · rw [decided_of_closed rfl, batches]
        simp only [List.append_assoc]
      · intro index within
        rw [← List.append_assoc, List.length_append] at within
        rcases Nat.lt_or_eq_of_le (Nat.le_of_lt_succ within) with early | rfl
        · have inside : before.length + index < (before ++ (lost ++ kept)).length := by
            rw [List.length_append]
            exact Nat.add_lt_add_left early _
          exact (conclude_earlier batches inside).trans (verdicts index early)
        · have beyond : lost.length ≤ (lost ++ kept).length := by
            rw [List.length_append]
            exact Nat.le_add_right _ _
          rw [← List.length_append, conclude_last batches]
          exact (decide_eq_true beyond).symm

/-- A batch that is about to be sent is one of those that were not decided before. -/
theorem Stage.storable (stage : desk.Stage key base before verdict) (sound : desk.Sound verdict)
    (storable : ∀ taken ∈ desk.log.batches.drop before.length,
      Storage.poolFormat.isStorable taken.batch.candidate = true) {batch : Batch}
    (applying : desk.store.phase = .applying batch []) :
    Storage.poolFormat.isStorable batch.candidate = true := by
  obtain ⟨-, earlier, taken, batches, holds⟩ := sound.fits.working applying rfl
  obtain ⟨done, split, rfl, -⟩ := holds
  rw [List.append_nil] at split
  subst split
  have decided := decided_of_open (by rw [applying]; rfl) batches
  have within : before.length ≤ earlier.length := decided ▸ stage.front.length_le
  refine storable taken ?_
  rw [batches, List.drop_append_of_le_length within]
  exact List.mem_append_right _ List.mem_cons_self

theorem Stage.solo (stage : desk.Stage key base before verdict) (batchSize : Nat)
    (sound : desk.Sound verdict) (calm : desk.around.client.Calm) (soloAct : SoloAct)
    (patient : soloAct ≠ .abandonUpdate)
    (storable : ∀ taken ∈ desk.log.batches.drop before.length,
      Storage.poolFormat.isStorable taken.batch.candidate = true) :
    ∃ verdict', (desk.solo batchSize soloAct).Sound verdict' ∧
      (desk.solo batchSize soloAct).around.client.Calm ∧
      (desk.solo batchSize soloAct).Stage key base before verdict' := by
  cases soloAct with
  | abandonUpdate => exact absurd rfl patient
  | finishUpdate =>
      simp only [Desk.solo]
      cases finished : PoolStore.finishUpdate? (desk.store, desk.around) with
      | none => exact ⟨verdict, sound, calm, stage⟩
      | some next =>
          obtain ⟨store, after⟩ := next
          obtain ⟨batch, change, delay, -, -, awaiting, -⟩ :=
            PoolStore.end_of_finishUpdate? finished
          obtain ⟨mismatches, client, ended, quiet, stage⟩ := stage.conclude sound calm awaiting
          simp only [PoolStore.finishUpdate?, awaiting, ended, Option.some.injEq,
            Prod.mk.injEq] at finished
          obtain ⟨rfl, rfl⟩ := finished
          rw [update_concluding awaiting]
          exact ⟨_, sound.conclude awaiting quiet.honest, quiet, stage⟩
  | desk deskAct =>
      refine ⟨verdict, sound.act deskAct, ?_⟩
      by_cases works : deskAct = .work
      · subst works
        simp only [Desk.solo, Desk.act]
        cases worked : PoolStore.step? batchSize desk.isShutDown (desk.store, desk.around) with
        | none => exact ⟨calm, stage⟩
        | some next =>
            obtain ⟨store, after⟩ := next
            obtain ⟨now, clock⟩ := Option.isSome_iff_exists.mp sound.ready.clock
            obtain ⟨step, quiet, opens⟩ := PoolStore.calm_of_step? calm clock
              (fun _ applying => stage.storable sound storable applying) worked
            exact ⟨quiet, stage.step step opens⟩
      · obtain ⟨phase, snapshot, batches, client⟩ := desk.act_frame batchSize works
        exact ⟨client ▸ calm, stage.keep phase snapshot batches client⟩

theorem Stage.runSolo (stage : desk.Stage key base before verdict) (sound : desk.Sound verdict)
    (calm : desk.around.client.Calm) {acts : List SoloAct} (patient : .abandonUpdate ∉ acts)
    (storable : ∀ taken ∈ (desk.runSolo batchSize acts).log.batches.drop before.length,
      Storage.poolFormat.isStorable taken.batch.candidate = true) :
    ∃ verdict', (desk.runSolo batchSize acts).Sound verdict' ∧
      (desk.runSolo batchSize acts).Stage key base before verdict' := by
  induction acts generalizing desk verdict with
  | nil => exact ⟨verdict, sound, stage⟩
  | cons first rest ih =>
      rw [List.mem_cons, not_or] at patient
      have early : ∀ taken ∈ desk.log.batches.drop before.length,
          Storage.poolFormat.isStorable taken.batch.candidate = true := by
        intro taken member
        obtain ⟨more, whole⟩ := desk.front_runSolo batchSize (first :: rest)
        apply storable taken
        rw [← whole, List.drop_append]
        exact List.mem_append_left _ member
      obtain ⟨_, sound, calm, stage⟩ :=
        stage.solo batchSize sound calm first (Ne.symm patient.1) early
      exact ih stage sound calm patient.2 storable

/-- All requests of the decided batches have been answered, unless one of them is in hand. -/
theorem Sound.told_decided (sound : desk.Sound verdict)
    (answered : desk.store.phase.isOpen = desk.store.phase.isWorking) {index : Nat} {taken : Taken}
    (found : desk.decided[index]? = some taken) :
    taken.Told (verdict index) desk.around.answers := by
  cases working : desk.store.phase.isWorking with
  | false =>
      rw [decided_of_closed (answered.trans working)] at found
      exact sound.fits.told index taken found (.inr working)
  | true =>
      obtain ⟨-, earlier, last, batches, -⟩ := sound.fits.working rfl working
      rw [decided_of_open (answered.trans working) batches] at found
      have within := (List.getElem?_eq_some_iff.mp found).1
      refine sound.fits.told index taken ?_ (.inl ?_)
      · rw [batches, List.getElem?_append_left within]
        exact found
      · rw [batches, List.length_append, List.length_singleton]
        exact Nat.succ_lt_succ within

theorem Sound.told_parts {lost kept : List Taken} (sound : desk.Sound verdict)
    (decided : desk.decided = before ++ (lost ++ kept))
    (verdicts : ∀ index < (lost ++ kept).length,
      verdict (before.length + index) = decide (lost.length ≤ index))
    (answered : desk.store.phase.isOpen = desk.store.phase.isWorking) :
    (∀ taken ∈ lost, taken.Told false desk.around.answers) ∧
      ∀ taken ∈ kept, taken.Told true desk.around.answers := by
  have told : ∀ (index : Nat) (taken : Taken), (lost ++ kept)[index]? = some taken →
      taken.Told (decide (lost.length ≤ index)) desk.around.answers := by
    intro index taken found
    rw [← verdicts index (List.getElem?_eq_some_iff.mp found).1]
    apply sound.told_decided answered
    rw [decided, List.getElem?_append_right (Nat.le_add_right _ _), Nat.add_sub_cancel_left]
    exact found
  constructor
  · intro taken member
    obtain ⟨index, found⟩ := List.mem_iff_getElem?.mp member
    have within := (List.getElem?_eq_some_iff.mp found).1
    have verdict := told index taken ((List.getElem?_append_left within).trans found)
    rwa [decide_eq_false (Nat.not_le_of_lt within)] at verdict
  · intro taken member
    obtain ⟨index, found⟩ := List.mem_iff_getElem?.mp member
    have verdict := told (lost.length + index) taken (by
      rw [List.getElem?_append_right (Nat.le_add_right _ _), Nat.add_sub_cancel_left]
      exact found)
    rwa [decide_eq_true (Nat.le_add_right _ _)] at verdict

end Desk

namespace Wire

variable {wire : Wire} {batchSize : Nat}

/-- What the past records of a pool and a worker that is started on it have to be like. -/
structure Origin (past : List Record) (snapshot : Snapshot) (around : Surroundings) : Prop where
  clock : around.clock.isSome = true
  honest : around.client.Honest
  unanswered : around.answers = []
  last : past.getLast? = around.client.backend.records.find? snapshot.key.text
  keyed : ∀ record ∈ past, record.key = snapshot.key.text
  valid : ∀ record ∈ past, record.version.isValid = true
  chained : past.IsChain fun record next => next.version = record.version.next
  coherent : snapshot.Coherent snapshot.key past

/-- What any history leads to in which no version comes twice. -/
def Reached (batchSize : Nat) (wire : Wire) : Prop :=
  ∃ past snapshot around acts, Origin past snapshot around ∧
    wire = run batchSize acts (start past snapshot around) ∧
    (wire.ledger.records.map Record.version).Nodup

/-- The reply that is on its way, if there is one, has come to the worker. -/
def heard (wire : Wire) : Wire :=
  match wire.reply? with
  | none => wire
  | some reply => wire.conclude reply

theorem heard_frame (wire : Wire) :
    wire.heard.key = wire.key ∧ wire.heard.ledger = wire.ledger := by
  unfold heard conclude
  split
  · exact ⟨rfl, rfl⟩
  · split <;> exact ⟨rfl, rfl⟩

theorem Reached.sound (reached : wire.Reached batchSize) : wire.Sound := by
  obtain ⟨past, snapshot, around, acts, origin, rfl, unrepeated⟩ := reached
  exact (sound_start origin.clock origin.honest origin.unanswered origin.last origin.keyed
    origin.valid origin.chained origin.coherent).run acts unrepeated

/-- A worker goes by snapshots of which only what is stored is at the stored version. -/
theorem Sound.astray (sound : wire.Sound) {base : Snapshot}
    (unrepeated : (wire.ledger.records.map Record.version).Nodup)
    (decodes : wire.desk.Stores wire.key base) (verdict : Nat → Bool) :
    wire.desk.Stage wire.key base wire.desk.decided verdict := by
  obtain ⟨record, found, read⟩ := decodes
  have ledger := sound.ledger
  have stored : wire.stored? = some record := found
  rw [stored] at ledger
  have version : base.version = record.version := (Snapshot.ofRecord_fields read).2
  refine .astray rfl ⟨record, found, ledger.keyed record ledger.stored_member,
    ledger.valid record ledger.stored_member, read⟩ ?_
  refine PoolStore.Knows.grow sound.coherent ?_
  intro snapshot coherent
  refine ⟨coherent.1.trans (Snapshot.ofRecord_fields read).1.symm, ?_⟩
  intro same
  have also := ledger.read_of_version unrepeated coherent (version.symm.trans same.symm)
  rw [read] at also
  cases also
  rfl

/-- Whatever has happened before: if the record can be read, no update fails or is given up, and
nothing else reaches the record any more, then of the batches that are concluded from now on only
the first one may be rolled back. It makes known what is stored. All others are committed one after
the other, each from where the one before it has led to, and what is known is what is stored as soon
as one batch has been concluded, also where the version starts again from `first`. No version that
was ever stored is the one of a snapshot whose version has been forgotten. -/
theorem recovered_after_one (wire : Wire) (batchSize : Nat) (base : Snapshot)
    (acts : List SoloAct) (reached : wire.Reached batchSize)
    (decodes : wire.heard.desk.Stores wire.key base) (calm : wire.heard.desk.around.client.Calm)
    (patient : .abandonUpdate ∉ acts)
    (storable : ∀ taken ∈
      (wire.heard.desk.runSolo batchSize acts).log.batches.drop wire.heard.desk.decided.length,
      Storage.poolFormat.isStorable taken.batch.candidate = true) :
    let now := wire.heard.desk
    let later := now.runSolo batchSize acts
    (∀ record ∈ wire.ledger.records, record.version ≠ .invalid) ∧ later.Ends batchSize ∧
    ∃ lost kept tip, later.decided = now.decided ++ (lost ++ kept) ∧ lost.length ≤ 1 ∧
      Leads base kept tip ∧ later.around.client.backend.records.Tell wire.key tip ∧
      (lost ++ kept ≠ [] → later.store.standing = tip) ∧
      (later.store.phase.isOpen = later.store.phase.isWorking →
        (∀ taken ∈ lost, taken.Told false later.around.answers) ∧
          ∀ taken ∈ kept, taken.Told true later.around.answers) := by
  intro now later
  obtain ⟨key, ledger⟩ := wire.heard_frame
  have sound : wire.heard.Sound :=
    show (wire.act batchSize .answer).Sound from reached.sound.answer
  have unrepeated : (wire.heard.ledger.records.map Record.version).Nodup := by
    obtain ⟨-, -, -, -, -, -, unrepeated⟩ := reached
    rw [ledger]
    exact unrepeated
  rw [← key] at decodes ⊢
  obtain ⟨verdict, begun⟩ := sound.verdict
  obtain ⟨_, kept, stage⟩ :=
    (sound.astray unrepeated decodes verdict).runSolo begun calm patient storable
  refine ⟨?_, kept.ends, ?_⟩
  · intro record member invalid
    have valid := reached.sound.ledger.valid record member
    rw [invalid] at valid
    contradiction
  · cases stage with
    | astray same tells =>
        exact ⟨[], [], base, same.trans (List.append_nil _).symm, Nat.zero_le _, rfl, tells,
          fun some => absurd rfl some, fun _ => ⟨by simp, by simp⟩⟩
    | regained lost others same few _ leads tells _ verdicts =>
        exact ⟨lost, others, _, same, few, leads, tells, fun _ => rfl,
          kept.told_parts same verdicts⟩

/-- The worker has given up a message, and then the store has carried it out. -/
def sampleLate : Wire :=
  let acts : List WireAct :=
    [WireAct.desk (.push (.ofTransition (.deposit 5))), .desk .notify] ++
      List.replicate 4 (WireAct.desk .work) ++ [WireAct.giveUp] ++
      List.replicate 3 (WireAct.desk .work) ++ [WireAct.deliver 0]
  run 2 acts (start [Desk.sampleStart.record .epoch] Desk.sampleStart Desk.sampleAround)

def sampleStored : Snapshot := ⟨⟨2⟩, Desk.samplePool, ⟨Desk.samplePool, 5, []⟩⟩

def sampleCalm : List SoloAct :=
  let batch (amount : UInt64) (begun : Nat) : List SoloAct :=
    [SoloAct.desk (.push (.ofTransition (.deposit amount))), .desk .notify] ++
      List.replicate begun (SoloAct.desk .work) ++ [SoloAct.finishUpdate] ++
      List.replicate 4 (SoloAct.desk .work)
  batch 3 4 ++ batch 4 3

def sampleLater : Desk := sampleLate.heard.desk.runSolo 2 sampleCalm

/-- The first batch is rolled back and the second one is committed. -/
theorem recovered_after_one_late : ∃ lost kept,
    sampleLater.decided = sampleLate.heard.desk.decided ++ (lost ++ kept) ∧
    lost.length = 1 ∧ kept.length = 1 ∧
    (∀ taken ∈ lost, taken.Told false sampleLater.around.answers) ∧
    (∀ taken ∈ kept, taken.Told true sampleLater.around.answers) ∧
    sampleLater.around.client.backend.records.Tell Desk.samplePool
      ⟨⟨3⟩, Desk.samplePool, ⟨Desk.samplePool, 9, []⟩⟩ := by
  have facts : (sampleLate.ledger.records.map Record.version).Nodup ∧
      (Desk.sampleStart.record .epoch).version.isValid = true ∧
      some (Desk.sampleStart.record .epoch) =
        Desk.sampleAround.client.backend.records.find? Desk.sampleStart.key.text ∧
      Storage.poolFormat.isStorable Desk.sampleStart.state = true ∧
      Storage.poolFormat.isStorable sampleStored.state = true ∧
      sampleLate.heard.desk.around.client.backend.records.find? Desk.samplePool.text =
        some (sampleStored.record .epoch) ∧
      sampleLate.heard.desk.around.client.backend.faults = {} ∧
      (∀ taken ∈ sampleLater.log.batches.drop sampleLate.heard.desk.decided.length,
        Storage.poolFormat.isStorable taken.batch.candidate = true) ∧
      sampleLater.decided.length = sampleLate.heard.desk.decided.length + 2 ∧
      sampleLater.store.phase.isOpen = sampleLater.store.phase.isWorking ∧
      sampleLater.store.standing = ⟨⟨3⟩, Desk.samplePool, ⟨Desk.samplePool, 9, []⟩⟩ := by
    decide +kernel
  obtain ⟨unrepeated, valid, last, storable, readable, found, faults, sendable, two, rests,
    standing⟩ := facts
  have coherent : Desk.sampleStart.Coherent Desk.sampleStart.key
      [Desk.sampleStart.record .epoch] :=
    Snapshot.coherent_of_read List.mem_cons_self
      (Snapshot.ofRecord_encode storable Desk.sampleStart.key rfl)
  have reached : sampleLate.Reached 2 :=
    ⟨[Desk.sampleStart.record .epoch], Desk.sampleStart, Desk.sampleAround, _,
      ⟨rfl, rfl, rfl, last, List.forall_mem_singleton.mpr rfl,
        List.forall_mem_singleton.mpr valid, List.isChain_singleton _, coherent⟩,
      rfl, unrepeated⟩
  have calm : sampleLate.heard.desk.around.client.Calm := by
    refine ⟨?_, ?_, ?_⟩
    · rw [Client.Honest, faults]
    · rw [faults]
    · rw [faults]
  have key : sampleLate.key = Desk.samplePool := key_run 2 _ _
  have decodes : sampleLate.heard.desk.Stores sampleLate.key sampleStored := by
    rw [key]
    exact ⟨_, found, Snapshot.ofRecord_encode readable Desk.samplePool rfl⟩
  have same : sampleLate.heard.desk.runSolo 2 sampleCalm = sampleLater := rfl
  rw [← same] at sendable
  obtain ⟨-, -, lost, kept, tip, decided, few, leads, tells, own, told⟩ :=
    recovered_after_one sampleLate 2 sampleStored sampleCalm reached decodes calm
      (by simp [sampleCalm]) sendable
  rw [key, same] at tells
  rw [same] at decided own told
  obtain ⟨rolledBack, committed⟩ := told rests
  rw [decided, List.length_append, List.length_append] at two
  have some : lost ++ kept ≠ [] := by
    intro none
    rw [← List.length_append, none, List.length_nil] at two
    omega
  have final := (own some).symm.trans standing
  subst final
  have version : (⟨3⟩ : Version) = Version.next^[kept.length] ⟨2⟩ :=
    congrArg Snapshot.version leads.finish_eq
  have single : kept.length = 1 := by
    have amount : kept.length = 1 ∨ kept.length = 2 := by omega
    rcases amount with one | more
    · exact one
    · rw [more] at version
      exact absurd version (by decide)
  have one : lost.length = 1 := by omega
  exact ⟨lost, kept, decided, one, single, rolledBack, committed, tells⟩

end Wire

end ClaimStore
