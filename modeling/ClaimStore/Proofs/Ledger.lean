import ClaimStore.Proofs.Storage.Shapes
import ClaimStore.Proofs.Versions
import ClaimStore.Proofs.Worker.Log

/-!
The successive records of a pool.

Each record but the first follows the one before it at the next version. One that was written by a
batch holds the pool before it as the requests of the batch have changed it. A worker's snapshot is
coherent if it tells what one of the records holds, or if its version has been forgotten.
-/
namespace ClaimStore

namespace Snapshot

variable {key : PoolKey} {record : Record} {snapshot : Snapshot}

/-- A record is read if and only if its value can be decoded. -/
theorem ofRecord_cases (key : PoolKey) (record : Record) :
    (∃ state, (Storage.poolFormat.decode (.ofChunks [record.value])).1 = .ok state ∧
      ofRecord key record = .ok ⟨record.version, key, state⟩) ∨
    ∃ fault, (Storage.poolFormat.decode (.ofChunks [record.value])).1 = .error fault ∧
      ofRecord key record = .error fault := by
  unfold ofRecord
  cases (Storage.poolFormat.decode (.ofChunks [record.value])).1 with
  | ok state => exact .inl ⟨state, rfl, rfl⟩
  | error fault => exact .inr ⟨fault, rfl, rfl⟩

theorem ofRecord_eq_ok (read : ofRecord key record = .ok snapshot) :
    snapshot.key = key ∧ snapshot.version = record.version ∧
      (Storage.poolFormat.decode (.ofChunks [record.value])).1 = .ok snapshot.state := by
  obtain ⟨state, decoded, given⟩ | ⟨fault, -, given⟩ := ofRecord_cases key record
  · rw [given] at read
    cases read
    exact ⟨rfl, rfl, decoded⟩
  · rw [given] at read
    cases read

theorem ofRecord_fields (read : ofRecord key record = .ok snapshot) :
    snapshot.key = key ∧ snapshot.version = record.version :=
  (ofRecord_eq_ok read).imp_right And.left

/-- A state that can be stored is read back from its record, whatever the version. -/
theorem ofRecord_encode {pool : PoolState} (storable : Storage.poolFormat.isStorable pool = true)
    (key : PoolKey) (value : record.value = Storage.poolFormat.encode pool) :
    ofRecord key record = .ok ⟨record.version, key, pool⟩ := by
  rw [ofRecord, value, Storage.poolFormat_decode_encode storable]
  rfl

end Snapshot

/-- A record under the key of a pool, at the version of a snapshot, whose value is read as the state of
the snapshot. -/
structure Record.Holds (record : Record) (snapshot : Snapshot) : Prop where
  key : record.key = snapshot.key.text
  version : record.version = snapshot.version
  decoded : (Storage.poolFormat.decode (.ofChunks [record.value])).1 = .ok snapshot.state

namespace Snapshot

variable {key : PoolKey} {record : Record} {snapshot : Snapshot}

theorem holds_of_read (read : ofRecord key record = .ok snapshot)
    (keyed : record.key = key.text) : record.Holds snapshot := by
  obtain ⟨own, version, decoded⟩ := ofRecord_eq_ok read
  exact ⟨keyed.trans (congrArg PoolKey.text own.symm), version.symm, decoded⟩

theorem holds_record (snapshot : Snapshot) (modified : Timestamp)
    (storable : Storage.poolFormat.isStorable snapshot.state = true) :
    (snapshot.record modified).Holds snapshot :=
  ⟨rfl, rfl, Storage.poolFormat_decode_encode storable⟩

/-- The snapshot tells what one of the records holds, or its version has been forgotten. -/
def Coherent (snapshot : Snapshot) (key : PoolKey) (records : List Record) : Prop :=
  snapshot.key = key ∧
    (snapshot.version = .invalid ∨ ∃ record ∈ records, ofRecord key record = .ok snapshot)

variable {records more : List Record}

theorem Coherent.grow (coherent : snapshot.Coherent key records) (grown : records ⊆ more) :
    snapshot.Coherent key more := by
  obtain ⟨own, forgotten | ⟨record, member, read⟩⟩ := coherent
  · exact ⟨own, .inl forgotten⟩
  · exact ⟨own, .inr ⟨record, grown member, read⟩⟩

theorem Coherent.forget (coherent : snapshot.Coherent key records) :
    snapshot.forgetVersion.Coherent key records :=
  ⟨coherent.1, .inl rfl⟩

theorem coherent_of_read (member : record ∈ records) (read : ofRecord key record = .ok snapshot) :
    snapshot.Coherent key records :=
  ⟨(ofRecord_fields read).1, .inr ⟨record, member, read⟩⟩

end Snapshot

theorem Batch.conclude_key (batch : Batch) (result : Except StoreError (List Record)) :
    (batch.conclude result).snapshot.key = batch.before.key := by
  cases result with
  | error fault => rfl
  | ok mismatches =>
      simp only [conclude]
      split
      · rfl
      · split
        · rename_i read
          exact (Snapshot.ofRecord_fields read).1
        · rfl

section

variable {batch : Batch} {stored : Record}

/-- A batch whose update is refused because of the record of its pool is in conflict with it. -/
theorem Batch.conclude_read {snapshot : Snapshot} (keyed : stored.key = batch.before.key.text)
    (read : Snapshot.ofRecord batch.before.key stored = .ok snapshot) :
    batch.conclude (.ok [stored]) = .conflict snapshot := by
  simp [conclude, keyed, read]

theorem Batch.conclude_unread {fault : Storage.DecodeError}
    (keyed : stored.key = batch.before.key.text)
    (unread : Snapshot.ofRecord batch.before.key stored = .error fault) :
    batch.conclude (.ok [stored]) = batch.abandoned := by
  simp [conclude, keyed, unread]

end

/-- What the worker goes by is known, and it changes the record of its own pool. -/
def Phase.Knows (known : Snapshot → Prop) : Phase → Prop
  | .applying batch _ => known batch.before
  | .awaiting batch change _ => known batch.before ∧ change.key = batch.before.key.text
  | .concluding _ conclusion | .adopting _ conclusion => known conclusion.snapshot
  | .idle | .taking | .resolving _ _ | .stopped | .died => True

def PoolStore.Knows (store : PoolStore) (known : Snapshot → Prop) : Prop :=
  known store.snapshot ∧ store.phase.Knows known

namespace PoolStore

variable {store next : PoolStore} {around after : Surroundings} {now : Timestamp}
variable {known more : Snapshot → Prop}

theorem Knows.grow (knows : store.Knows known) (grown : ∀ snapshot, known snapshot → more snapshot) :
    store.Knows more := by
  obtain ⟨own, working⟩ := knows
  refine ⟨grown _ own, ?_⟩
  cases phase : store.phase with
  | applying batch rest =>
      rw [phase] at working
      exact grown _ working
  | awaiting batch change delay =>
      rw [phase] at working
      exact ⟨grown _ working.1, working.2⟩
  | concluding batch conclusion | adopting batch conclusion =>
      rw [phase] at working
      exact grown _ working
  | idle | taking | resolving answer pending | stopped | died => trivial

theorem Knows.step (knows : store.Knows known)
    (forget : ∀ snapshot, known snapshot → known snapshot.forgetVersion)
    (step : Step now (store, around) (next, after)) : next.Knows known := by
  obtain ⟨own, working⟩ := knows
  cases step with
  | wake idle same => exact ⟨own, trivial⟩
  | rest taking passed => rcases passed with rfl | rfl <;> exact ⟨own, trivial⟩
  | take requests waiting taking split some => exact ⟨own, own⟩
  | accept applying accepted =>
      rw [applying] at working
      exact ⟨own, working⟩
  | refuse applying refused =>
      rw [applying] at working
      exact ⟨own, working⟩
  | abandon applying quiet =>
      rw [applying] at working
      exact ⟨own, forget _ working⟩
  | send applying storable quiet =>
      rw [applying] at working
      exact ⟨own, working, rfl⟩
  | conclude concluding =>
      rw [concluding] at working
      exact ⟨own, working⟩
  | adopt adopting =>
      rw [adopting] at working
      exact ⟨working, trivial⟩
  | finish resolving => exact ⟨own, trivial⟩
  | resolve resolving => exact ⟨own, trivial⟩

def Coherent (store : PoolStore) (key : PoolKey) (records : List Record) : Prop :=
  store.Knows fun snapshot => snapshot.Coherent key records

variable {key : PoolKey} {records further : List Record}

theorem Coherent.grow (coherent : store.Coherent key records) (grown : records ⊆ further) :
    store.Coherent key further :=
  Knows.grow coherent fun _ own => own.grow grown

theorem Coherent.step (coherent : store.Coherent key records)
    (step : Step now (store, around) (next, after)) : next.Coherent key records :=
  Knows.step coherent (fun _ own => own.forget) step

end PoolStore

/-- The successive records of a pool, oldest first, each with the batch that has written it, if one
has. -/
abbrev Ledger (ι : Type) := List (Record × Option ι)

namespace Ledger

variable {ι : Type}

def records (ledger : Ledger ι) : List Record := ledger.map Prod.fst

def writers (ledger : Ledger ι) : List ι := ledger.filterMap Prod.snd

/-- One record after another: at the next version and, if a batch has written it, with the pool as
the requests of the batch have changed it. -/
def Follows (key : PoolKey) (batch? : ι → Option Taken) (before after : Record × Option ι) : Prop :=
  after.1.version = before.1.version.next ∧
    ∀ writer, after.2 = some writer → ∃ taken, batch? writer = some taken ∧
      Snapshot.ofRecord key before.1 = .ok taken.before ∧
      Snapshot.ofRecord key after.1 =
        .ok ⟨after.1.version, key, taken.before.state.serve taken.requests⟩

/-- What is known of the records of a pool, the last of which is the stored one. -/
structure Sound (key : PoolKey) (batch? : ι → Option Taken) (stored? : Option Record)
    (ledger : Ledger ι) : Prop where
  last : ledger.records.getLast? = stored?
  keyed : ∀ record ∈ ledger.records, record.key = key.text
  valid : ∀ record ∈ ledger.records, record.version.isValid = true
  chained : ledger.IsChain (Follows key batch?)
  once : ledger.writers.Nodup
  known : ∀ writer ∈ ledger.writers, (batch? writer).isSome = true

variable {key : PoolKey} {batch? more? : ι → Option Taken} {stored? : Option Record}
variable {ledger : Ledger ι} {stored change : Record} {taken : Taken} {now : Timestamp} {writer : ι}

theorem records_append (ledger more : Ledger ι) :
    records (ledger ++ more) = ledger.records ++ more.records :=
  List.map_append

theorem writers_append (ledger more : Ledger ι) :
    writers (ledger ++ more) = ledger.writers ++ more.writers :=
  List.filterMap_append

theorem Sound.grow (sound : ledger.Sound key batch? stored?)
    (grown : ∀ writer taken, batch? writer = some taken → more? writer = some taken) :
    ledger.Sound key more? stored? := by
  refine ⟨sound.last, sound.keyed, sound.valid, ?_, sound.once, ?_⟩
  · refine List.IsChain.imp ?_ sound.chained
    intro before after follows
    refine ⟨follows.1, ?_⟩
    intro writer own
    obtain ⟨taken, known, read, written⟩ := follows.2 writer own
    exact ⟨taken, grown writer taken known, read, written⟩
  · intro writer member
    obtain ⟨taken, known⟩ := Option.isSome_iff_exists.mp (sound.known writer member)
    rw [grown writer taken known]
    rfl

theorem Sound.stored_member (sound : ledger.Sound key batch? (some stored)) :
    stored ∈ ledger.records :=
  List.mem_of_getLast? sound.last

/-- No version comes twice as long as there are few records. -/
theorem Sound.versions_nodup (sound : ledger.Sound key batch? stored?)
    (few : ledger.length ≤ Version.cycle) : (ledger.records.map Record.version).Nodup := by
  refine Version.nodup_of_chain ?_ ?_ ?_
  · rw [records, List.map_map, List.isChain_map]
    exact List.IsChain.imp (fun _ _ follows => follows.1) sound.chained
  · intro version member
    obtain ⟨record, held, rfl⟩ := List.mem_map.mp member
    exact sound.valid record held
  · rw [records, List.map_map, List.length_map]
    exact few

/-- A coherent snapshot at the stored version tells what is stored. -/
theorem Sound.read_of_version (sound : ledger.Sound key batch? (some stored)) {snapshot : Snapshot}
    (unrepeated : (ledger.records.map Record.version).Nodup)
    (coherent : snapshot.Coherent key ledger.records) (same : stored.version = snapshot.version) :
    Snapshot.ofRecord key stored = .ok snapshot := by
  obtain ⟨own, forgotten | ⟨record, member, read⟩⟩ := coherent
  · have valid := sound.valid stored sound.stored_member
    rw [same, forgotten] at valid
    contradiction
  · have version : record.version = stored.version := by
      rw [same, (Snapshot.ofRecord_fields read).2]
    have here := List.inj_on_of_nodup_map unrepeated member sound.stored_member version
    rwa [here] at read

theorem Sound.append (sound : ledger.Sound key batch? (some stored)) {next : Record}
    {source : Option ι} (keyed : next.key = key.text) (version : next.version = stored.version.next)
    (fresh : ∀ writer, source = some writer → writer ∉ ledger.writers ∧
      ∃ taken, batch? writer = some taken ∧
        Snapshot.ofRecord key stored = .ok taken.before ∧
        Snapshot.ofRecord key next =
          .ok ⟨next.version, key, taken.before.state.serve taken.requests⟩) :
    Sound key batch? (some next) (ledger ++ [(next, source)]) := by
  refine ⟨?_, ?_, ?_, ?_, ?_, ?_⟩
  · simp [records]
  · intro record member
    rw [records_append] at member
    rcases List.mem_append.mp member with early | late
    · exact sound.keyed record early
    · rw [List.mem_singleton.mp late]
      exact keyed
  · intro record member
    rw [records_append] at member
    rcases List.mem_append.mp member with early | late
    · exact sound.valid record early
    · rw [List.mem_singleton.mp late, version]
      exact Version.next_isValid _
  · rw [List.isChain_append]
    refine ⟨sound.chained, List.isChain_singleton _, ?_⟩
    intro before final after head
    have end' := sound.last
    rw [records, List.getLast?_map, final] at end'
    cases end'
    cases head
    refine ⟨version, ?_⟩
    intro writer own
    exact (fresh writer own).2
  · rw [writers_append]
    cases source with
    | none => simpa [writers] using sound.once
    | some writer =>
        rw [List.nodup_append]
        refine ⟨sound.once, by simp [writers], ?_⟩
        intro early member late own same
        have last : late = writer := by simpa [writers] using own
        rw [same, last] at member
        exact (fresh writer rfl).1 member
  · intro writer member
    rw [writers_append] at member
    rcases List.mem_append.mp member with early | late
    · exact sound.known writer early
    · cases source with
      | none => simp [writers] at late
      | some other =>
          have own : writer = other := by simpa [writers] using late
          obtain ⟨taken, known, -⟩ := (fresh other rfl).2
          rw [own, known]
          rfl

/-- The change of a batch replaces the stored record only if the batch started from it. -/
theorem Sound.write (sound : ledger.Sound key batch? (some stored))
    (unrepeated : (ledger.records.map Record.version).Nodup)
    (coherent : taken.before.Coherent key ledger.records)
    (storable : Storage.poolFormat.isStorable taken.batch.candidate = true)
    (known : batch? writer = some taken) (fresh : writer ∉ ledger.writers)
    (same : stored.version = (taken.batch.change now).version) :
    Snapshot.ofRecord key stored = .ok taken.before ∧
    Sound key batch? (some { taken.batch.change now with
        version := (taken.batch.change now).version.next })
      (ledger ++ [({ taken.batch.change now with
        version := (taken.batch.change now).version.next }, some writer)]) := by
  have read := sound.read_of_version unrepeated coherent same
  refine ⟨read, sound.append ?_ ?_ ?_⟩
  · exact congrArg PoolKey.text coherent.1
  · rw [same]
  · intro other own
    cases own
    exact ⟨fresh, taken, known, read, Snapshot.ofRecord_encode storable key rfl⟩

/-- Notes the stored record when it has changed, with the batch that has written it. -/
def note (ledger : Ledger ι) (before after : Option Record)
    (source : Option ι) : Ledger ι :=
  match after with
  | none => ledger
  | some record => if before = some record then ledger else ledger ++ [(record, source)]

theorem note_same (ledger : Ledger ι) (stored? : Option Record) (source : Option ι) :
    ledger.note stored? stored? source = ledger := by
  unfold note
  split
  · rfl
  · exact if_pos rfl

theorem note_cases (ledger : Ledger ι) (before after : Option Record) (source : Option ι) :
    ledger.note before after source = ledger ∨
      ∃ record, ledger.note before after source = ledger ++ [(record, source)] := by
  unfold note
  split
  · exact .inl rfl
  · split
    · exact .inl rfl
    · exact .inr ⟨_, rfl⟩

theorem front_note (ledger : Ledger ι) (before after : Option Record) (source : Option ι) :
    ledger <+: ledger.note before after source := by
  rcases ledger.note_cases before after source with same | ⟨record, longer⟩
  · rewrite [same]
    exact List.prefix_rfl
  · rw [longer]
    exact List.prefix_append _ _

theorem note_next (ledger : Ledger ι) {next : Record}
    (version : next.version = stored.version.next) (source : Option ι) :
    ledger.note (some stored) (some next) source = ledger ++ [(next, source)] := by
  refine if_neg ?_
  intro same
  cases same
  exact stored.version.next_ne version.symm

/-- How a batch is concluded from the end of its update: rightly, if it comes to that, and with a
coherent snapshot in any case. -/
theorem Sound.updated {before after : Records} {result : Except StoreError (List Record)}
    (sound : ledger.Sound key batch? (before.find? key.text))
    (unrepeated : (ledger.records.map Record.version).Nodup)
    (coherent : taken.before.Coherent key ledger.records)
    (storable : Storage.poolFormat.isStorable taken.batch.candidate = true)
    (known : batch? writer = some taken) (fresh : writer ∉ ledger.writers)
    (ends : UpdateEnd (taken.batch.change now) before result after) :
    (ledger.note (before.find? key.text) (after.find? key.text) (some writer)).Sound key batch?
        (after.find? key.text) ∧
      (taken.batch.conclude result).snapshot.Coherent key
        (ledger.note (before.find? key.text) (after.find? key.text) (some writer)).records ∧
      ((taken.batch.conclude result).isCommitted = true ↔
        writer ∈ (ledger.note (before.find? key.text) (after.find? key.text)
          (some writer)).writers) ∧
      (ledger.note (before.find? key.text) (after.find? key.text) (some writer)).writers ⊆
        writer :: ledger.writers := by
  have own : taken.before.key = key := coherent.1
  have place : (taken.batch.change now).key = key.text := congrArg PoolKey.text own
  cases ends with
  | failed error =>
      rw [note_same]
      refine ⟨sound, coherent.forget, ?_, List.subset_cons_self _ _⟩
      exact ⟨by rintro ⟨⟩, fun member => absurd member fresh⟩
  | refused stored found other =>
      rw [note_same]
      rw [place] at found
      rw [found] at sound
      have keyed : stored.key = taken.batch.before.key.text :=
        (sound.keyed stored sound.stored_member).trans place.symm
      rw [found]
      cases read : Snapshot.ofRecord taken.batch.before.key stored with
      | error fault =>
          rw [Batch.conclude_unread keyed read]
          refine ⟨sound, coherent.forget, ?_, List.subset_cons_self _ _⟩
          exact ⟨by rintro ⟨⟩, fun member => absurd member fresh⟩
      | ok snapshot =>
          rw [Batch.conclude_read keyed read]
          have here : taken.batch.before.key = key := own
          rw [here] at read
          refine ⟨sound, Snapshot.coherent_of_read sound.stored_member read, ?_,
            List.subset_cons_self _ _⟩
          exact ⟨by rintro ⟨⟩, fun member => absurd member fresh⟩
  | written stored found same =>
      rw [place] at found
      rw [found] at sound ⊢
      have replaced : (before.write (taken.batch.change now)).find? key.text =
          some { taken.batch.change now with
            version := (taken.batch.change now).version.next } := by
        rw [Records.find?_write]
        exact if_pos place.symm
      obtain ⟨-, grown⟩ := sound.write unrepeated coherent storable known fresh same
      rw [replaced, ledger.note_next (by rw [same])]
      have read : Snapshot.ofRecord key { taken.batch.change now with
          version := (taken.batch.change now).version.next } = .ok taken.batch.committed := by
        rw [Snapshot.ofRecord_encode storable key rfl, ← own]
        rfl
      have last : (taken.batch.conclude (.ok [])) = .committed taken.batch.committed := rfl
      rw [last]
      refine ⟨grown, Snapshot.coherent_of_read ?_ read, ?_, ?_⟩
      · rw [records_append]
        exact List.mem_append_right _ List.mem_cons_self
      · rw [writers_append]
        exact ⟨fun _ => List.mem_append_right _ List.mem_cons_self, fun _ => rfl⟩
      · rw [writers_append]
        intro other member
        rcases List.mem_append.mp member with early | late
        · exact List.mem_cons_of_mem _ early
        · exact List.mem_cons.mpr (.inl (List.mem_singleton.mp late))

theorem Sound.overwritten {before after : Records} {result : Except StoreError (List Record)}
    (sound : ledger.Sound key batch? (before.find? key.text))
    (ends : UpdateEnd change before result after) :
    (ledger.note (before.find? key.text) (after.find? key.text) none).Sound key batch?
        (after.find? key.text) ∧
      (ledger.note (before.find? key.text) (after.find? key.text) none).writers =
        ledger.writers := by
  cases ends with
  | failed error =>
      rw [note_same]
      exact ⟨sound, rfl⟩
  | refused stored found other =>
      rw [note_same]
      exact ⟨sound, rfl⟩
  | written stored found same =>
      by_cases own : change.key = key.text
      · have replaced : (before.write change).find? key.text =
            some { change with version := change.version.next } := by
          rw [Records.find?_write]
          exact if_pos own.symm
        rw [own] at found
        rw [found] at sound ⊢
        rw [replaced, ledger.note_next (by rw [same])]
        refine ⟨sound.append own (by rw [same]) (by rintro _ ⟨⟩), ?_⟩
        rw [writers_append]
        exact List.append_nil _
      · have kept : (before.write change).find? key.text = before.find? key.text :=
          (UpdateEnd.written stored found same).elsewhere (Ne.symm own)
        rw [kept, note_same]
        exact ⟨sound, rfl⟩

/-- The requests that have changed the pool, in the order in which they have done so. -/
def applied (ledger : Ledger ι) (batch? : ι → Option Taken) : List Request :=
  ledger.writers.flatMap fun writer =>
    ((batch? writer).map fun taken => taken.before.state.accepted taken.requests).getD []

/-- If all records but the first are written by batches, the last one holds what the requests make
of the pool of the first one, one after the other, and none of them fails. -/
theorem served {entry : Record × Option ι} {rest : Ledger ι} {pool : PoolState}
    (chain : List.IsChain (Follows key batch?) (entry :: rest))
    (linked : ∀ other ∈ rest, other.2.isSome = true)
    (read : Snapshot.ofRecord key entry.1 = .ok ⟨entry.1.version, key, pool⟩) :
    ∃ last, (records (entry :: rest)).getLast? = some last ∧
      Snapshot.ofRecord key last = .ok ⟨last.version, key, pool.serve (applied rest batch?)⟩ ∧
      pool.accepted (applied rest batch?) = applied rest batch? := by
  induction rest generalizing entry pool with
  | nil => exact ⟨entry.1, rfl, read, rfl⟩
  | cons second rest ih =>
      rw [List.isChain_cons_cons] at chain
      obtain ⟨follows, chain⟩ := chain
      obtain ⟨writer, own⟩ := Option.isSome_iff_exists.mp (linked second List.mem_cons_self)
      obtain ⟨taken, known, before, after⟩ := follows.2 writer own
      rw [read] at before
      have start : taken.before.state = pool := by
        cases taken
        cases before
        rfl
      rw [start] at after
      obtain ⟨last, final, served, all⟩ :=
        ih chain (fun other member => linked other (List.mem_cons_of_mem _ member)) after
      have requests : applied (second :: rest) batch? =
          pool.accepted taken.requests ++ applied rest batch? := by
        simp [applied, writers, own, known, start]
      obtain ⟨same, again⟩ := pool.serve_accepted taken.requests
      refine ⟨last, ?_, ?_, ?_⟩
      · rw [← final]
        rfl
      · rw [requests, PoolState.serve_append, same]
        exact served
      · rw [requests, PoolState.accepted_append, same, again, all]

end Ledger

end ClaimStore
