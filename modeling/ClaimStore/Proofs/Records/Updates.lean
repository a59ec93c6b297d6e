import ClaimStore.Backend
import Mathlib.Data.List.Basic

/-!
What an update does to the stored records.

An update looks at all its changes before it writes any of them. It fails for the first key without a
record, whatever the versions are; otherwise it gives back every record whose version is not the
expected one; and it writes only if there is none. What is stored under a key in the end is the last
of the changes of this key.
-/
namespace ClaimStore

/-- The record of a change as it is stored: at the version after the expected one. -/
def Record.renewed (change : Record) : Record := { change with version := change.version.next }

/-- The first of the changes of a key. -/
def firstChange? (changes : List Record) (key : String) : Option Record :=
  changes.find? fun change => change.key = key

/-- The last of the changes of a key. -/
def lastChange? (changes : List Record) (key : String) : Option Record :=
  firstChange? changes.reverse key

theorem firstChange?_append (front back : List Record) (key : String) :
    firstChange? (front ++ back) key = (firstChange? front key).or (firstChange? back key) :=
  List.find?_append

theorem firstChange?_single (change : Record) (key : String) :
    firstChange? [change] key = if key = change.key then some change else none := by
  by_cases own : key = change.key
  · simp [firstChange?, own]
  · simp [firstChange?, own, Ne.symm own]

theorem Records.find?_write (records : Records) (change : Record) (key : String) :
    (records.write change).find? key =
      if key = change.key then some { change with version := change.version.next }
      else records.find? key :=
  Table.find?_insert records change.key key _

/-- What is stored under a key after all the changes have been written. -/
theorem Records.find?_foldl_write (records : Records) (changes : List Record) (key : String) :
    (changes.foldl write records).find? key =
      ((lastChange? changes key).map Record.renewed).or (records.find? key) := by
  induction changes generalizing records with
  | nil => rfl
  | cons change rest ih =>
      rw [List.foldl_cons, ih, find?_write, lastChange?, lastChange?, List.reverse_cons,
        firstChange?_append, firstChange?_single]
      cases firstChange? rest.reverse key with
      | some last => rfl
      | none =>
          by_cases own : key = change.key
          · simp [own, Record.renewed]
          · simp [own]

/-- What an update of a single record does: it fails, it is refused because another version is
stored, or it replaces the record. -/
inductive UpdateEnd (change : Record) (before : Records) :
    Except StoreError (List Record) → Records → Prop
  | failed (error : StoreError) : UpdateEnd change before (.error error) before
  | refused (stored : Record) (found : before.find? change.key = some stored)
      (other : stored.version ≠ change.version) : UpdateEnd change before (.ok [stored]) before
  | written (stored : Record) (found : before.find? change.key = some stored)
      (same : stored.version = change.version) :
      UpdateEnd change before (.ok []) (before.write change)

variable {change : Record} {before after : Records} {result : Except StoreError (List Record)}

theorem UpdateEnd.replaced (ends : UpdateEnd change before result after) :
    after = before ∨ ∃ stored, before.find? change.key = some stored := by
  cases ends with
  | failed error => exact .inl rfl
  | refused stored found mismatch => exact .inl rfl
  | written stored found same => exact .inr ⟨stored, found⟩

theorem UpdateEnd.elsewhere {key : String}
    (ends : UpdateEnd change before result after) (other : key ≠ change.key) :
    after.find? key = before.find? key := by
  cases ends with
  | failed error => rfl
  | refused stored found mismatch => rfl
  | written stored found same =>
      rw [Records.find?_write]
      exact if_neg other

/-- What an update of a single record does to the records alone. A missing record is an error. -/
theorem Records.update_single (records : Records) (change : Record) :
    (records.update [change] = (.error change.key, records) ∧
      records.find? change.key = none) ∨
    ∃ result after, records.update [change] = (.ok result, after) ∧
      UpdateEnd change records (.ok result) after := by
  cases found : records.find? change.key with
  | none =>
      refine .inl ⟨?_, rfl⟩
      simp [Records.update, Records.missing?, Table.contains, found]
  | some stored =>
      refine .inr ?_
      have present : Records.missing? records [change] = none := by
        simp [Records.missing?, Table.contains, found]
      by_cases same : stored.version = change.version
      · have matching : Records.mismatches records [change] = [] := by
          simp [Records.mismatches, Records.mismatch?, found, same]
        refine ⟨[], records.write change, ?_, .written stored found same⟩
        simp only [Records.update, present, matching, List.foldl_cons, List.foldl_nil]
      · have own : records.mismatch? change = some stored := by
          simp [Records.mismatch?, found, same]
        have mismatching : Records.mismatches records [change] = [stored] := by
          simp [Records.mismatches, own]
        refine ⟨[stored], records, ?_, .refused stored found same⟩
        simp only [Records.update, present, mismatching]

namespace Records

variable {records : Records} {changes found : List Record} {change : Record} {key : String}

/-- Nothing is stored under the key, and it is the first such key of the changes. -/
def IsFirstMissing (records : Records) (changes : List Record) (key : String) : Prop :=
  records.find? key = none ∧
    ∃ front change back, changes = front ++ change :: back ∧ change.key = key ∧
      ∀ earlier ∈ front, records.find? earlier.key ≠ none

/-- The version that is stored under the key of the change, if any, is not the expected one. -/
def IsStale (records : Records) (change : Record) : Prop :=
  (records.find? change.key).map Record.version ≠ some change.version

instance : DecidablePred (IsStale records) := fun _ => inferInstanceAs (Decidable (¬ _))

/-- A change of a record that is there, but at another version. -/
def IsOutdated (records : Records) (change : Record) : Prop :=
  ∃ stored ∈ records.find? change.key, stored.version ≠ change.version

instance : DecidablePred (IsOutdated records) := fun _ =>
  inferInstanceAs (Decidable (∃ stored ∈ _, _))

theorem missing?_eq_some :
    records.missing? changes = some key ↔ records.IsFirstMissing changes key := by
  rw [missing?, Option.map_eq_some_iff]
  simp only [List.find?_eq_some_iff_append, Table.contains, Bool.not_not, Bool.not_eq_true',
    Option.isSome_eq_false_iff, Option.isNone_iff_eq_none, Option.isSome_iff_ne_none]
  constructor
  · rintro ⟨change, ⟨missing, front, back, rfl, present⟩, rfl⟩
    exact ⟨missing, front, change, back, rfl, rfl, present⟩
  · rintro ⟨missing, front, change, back, rfl, rfl, present⟩
    exact ⟨change, ⟨missing, front, back, rfl, present⟩, rfl⟩

theorem IsFirstMissing.unique {other : String} (first : records.IsFirstMissing changes key)
    (also : records.IsFirstMissing changes other) : key = other :=
  Option.some.inj ((missing?_eq_some.mpr first).symm.trans (missing?_eq_some.mpr also))

theorem IsFirstMissing.not_present (first : records.IsFirstMissing changes key) :
    ¬ ∀ change ∈ changes, records.find? change.key ≠ none := by
  obtain ⟨absent, front, change, back, rfl, rfl, -⟩ := first
  exact fun present => present change (List.mem_append_right _ List.mem_cons_self) absent

theorem missing?_eq_none :
    records.missing? changes = none ↔ ∀ change ∈ changes, records.find? change.key ≠ none := by
  simp [missing?, Table.contains]

/-- The records that are given back are those under the keys of the outdated changes, in their
order. -/
theorem mismatches_eq (records : Records) (changes : List Record) :
    (records.mismatches changes).map some =
      (changes.filter records.IsOutdated).map fun change => records.find? change.key := by
  induction changes with
  | nil => rfl
  | cons change rest ih =>
      simp only [mismatches] at ih ⊢
      by_cases outdated : records.IsOutdated change
      · obtain ⟨stored, found, other⟩ := id outdated
        have given : records.mismatch? change = some stored := by
          rw [mismatch?, found, Option.filter_some, if_pos (by simpa using other)]
        rw [List.filterMap_cons_some given, List.filter_cons_of_pos (by simpa using outdated),
          List.map_cons, List.map_cons, ih, found]
      · have kept : records.mismatch? change = none := by
          rw [mismatch?, Option.filter_eq_none_iff]
          intro stored found
          simpa using fun other => outdated ⟨stored, found, other⟩
        rw [List.filterMap_cons_none kept, List.filter_cons_of_neg (by simpa using outdated), ih]

theorem mismatches_eq_nil_iff :
    records.mismatches changes = [] ↔ ∀ change ∈ changes, ¬ records.IsOutdated change := by
  rw [← List.map_eq_nil_iff (f := some), mismatches_eq, List.map_eq_nil_iff, List.filter_eq_nil_iff]
  simp

/-- Of changes that all have a record, the stale ones are those that are outdated. -/
theorem mismatches_map_some (present : ∀ change ∈ changes, records.find? change.key ≠ none) :
    (records.mismatches changes).map some =
      (changes.filter records.IsStale).map fun change => records.find? change.key := by
  have same : ∀ change ∈ changes, records.IsOutdated change ↔ records.IsStale change := by
    intro change member
    obtain ⟨stored, found⟩ := Option.ne_none_iff_exists'.mp (present change member)
    simp [IsOutdated, IsStale, found]
  rw [mismatches_eq, List.filter_congr fun change member => decide_eq_decide.mpr (same change member)]

/-- What is stored under the keys of the stale changes is told by one list of records only. -/
theorem ok_eq_iff_of_stale {other : List Record}
    (present : ∀ change ∈ changes, records.find? change.key ≠ none)
    (stale : found.map some =
      (changes.filter records.IsStale).map fun change => records.find? change.key) :
    (Except.ok found : Except StoreError (List Record)) = .ok other ↔
      (∀ change ∈ changes, records.find? change.key ≠ none) ∧
        other.map some =
          (changes.filter records.IsStale).map fun change => records.find? change.key := by
  constructor
  · rintro ⟨⟩
    exact ⟨present, stale⟩
  · rintro ⟨-, also⟩
    rw [List.map_injective_iff.mpr (fun _ _ => Option.some.inj) (stale.trans also.symm)]

/-- The three ways in which an update can end. -/
inductive Updated (records : Records) (changes : List Record) :
    Except String (List Record) × Records → Prop
  | missing (key : String) (first : records.IsFirstMissing changes key) :
      Updated records changes (.error key, records)
  | refused (found : List Record)
      (present : ∀ change ∈ changes, records.find? change.key ≠ none)
      (stale : found.map some =
        (changes.filter records.IsStale).map fun change => records.find? change.key)
      (some : found ≠ []) : Updated records changes (.ok found, records)
  | written (present : ∀ change ∈ changes, records.find? change.key ≠ none)
      (fresh : ∀ change ∈ changes, ¬ records.IsStale change) :
      Updated records changes (.ok [], changes.foldl write records)

theorem updated (records : Records) (changes : List Record) :
    Updated records changes (records.update changes) := by
  cases missing : records.missing? changes with
  | some key =>
      simp only [update, missing]
      exact .missing key (missing?_eq_some.mp missing)
  | none =>
      have present := missing?_eq_none.mp missing
      have stale := mismatches_map_some present
      simp only [update, missing]
      generalize records.mismatches changes = found at stale
      cases found with
      | nil =>
          refine .written present ?_
          simpa using stale.symm
      | cons first rest => exact .refused _ present stale (List.cons_ne_nil _ _)

end Records

namespace Backend

/-- No fault hits the updates to come. -/
structure Clear (backend : Backend) : Prop where
  accepted : backend.faults.internalUpdates = 0
  honest : backend.faults.foreignMismatches = 0
  carriedOut : backend.faults.failedUpdates = 0

variable {backend : Backend} {changes : List Record}

theorem Clear.update (clear : backend.Clear) (changes : List Record) :
    ∃ after, backend.update changes =
        ((backend.records.update changes).1.mapError .notFound, after) ∧
      after.records = (backend.records.update changes).2 ∧ after.Clear := by
  have kept : ∀ other : Backend, other.faults = backend.faults → other.Clear := by
    intro other same
    exact ⟨same ▸ clear.accepted, same ▸ clear.honest, same ▸ clear.carriedOut⟩
  unfold Backend.update startUpdate finishUpdate
  simp only [clear.accepted, clear.honest, clear.carriedOut, Nat.lt_irrefl, if_false]
  have ends := backend.records.updated changes
  generalize backend.records.update changes = outcome at ends
  cases ends with
  | missing key first => exact ⟨_, rfl, rfl, kept _ rfl⟩
  | refused found present stale some => exact ⟨_, rfl, rfl, kept _ rfl⟩
  | written present fresh => exact ⟨_, rfl, rfl, kept _ rfl⟩

/-- An update fails if and only if a key of its changes has no record, for the first such key. If none
has, it gives back what is stored under the keys of the stale changes, in their order. It writes
nothing unless that is nothing at all; then the last change of each key has been stored, at the
version after its own, and the other keys are as they were. -/
theorem update_exact (clear : backend.Clear) (changes : List Record) :
    let records := backend.records
    ∃ result after, backend.update changes = (result, after) ∧
      (∀ error, result = .error error ↔
        ∃ key, error = .notFound key ∧ records.IsFirstMissing changes key) ∧
      (∀ found, result = .ok found ↔
        (∀ change ∈ changes, records.find? change.key ≠ none) ∧
          found.map some =
            (changes.filter records.IsStale).map fun change => records.find? change.key) ∧
      (result ≠ .ok [] → after.records = records) ∧
      (result = .ok [] → ∀ key, after.records.find? key =
        ((lastChange? changes key).map Record.renewed).or (records.find? key)) := by
  intro records
  obtain ⟨after, given, left, -⟩ := clear.update changes
  refine ⟨_, after, given, ?_⟩
  rw [left]
  have ends := backend.records.updated changes
  generalize backend.records.update changes = outcome at ends
  cases ends with
  | missing key first =>
      refine ⟨fun error => ⟨?_, ?_⟩, fun found => ⟨nofun, ?_⟩, fun _ => rfl, nofun⟩
      · rintro ⟨⟩
        exact ⟨key, rfl, first⟩
      · rintro ⟨other, rfl, also⟩
        rw [first.unique also]
        rfl
      · rintro ⟨present, -⟩
        exact absurd present first.not_present
  | refused found present stale some =>
      refine ⟨fun error => ⟨nofun, ?_⟩, fun other => Records.ok_eq_iff_of_stale present stale,
        fun _ => rfl, ?_⟩
      · rintro ⟨key, -, first⟩
        exact absurd present first.not_present
      · rintro ⟨⟩
        exact absurd rfl some
  | written present fresh =>
      have stale : ([] : List Record).map some =
          (changes.filter records.IsStale).map fun change => records.find? change.key := by
        simpa using fresh
      refine ⟨fun error => ⟨nofun, ?_⟩, fun other => Records.ok_eq_iff_of_stale present stale,
        fun other => absurd rfl other, ?_⟩
      · rintro ⟨key, -, first⟩
        exact absurd present first.not_present
      · exact fun _ key => Records.find?_foldl_write _ _ key

/-- A store with two records. -/
def sampleBackend : Backend :=
  { empty with records :=
      (Records.put .empty ⟨"a", [1], ⟨3⟩, .epoch⟩).put ⟨"b", [2], ⟨5⟩, .epoch⟩ }

/-- A change that is stale comes before one without a record, and the last change of a key is
stored. -/
theorem update_exact_repeated :
    let changes : List Record :=
      [⟨"a", [7], ⟨3⟩, .epoch⟩, ⟨"b", [8], ⟨5⟩, .epoch⟩, ⟨"a", [9], ⟨3⟩, .epoch⟩]
    sampleBackend.Clear ∧
    (∃ after, sampleBackend.update changes = (.ok [], after) ∧
      after.records.find? "a" = some ⟨"a", [9], ⟨4⟩, .epoch⟩ ∧
      after.records.find? "b" = some ⟨"b", [8], ⟨6⟩, .epoch⟩) ∧
    ∃ after, sampleBackend.update [⟨"a", [7], ⟨2⟩, .epoch⟩, ⟨"c", [8], ⟨1⟩, .epoch⟩] =
        (.error (.notFound "c"), after) ∧ after.records = sampleBackend.records := by
  intro changes
  have clear : sampleBackend.Clear := ⟨rfl, rfl, rfl⟩
  refine ⟨clear, ?_, ?_⟩
  · obtain ⟨result, after, given, -, found, -, stored⟩ := update_exact clear changes
    have accepted : result = .ok [] := (found []).mpr (by decide +kernel)
    subst accepted
    exact ⟨after, given, (stored rfl "a").trans (by decide), (stored rfl "b").trans (by decide)⟩
  · obtain ⟨result, after, given, missing, -, unchanged, -⟩ :=
      update_exact clear [⟨"a", [7], ⟨2⟩, .epoch⟩, ⟨"c", [8], ⟨1⟩, .epoch⟩]
    have refused : result = .error (.notFound "c") :=
      (missing _).mpr ⟨"c", rfl, by decide, [⟨"a", [7], ⟨2⟩, .epoch⟩], _, [], rfl, rfl, by decide⟩
    subst refused
    exact ⟨after, given, unchanged nofun⟩

end Backend

end ClaimStore
