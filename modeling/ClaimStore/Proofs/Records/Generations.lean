import ClaimStore.Proofs.Records.CreateDelete
import ClaimStore.Proofs.Records.Singles
import Mathlib.Data.List.DropRight
import Mathlib.Data.Nat.ModEq

/-!
What the version of a record tells.

A record is created at the first version, and every update of it that is accepted moves it on to the
next one, once round the cycle of valid versions and on from the first. So its version tells how often
it has been updated since it was created, up to full rounds of the cycle. Nothing else moves a version,
whatever faults hit the calls.
-/
namespace ClaimStore

/-- A call of a record store, or a change of its faults and of the time that an update takes. The start
and the end of an update may be calls of their own, with others in between, and an update that has been
started may be abandoned. -/
inductive StoreUse
  | get (keys : List String)
  | create (list : List Record)
  | delete (changes : List Record)
  | update (changes : List Record)
  | startUpdate (changes : List Record)
  | finishUpdate (changes : List Record)
  | abandonUpdate
  | inject (faults : Faults) (updateDelay : Option Nat)

/-- What can happen to a key: a record is created under it, or its record is updated. -/
inductive KeyEvent
  | created
  | updated
  deriving DecidableEq

/-- What becomes of a key: of what is stored under it, and of the event that this is. -/
inductive KeyMove (before : Option Record) : Option KeyEvent → Option Record → Prop
  | untouched : KeyMove before none before
  | created (record : Record) (free : before = none) :
      KeyMove before (some .created) (some record.created)
  | updated (stored change : Record) (found : before = some stored)
      (same : stored.version = change.version) :
      KeyMove before (some .updated) (some change.renewed)
  | removed : KeyMove before none none

/-- The end of an update as it shows from outside: unless it is accepted, nothing is written. -/
inductive Records.Concluded (records : Records) (changes : List Record) :
    Except StoreError (List Record) → Records → Prop
  | kept (result : Except StoreError (List Record)) (refused : result ≠ .ok []) :
      Concluded records changes result records
  | written (fresh : ∀ change ∈ changes, ¬ records.IsStale change) :
      Concluded records changes (.ok []) (changes.foldl write records)

theorem lastChange?_eq_none_iff {changes : List Record} {key : String} :
    lastChange? changes key = none ↔ key ∉ changes.map Record.key := by
  simp [lastChange?, firstChange?]

/-- An update that is accepted makes of the record of each of its keys the next version. -/
theorem Records.Concluded.move {records after : Records} {changes : List Record}
    {result : Except StoreError (List Record)} (concluded : records.Concluded changes result after)
    (key : String) :
    KeyMove (records.find? key)
      (if key ∈ changes.map Record.key ∧ result = .ok [] then some .updated else none)
      (after.find? key) := by
  cases concluded with
  | kept result refused =>
      rw [if_neg fun accepted => refused accepted.2]
      exact .untouched
  | written fresh =>
      rw [find?_foldl_write]
      cases last : lastChange? changes key with
      | none =>
          rw [if_neg fun listed => lastChange?_eq_none_iff.mp last listed.1]
          exact .untouched
      | some change =>
          have member : change ∈ changes ∧ change.key = key := by
            obtain ⟨member, own⟩ := key_of_firstChange? last
            exact ⟨List.mem_reverse.mp member, own⟩
          obtain ⟨stored, found, same⟩ := not_isStale.mp (fresh change member.1)
          rw [if_pos ⟨List.mem_map.mpr ⟨change, member⟩, rfl⟩]
          exact .updated stored change (member.2 ▸ found) same

/-- An update is refused if it has a change of a key that is free or has another version. -/
theorem Records.Concluded.refused {records after : Records} {changes : List Record}
    {change : Record} {result : Except StoreError (List Record)}
    (concluded : records.Concluded changes result after) (member : change ∈ changes)
    (stale : records.IsStale change) : result ≠ .ok [] ∧ after = records := by
  cases concluded with
  | kept result refused => exact ⟨refused, rfl⟩
  | written fresh => exact absurd stale (fresh change member)

namespace Backend

variable {backend : Backend} {changes : List Record}

theorem finishUpdate_concluded (backend : Backend) (changes : List Record) :
    backend.records.Concluded changes (backend.finishUpdate changes).1
      (backend.finishUpdate changes).2.records := by
  unfold finishUpdate
  dsimp only
  split
  · exact .kept _ nofun
  · have ends := backend.records.updated changes
    generalize backend.records.update changes = outcome at ends
    cases ends with
    | missing key first => exact .kept _ nofun
    | refused found present stale some =>
        refine .kept _ fun accepted => some ?_
        exact Except.ok.inj accepted
    | written present fresh => exact .written fresh

theorem startUpdate_records (backend : Backend) (changes : List Record) :
    (backend.startUpdate changes).2.records = backend.records := by
  unfold startUpdate
  dsimp only
  split_ifs <;> rfl

/-- An update that is answered at its start is accepted only if it has no changes. -/
theorem startUpdate_answered {after : Backend} {result : Except StoreError (List Record)}
    (started : backend.startUpdate changes = (.answered result, after)) :
    result ≠ .ok [] ∨ changes = [] ∧ result = .ok [] := by
  unfold startUpdate at started
  dsimp only at started
  split at started
  · cases started
    exact .inl nofun
  · split at started
    · cases started
      cases changes with
      | nil => exact .inr ⟨rfl, rfl⟩
      | cons change rest => exact .inl nofun
    · cases started

theorem update_concluded (backend : Backend) (changes : List Record) :
    backend.records.Concluded changes (backend.update changes).1
      (backend.update changes).2.records := by
  have same := backend.startUpdate_records changes
  unfold update
  cases started : backend.startUpdate changes with
  | mk start after =>
      rw [started] at same
      cases start with
      | started delay => exact same ▸ after.finishUpdate_concluded changes
      | answered result =>
          dsimp only at same ⊢
          rw [same]
          rcases startUpdate_answered started with refused | ⟨rfl, rfl⟩
          · exact .kept result refused
          · exact .written nofun

def use (backend : Backend) : StoreUse → Backend
  | .get keys => (backend.get keys).2
  | .create list => (backend.create list).2
  | .delete changes => (backend.delete changes).2
  | .update changes => (backend.update changes).2
  | .startUpdate changes => (backend.startUpdate changes).2
  | .finishUpdate changes => (backend.finishUpdate changes).2
  | .abandonUpdate => backend.abandonUpdate
  | .inject faults updateDelay => { backend with faults, updateDelay }

def useAll (backend : Backend) (uses : List StoreUse) : Backend := uses.foldl use backend

/-- What a call makes of a key. A record is created under a key that was free and is taken
afterwards. A record is updated by an update that lists its key and gives back no mismatch. -/
def keyEvent? (backend : Backend) (key : String) : StoreUse → Option KeyEvent
  | .create list =>
      if backend.records.find? key = none ∧ (backend.create list).2.records.find? key ≠ none then
        some .created
      else none
  | .update changes =>
      if key ∈ changes.map Record.key ∧ (backend.update changes).1 = .ok [] then some .updated
      else none
  | .finishUpdate changes =>
      if key ∈ changes.map Record.key ∧ (backend.finishUpdate changes).1 = .ok [] then
        some .updated
      else none
  | .get _ | .delete _ | .startUpdate _ | .abandonUpdate | .inject _ _ => none

/-- What happens to a key, in the order in which it happens. -/
def keyEvents (key : String) : Backend → List StoreUse → List KeyEvent
  | _, [] => []
  | backend, use :: rest => (backend.keyEvent? key use).toList ++ keyEvents key (backend.use use) rest

/-- How many updates of the key have been accepted since a record was last created under it, in a store
that was empty at first. -/
def generation (uses : List StoreUse) (key : String) : Nat :=
  ((keyEvents key empty uses).rtakeWhile (· ≠ .created)).count .updated

theorem find?_create (backend : Backend) (list : List Record) (key : String) :
    (backend.create list).2.records.find? key = backend.records.find? key ∨
      (backend.create list).2.records.find? key =
        (backend.records.find? key).or ((firstChange? list key).map Record.created) := by
  unfold Backend.create
  dsimp only
  split
  · exact .inl rfl
  · split
    · exact .inl rfl
    · exact .inr (Records.find?_create backend.records list key)

theorem create_move (backend : Backend) (list : List Record) (key : String) :
    KeyMove (backend.records.find? key) (backend.keyEvent? key (.create list))
      ((backend.create list).2.records.find? key) := by
  have left := backend.find?_create list key
  rw [keyEvent?]
  cases found : backend.records.find? key with
  | some stored =>
      rw [found, Option.some_or, or_self] at left
      rw [left, if_neg (by simp)]
      exact .untouched
  | none =>
      rw [found, Option.none_or] at left
      cases made : (backend.create list).2.records.find? key with
      | none =>
          rw [if_neg (by simp)]
          exact .untouched
      | some record =>
          rw [made] at left
          obtain ⟨entry, -, rfl⟩ := Option.map_eq_some_iff.mp (left.resolve_left nofun).symm
          rw [if_pos (by simp)]
          exact .created entry rfl

theorem delete_move (backend : Backend) (changes : List Record) (key : String) :
    KeyMove (backend.records.find? key) none ((backend.delete changes).2.records.find? key) := by
  rw [delete_eq]
  dsimp only
  split
  · have left := Records.find?_foldl_erase backend.records changes key
    split at left
    · exact left ▸ .removed
    · exact left ▸ .untouched
  · exact .untouched

/-- Each call does one of four things to each key. -/
theorem use_move (backend : Backend) (use : StoreUse) (key : String) :
    KeyMove (backend.records.find? key) (backend.keyEvent? key use)
      ((backend.use use).records.find? key) := by
  cases use with
  | get keys =>
      have same : (backend.get keys).2.records = backend.records := by
        unfold Backend.get
        dsimp only
        split_ifs <;> rfl
      rw [Backend.use, same]
      exact .untouched
  | create list => exact backend.create_move list key
  | delete changes => exact backend.delete_move changes key
  | update changes => exact (backend.update_concluded changes).move key
  | startUpdate changes =>
      rw [Backend.use, startUpdate_records]
      exact .untouched
  | finishUpdate changes => exact (backend.finishUpdate_concluded changes).move key
  | abandonUpdate | inject => exact .untouched

theorem keyEvents_append (key : String) (backend : Backend) (front : List StoreUse)
    (use : StoreUse) :
    keyEvents key backend (front ++ [use]) =
      keyEvents key backend front ++ ((backend.useAll front).keyEvent? key use).toList := by
  induction front generalizing backend with
  | nil => exact List.append_nil _
  | cons first rest ih =>
      rw [List.cons_append, keyEvents, keyEvents, ih, List.append_assoc]
      rfl

theorem useAll_append (backend : Backend) (front : List StoreUse) (use : StoreUse) :
    backend.useAll (front ++ [use]) = (backend.useAll front).use use :=
  List.foldl_concat ..

theorem generation_append (front : List StoreUse) (use : StoreUse) (key : String) :
    generation (front ++ [use]) key =
      match (empty.useAll front).keyEvent? key use with
      | none => generation front key
      | some .created => 0
      | some .updated => generation front key + 1 := by
  rw [generation, keyEvents_append]
  cases (empty.useAll front).keyEvent? key use with
  | none => rw [Option.toList_none, List.append_nil, generation]
  | some event =>
      cases event with
      | created => rw [Option.toList_some, List.rtakeWhile_concat_neg _ _ _ (by simp)]; rfl
      | updated =>
          rw [Option.toList_some, List.rtakeWhile_concat_pos _ _ _ (by simp), List.count_append]
          rfl

/-- The version of a record is valid, and as far round the cycle as its generation. -/
theorem place_eq_generation (uses : List StoreUse) (key : String) :
    ∀ stored, (empty.useAll uses).records.find? key = some stored →
      stored.version.isValid = true ∧ stored.version.place = generation uses key % Version.cycle := by
  induction uses using List.reverseRecOn with
  | nil => nofun
  | append_singleton front use ih =>
      intro stored found
      have move := (empty.useAll front).use_move use key
      rw [useAll_append] at found
      rw [generation_append]
      rw [found] at move
      generalize (empty.useAll front).keyEvent? key use = event at move ⊢
      generalize (empty.useAll front).records.find? key = before at move ih
      cases move with
      | untouched => exact ih stored rfl
      | created record free => exact ⟨rfl, rfl⟩
      | updated earlier change expected same =>
          obtain ⟨valid, placed⟩ := ih earlier expected
          refine ⟨change.version.next_isValid, ?_⟩
          rw [same] at valid placed
          exact (Version.place_next valid).trans (by rw [placed, Nat.mod_add_mod])

/-- The version of a record is the first one, moved on once for every update that has been accepted
since the record was created, with a new round of the cycle after the greatest version. So no record has
the invalid version, an update that expects it of a record writes nothing, and a version comes back only
after full rounds. -/
theorem versions_count_updates (uses : List StoreUse) :
    let backend := empty.useAll uses
    (∀ key stored, backend.records.find? key = some stored →
      stored.version.val.toNat = 1 + generation uses key % Version.cycle ∧
        stored.version ≠ .invalid) ∧
    (∀ changes, (∃ change ∈ changes, change.version = .invalid) →
      ((backend.update changes).1 ≠ .ok [] ∧
        (backend.update changes).2.records = backend.records) ∧
      (backend.finishUpdate changes).1 ≠ .ok [] ∧
        (backend.finishUpdate changes).2.records = backend.records) ∧
    ∀ early late key first second,
      (empty.useAll (uses.take early)).records.find? key = some first →
      (empty.useAll (uses.take late)).records.find? key = some second →
      first.version = second.version →
      generation (uses.take early) key ≡ generation (uses.take late) key [MOD Version.cycle] := by
  intro backend
  have valid : ∀ key stored, backend.records.find? key = some stored →
      stored.version ≠ .invalid := by
    intro key stored found
    obtain ⟨valid, -⟩ := place_eq_generation uses key stored found
    exact of_decide_eq_true valid
  refine ⟨?_, ?_, ?_⟩
  · intro key stored found
    obtain ⟨isValid, placed⟩ := place_eq_generation uses key stored found
    refine ⟨?_, valid key stored found⟩
    have positive := Version.toNat_pos isValid
    rw [← placed, Version.place]
    omega
  · rintro changes ⟨change, member, unknown⟩
    have stale : backend.records.IsStale change := by
      intro expected
      obtain ⟨stored, found, same⟩ := Option.map_eq_some_iff.mp expected
      exact valid change.key stored found (same.trans unknown)
    exact ⟨(backend.update_concluded changes).refused member stale,
      (backend.finishUpdate_concluded changes).refused member stale⟩
  · intro early late key first second before after same
    obtain ⟨-, earlier⟩ := place_eq_generation (uses.take early) key first before
    obtain ⟨-, later⟩ := place_eq_generation (uses.take late) key second after
    rw [same] at earlier
    exact earlier.symm.trans later

/-- A record or change of one key. -/
def sampleChange (version : UInt32) : Record := ⟨"a", [], ⟨version⟩, .epoch⟩

/-- A record is created, updated by two changes at once, updated again after an update that fails,
deleted, created anew and updated. -/
def sampleUses : List StoreUse :=
  [.create [sampleChange 7, sampleChange 9], .update [sampleChange 1, sampleChange 1],
    .inject { failedUpdates := 1 } none, .update [sampleChange 2], .update [sampleChange 2],
    .delete [sampleChange 3], .create [sampleChange 5], .update [sampleChange 1]]

theorem versions_count_updates_anew :
    (empty.useAll (sampleUses.take 2)).records.find? "a" = some (sampleChange 2) ∧
    (empty.useAll sampleUses).records.find? "a" = some (sampleChange 2) ∧
    generation sampleUses "a" = 1 ∧
    (sampleChange 2).version.val.toNat = 1 + generation sampleUses "a" % Version.cycle ∧
    ((empty.useAll sampleUses).update [sampleChange 0]).2.records =
      (empty.useAll sampleUses).records ∧
    generation (sampleUses.take 2) "a" ≡ generation (sampleUses.take 8) "a" [MOD Version.cycle] := by
  have early : (empty.useAll (sampleUses.take 2)).records.find? "a" = some (sampleChange 2) := by
    decide +kernel
  have whole : sampleUses.take 8 = sampleUses := rfl
  have late : (empty.useAll sampleUses).records.find? "a" = some (sampleChange 2) := by
    decide +kernel
  obtain ⟨counts, refused, again⟩ := versions_count_updates sampleUses
  refine ⟨early, late, by decide +kernel, (counts "a" _ late).1, ?_, again 2 8 "a" _ _ early ?_ rfl⟩
  · exact (refused [sampleChange 0] ⟨_, List.mem_singleton_self _, rfl⟩).1.2
  · rwa [whole]

end Backend

end ClaimStore
