import ClaimStore.Proofs.Records.Updates

/-!
Creating and deleting several records.

A creation writes while it goes through its records, so a key that is listed twice is taken the second
time. A deletion looks at all its changes before it removes any record, and passes over keys without a
record. Still, both do what their entries do one after the other, unless a deletion is refused.
-/
namespace ClaimStore

/-- A record as it is stored when it is created: at the first version, whatever its own is. -/
def Record.created (record : Record) : Record := { record with version := .first }

namespace Records

variable {records : Records} {list changes : List Record} {record change : Record} {key : String}

theorem find?_createOne (records : Records) (record : Record) (key : String) :
    (records.createOne record).find? key =
      (records.find? key).or (if key = record.key then some record.created else none) := by
  cases found : records.find? record.key with
  | none =>
      have free : records.contains record.key = false := by rw [Table.contains, found]; rfl
      rw [createOne, free, put, if_neg Bool.false_ne_true, Table.find?_insert]
      by_cases own : key = record.key
      · rw [if_pos own, if_pos own, own, found]
        rfl
      · rw [if_neg own, if_neg own, Option.or_none]
  | some stored =>
      have taken : records.contains record.key = true := by rw [Table.contains, found]; rfl
      rw [createOne, if_pos taken]
      by_cases own : key = record.key
      · rw [own, found]
        rfl
      · rw [if_neg own, Option.or_none]

/-- What is stored under a key after a creation: what was there, or else the first of the created
records. -/
theorem find?_create (records : Records) (list : List Record) (key : String) :
    (records.create list).2.find? key =
      (records.find? key).or ((firstChange? list key).map Record.created) := by
  induction list generalizing records with
  | nil => exact (Option.or_none).symm
  | cons record rest ih =>
      have first : firstChange? (record :: rest) key =
          (if key = record.key then some record else none).or (firstChange? rest key) := by
        rw [← firstChange?_single, ← firstChange?_append, List.singleton_append]
      rw [create, ih, find?_createOne, first, Option.or_assoc]
      by_cases own : key = record.key
      · simp [own]
      · simp [own]

theorem find?_foldl_erase (records : Records) (changes : List Record) (key : String) :
    (changes.foldl (fun records change => records.erase change.key) records).find? key =
      if key ∈ changes.map Record.key then none else records.find? key := by
  induction changes generalizing records with
  | nil => rfl
  | cons change rest ih =>
      rw [List.foldl_cons, ih, Table.find?_erase]
      by_cases listed : key ∈ rest.map Record.key
      · simp [listed]
      · by_cases own : key = change.key
        · simp [own]
        · simp [own, listed]

end Records

namespace Backend

variable {backend : Backend} {list changes : List Record} {record change : Record}

/-- No fault hits the creations to come. -/
structure Receptive (backend : Backend) : Prop where
  answered : backend.faults.failedCreates = 0
  carriedOut : backend.faults.lostCreates = 0

/-- The records created by calls of their own, one after the other: what is given back for each of
them, and the store in the end. -/
def createEach (backend : Backend) :
    List Record → List (Except StoreError (List String)) × Backend
  | [] => ([], backend)
  | record :: rest =>
      let (result, after) := backend.create [record]
      let (results, last) := after.createEach rest
      (result :: results, last)

/-- The records deleted by calls of their own, one after the other. -/
def deleteEach (backend : Backend) : List Record → List (List Record) × Backend
  | [] => ([], backend)
  | change :: rest =>
      let (found, after) := backend.delete [change]
      let (results, last) := after.deleteEach rest
      (found :: results, last)

theorem Receptive.create (receptive : backend.Receptive) (list : List Record) :
    backend.create list =
      (.ok (backend.records.create list).1,
        { backend with records := (backend.records.create list).2 }) := by
  simp only [Backend.create, receptive.answered, receptive.carriedOut, Nat.lt_irrefl, if_false]

/-- What the single creations give back is, put together, what the creation as a whole gives back. -/
theorem Receptive.createEach (receptive : backend.Receptive) (list : List Record) :
    ∃ parts : List (List String),
      backend.createEach list =
        (parts.map .ok, { backend with records := (backend.records.create list).2 }) ∧
      parts.flatten = (backend.records.create list).1 ∧
      ∀ place record, list[place]? = some record →
        parts[place]? =
          some (if backend.records.find? record.key = none ∧
              firstChange? (list.take place) record.key = none then [] else [record.key]) := by
  induction list generalizing backend with
  | nil => exact ⟨[], rfl, rfl, nofun⟩
  | cons record rest ih =>
      let next : Backend := { backend with records := backend.records.createOne record }
      let part : List String := if backend.records.contains record.key then [record.key] else []
      have onward : next.Receptive := ⟨receptive.answered, receptive.carriedOut⟩
      have first : backend.create [record] = (.ok part, next) := by
        rw [receptive.create]
        rfl
      obtain ⟨parts, each, whole, given⟩ := ih onward
      refine ⟨part :: parts, ?_, ?_, ?_⟩
      · rw [Backend.createEach, first]
        simp only [each]
        rfl
      · rw [List.flatten_cons, whole, Records.create]
        by_cases taken : backend.records.contains record.key = true
        · simp only [part, if_pos taken, List.singleton_append, next]
        · simp only [part, if_neg taken, List.nil_append, next]
      · intro place other listed
        cases place with
        | zero =>
            cases listed
            cases found : backend.records.find? record.key <;>
              simp [part, Table.contains, found, firstChange?]
        | succ place =>
            have free : (next.records.find? other.key = none ∧
                  firstChange? (rest.take place) other.key = none) ↔
                (backend.records.find? other.key = none ∧
                  firstChange? ((record :: rest).take (place + 1)) other.key = none) := by
              rw [List.take_succ_cons, ← List.singleton_append, firstChange?_append,
                firstChange?_single, Option.or_eq_none_iff, ← and_assoc]
              refine and_congr_left fun _ => ?_
              rw [Records.find?_createOne, Option.or_eq_none_iff]
              by_cases own : other.key = record.key <;> simp [own]
            rw [List.getElem?_cons_succ, given place other listed]
            simp only [free]

/-- The store without the records of the changes. -/
def without (backend : Backend) (changes : List Record) : Backend :=
  { backend with
    records := changes.foldl (fun records change => records.erase change.key) backend.records }

theorem delete_eq (backend : Backend) (changes : List Record) :
    backend.delete changes =
      (backend.records.mismatches changes,
        if backend.records.mismatches changes = [] then backend.without changes else backend) := by
  cases found : backend.records.mismatches changes with
  | nil => simp only [Backend.delete, Records.delete, found, if_true, without]
  | cons first rest =>
      simp only [Backend.delete, Records.delete, found, reduceCtorEq, if_false]

theorem delete_of_expected (expected : ∀ change ∈ changes, ¬ backend.records.IsOutdated change) :
    backend.delete changes = ([], backend.without changes) := by
  rw [delete_eq, Records.mismatches_eq_nil_iff.mpr expected, if_pos rfl]

/-- Without outdated changes every single deletion is accepted. -/
theorem deleteEach_of_expected (expected : ∀ change ∈ changes, ¬ backend.records.IsOutdated change) :
    backend.deleteEach changes = (changes.map fun _ => [], backend.without changes) := by
  induction changes generalizing backend with
  | nil => rfl
  | cons change rest ih =>
      obtain ⟨here, later⟩ := List.forall_mem_cons.mp expected
      have still : ∀ other ∈ rest, ¬ (backend.without [change]).records.IsOutdated other := by
        rintro other member ⟨stored, found, moved⟩
        have kept := Records.find?_foldl_erase backend.records [change] other.key
        split at kept
        · cases kept.symm.trans found
        · exact later other member ⟨stored, kept.symm.trans found, moved⟩
      rw [deleteEach, delete_of_expected (List.forall_mem_singleton.mpr here)]
      simp only [ih still]
      rfl

/-- Creating several records does what creating each of them in its turn does, and gives back the same
keys. Each entry gives back its key if there was a record under it or it is listed before; a key that
was free holds the first of its entries in the end, at the first version, and the other records are as
they were. Deleting several records gives back what is stored under the keys of the outdated changes, in
their order. If that is anything, the store is as it was. If not, the listed keys are free in the end
and the other records are as they were, and deleting each of the records in its turn does the same. -/
theorem creates_and_deletes_each (receptive : backend.Receptive) :
    (∀ list : List Record, ∃ (parts : List (List String)) (after : Backend),
      backend.create list = (.ok parts.flatten, after) ∧
      backend.createEach list = (parts.map .ok, after) ∧
      (∀ place record, list[place]? = some record →
        parts[place]? =
          some (if backend.records.find? record.key = none ∧
              firstChange? (list.take place) record.key = none then [] else [record.key])) ∧
      ∀ key, after.records.find? key =
        (backend.records.find? key).or ((firstChange? list key).map Record.created)) ∧
    ∀ changes : List Record, ∃ found after,
      backend.delete changes = (found, after) ∧
      found.map some =
        (changes.filter backend.records.IsOutdated).map
          (fun change => backend.records.find? change.key) ∧
      (found ≠ [] → after = backend) ∧
      (found = [] →
        (∀ key, after.records.find? key =
          if key ∈ changes.map Record.key then none else backend.records.find? key) ∧
        backend.deleteEach changes = (changes.map fun _ => [], after)) := by
  constructor
  · intro list
    obtain ⟨parts, each, whole, given⟩ := receptive.createEach list
    refine ⟨parts, _, ?_, each, given, Records.find?_create backend.records list⟩
    rw [receptive.create, whole]
  · intro changes
    have listed := Records.mismatches_eq backend.records changes
    refine ⟨_, _, backend.delete_eq changes, listed, fun some => if_neg some, fun none => ?_⟩
    rw [if_pos none]
    exact ⟨Records.find?_foldl_erase backend.records changes,
      deleteEach_of_expected (Records.mismatches_eq_nil_iff.mp none)⟩

/-- A key that is listed twice is created from its first record and taken the second time. A deletion of
a key that is listed twice is accepted, and one that expects another version is refused. -/
theorem creates_and_deletes_each_repeated :
    let list : List Record :=
      [⟨"c", [7], ⟨9⟩, .epoch⟩, ⟨"a", [8], ⟨3⟩, .epoch⟩, ⟨"c", [9], ⟨9⟩, .epoch⟩]
    let changes : List Record :=
      [⟨"a", [], ⟨3⟩, .epoch⟩, ⟨"z", [], ⟨1⟩, .epoch⟩, ⟨"a", [], ⟨3⟩, .epoch⟩]
    sampleBackend.Receptive ∧
    (∃ (parts : List (List String)) (after : Backend),
      sampleBackend.create list = (.ok parts.flatten, after) ∧
      sampleBackend.createEach list = (parts.map .ok, after) ∧
      parts[0]? = some [] ∧ parts[1]? = some ["a"] ∧ parts[2]? = some ["c"] ∧
      after.records.find? "c" = some ⟨"c", [7], ⟨1⟩, .epoch⟩) ∧
    (∃ after, sampleBackend.delete changes = ([], after) ∧
      sampleBackend.deleteEach changes = ([[], [], []], after) ∧
      after.records.find? "a" = none ∧
      after.records.find? "b" = sampleBackend.records.find? "b") ∧
    ∃ found, sampleBackend.delete [⟨"b", [], ⟨4⟩, .epoch⟩, ⟨"a", [], ⟨3⟩, .epoch⟩] =
      (found, sampleBackend) := by
  intro list changes
  have receptive : sampleBackend.Receptive := ⟨rfl, rfl⟩
  obtain ⟨creates, deletes⟩ := creates_and_deletes_each receptive
  refine ⟨receptive, ?_, ?_, ?_⟩
  · obtain ⟨parts, after, whole, each, given, found⟩ := creates list
    exact ⟨parts, after, whole, each, (given 0 _ rfl).trans (by decide),
      (given 1 _ rfl).trans (by decide), (given 2 _ rfl).trans (by decide),
      (found "c").trans (by decide)⟩
  · obtain ⟨found, after, deleted, listed, -, removed⟩ := deletes changes
    have none : found = [] := List.map_eq_nil_iff.mp (listed.trans (by decide))
    subst none
    obtain ⟨held, each⟩ := removed rfl
    exact ⟨after, deleted, each, (held "a").trans (by decide), (held "b").trans (by decide)⟩
  · obtain ⟨found, after, deleted, listed, kept, -⟩ :=
      deletes [⟨"b", [], ⟨4⟩, .epoch⟩, ⟨"a", [], ⟨3⟩, .epoch⟩]
    have some : found ≠ [] := by
      rintro rfl
      exact absurd listed (by decide)
    rw [kept some] at deleted
    exact ⟨found, deleted⟩

end Backend

end ClaimStore
