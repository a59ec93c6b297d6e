import ClaimStore.Proofs.Records.Updates
import ClaimStore.Proofs.Versions
import Mathlib.Data.List.Nodup

/-!
An update of several records beside the updates of its single changes.

As long as no two changes are of one key, they can be made one after the other: every single update
is accepted, and the same is stored in the end. Where a key is repeated, the two ways part. The single
updates store the first change of the key and refuse the later ones, which do not expect it. The
update as a whole compares all of them with what was stored before, and keeps the last one.
-/
namespace ClaimStore

theorem Records.not_isStale {records : Records} {change : Record} :
    ¬ records.IsStale change ↔
      ∃ stored, records.find? change.key = some stored ∧ stored.version = change.version := by
  rw [IsStale, not_not, Option.map_eq_some_iff]

theorem key_of_firstChange? {changes : List Record} {key : String} {first : Record}
    (found : firstChange? changes key = some first) : first ∈ changes ∧ first.key = key :=
  ⟨List.mem_of_find?_eq_some found, by simpa using List.find?_some found⟩

namespace Backend

variable {backend : Backend} {changes front : List Record} {change stored : Record}
variable {original : Records}

/-- The changes as updates of their own, one after the other: what is given back for each of them,
and the store in the end. -/
def updateEach (backend : Backend) :
    List Record → List (Except StoreError (List Record)) × Backend
  | [] => ([], backend)
  | change :: rest =>
      let (result, after) := backend.update [change]
      let (results, last) := after.updateEach rest
      (result :: results, last)

theorem Clear.update_single (clear : backend.Clear)
    (found : backend.records.find? change.key = some stored) :
    (stored.version = change.version → ∃ after, backend.update [change] = (.ok [], after) ∧
      after.records = backend.records.write change ∧ after.Clear) ∧
    (stored.version ≠ change.version → ∃ after, backend.update [change] = (.ok [stored], after) ∧
      after.records = backend.records ∧ after.Clear) := by
  obtain ⟨after, given, left, kept⟩ := clear.update [change]
  rcases backend.records.update_single change with ⟨-, absent⟩ | ⟨result, records, updated, ends⟩
  · cases absent.symm.trans found
  · rw [updated] at given left
    cases ends with
    | refused other also different =>
        cases also.symm.trans found
        exact ⟨fun same => absurd same different, fun _ => ⟨after, given, left, kept⟩⟩
    | written other also same =>
        cases also.symm.trans found
        exact ⟨fun _ => ⟨after, given, left, kept⟩, fun different => absurd same different⟩

/-- Some changes have been made one after the other, all of which expect the versions that were stored
at first. Of each key the first change is stored. -/
structure Partway (original : Records) (front : List Record) (backend : Backend) : Prop where
  clear : backend.Clear
  fresh : ∀ change ∈ front, ¬ original.IsStale change
  found : ∀ key, backend.records.find? key =
    ((firstChange? front key).map Record.renewed).or (original.find? key)

/-- One more change is refused for the first one of its key, if there is one. -/
theorem Partway.update (partway : Partway original front backend)
    (fresh : ¬ original.IsStale change) :
    ∃ after,
      backend.update [change] =
        (.ok ((firstChange? front change.key).map Record.renewed).toList, after) ∧
      Partway original (front ++ [change]) after ∧
      (firstChange? front change.key = none → after.records = backend.records.write change) := by
  have all : ∀ other ∈ front ++ [change], ¬ original.IsStale other := by
    intro other member
    rcases List.mem_append.mp member with early | own
    · exact partway.fresh other early
    · rwa [List.mem_singleton.mp own]
  obtain ⟨stored, expected, same⟩ := Records.not_isStale.mp fresh
  have now := partway.found change.key
  cases first : firstChange? front change.key with
  | none =>
      rw [first, expected] at now
      obtain ⟨after, given, left, clear⟩ := (partway.clear.update_single now).1 same
      refine ⟨after, given, ⟨clear, all, ?_⟩, fun _ => left⟩
      intro key
      rw [left, Records.find?_write, partway.found, firstChange?_append, firstChange?_single]
      by_cases own : key = change.key
      · subst own
        simp [first, Record.renewed]
      · simp [own]
  | some earlier =>
      obtain ⟨member, named⟩ := key_of_firstChange? first
      obtain ⟨also, found, alike⟩ := Records.not_isStale.mp (partway.fresh earlier member)
      rw [named, expected] at found
      cases found
      have moved : earlier.renewed.version ≠ change.version := by
        rw [← same, alike]
        exact earlier.version.next_ne
      rw [first] at now
      obtain ⟨after, given, left, clear⟩ := (partway.clear.update_single now).2 moved
      refine ⟨after, given, ⟨clear, all, ?_⟩,
        fun alone => absurd alone (Option.some_ne_none earlier)⟩
      intro key
      rw [left, partway.found, firstChange?_append, firstChange?_single]
      by_cases own : key = change.key
      · subst own
        simp [first]
      · simp [own]

/-- What the single updates give back, and what they leave behind. -/
theorem Partway.updateEach (partway : Partway original front backend)
    (fresh : ∀ change ∈ changes, ¬ original.IsStale change) :
    Partway original (front ++ changes) (backend.updateEach changes).2 ∧
      ∀ place change, changes[place]? = some change →
        (backend.updateEach changes).1[place]? =
          some (Except.ok ((firstChange? (front ++ changes.take place) change.key).map
            Record.renewed).toList) := by
  induction changes generalizing front backend with
  | nil =>
      rw [List.append_nil]
      exact ⟨partway, nofun⟩
  | cons change rest ih =>
      obtain ⟨here, later⟩ := List.forall_mem_cons.mp fresh
      obtain ⟨after, given, onward, -⟩ := partway.update here
      obtain ⟨last, results⟩ := ih onward later
      simp only [Backend.updateEach, given]
      rw [List.append_assoc] at last
      refine ⟨last, ?_⟩
      intro place other listed
      cases place with
      | zero =>
          cases listed
          simp
      | succ place =>
          have result := results place other listed
          rw [List.append_assoc] at result
          exact result

theorem firstChange?_append_single_eq_none {key : String} :
    firstChange? (front ++ [change]) key = none ↔
      firstChange? front key = none ∧ key ≠ change.key := by
  rw [firstChange?_append, firstChange?_single, Option.or_eq_none_iff]
  simp

/-- The single updates are all accepted if and only if no key is repeated. -/
theorem Partway.accepted_iff (partway : Partway original front backend)
    (fresh : ∀ change ∈ changes, ¬ original.IsStale change) :
    (∀ result ∈ (backend.updateEach changes).1, result = .ok []) ↔
      (∀ change ∈ changes, firstChange? front change.key = none) ∧
        (changes.map Record.key).Nodup := by
  induction changes generalizing front backend with
  | nil => simp [Backend.updateEach]
  | cons change rest ih =>
      obtain ⟨here, later⟩ := List.forall_mem_cons.mp fresh
      obtain ⟨after, given, onward, -⟩ := partway.update here
      have unlisted : change.key ∉ rest.map Record.key ↔
          ∀ other ∈ rest, other.key ≠ change.key := by
        simp
      simp only [Backend.updateEach, given, List.forall_mem_cons, ih onward later, Except.ok.injEq,
        Option.toList_eq_nil_iff, Option.map_eq_none_iff, firstChange?_append_single_eq_none,
        List.map_cons, List.nodup_cons, unlisted, imp_and, forall_and]
      constructor
      · rintro ⟨first, ⟨others, apart⟩, distinct⟩
        exact ⟨⟨first, others⟩, apart, distinct⟩
      · rintro ⟨⟨first, others⟩, apart, distinct⟩
        exact ⟨first, ⟨others, apart⟩, distinct⟩

/-- Single updates that are all accepted write every change in its turn. -/
theorem Partway.records_of_accepted (partway : Partway original front backend)
    (fresh : ∀ change ∈ changes, ¬ original.IsStale change)
    (accepted : ∀ result ∈ (backend.updateEach changes).1, result = .ok []) :
    (backend.updateEach changes).2.records = changes.foldl Records.write backend.records := by
  induction changes generalizing front backend with
  | nil => rfl
  | cons change rest ih =>
      obtain ⟨here, later⟩ := List.forall_mem_cons.mp fresh
      obtain ⟨after, given, onward, written⟩ := partway.update here
      simp only [Backend.updateEach, given, List.forall_mem_cons] at accepted ⊢
      obtain ⟨first, others⟩ := accepted
      have alone : firstChange? front change.key = none := by
        cases earlier : firstChange? front change.key with
        | none => rfl
        | some earlier => simp [earlier] at first
      rw [List.foldl_cons, ← written alone]
      exact ih onward later others

theorem Clear.accepted_fresh (clear : backend.Clear)
    (accepted : (backend.update changes).1 = .ok []) :
    (∀ change ∈ changes, ¬ backend.records.IsStale change) ∧
      (backend.update changes).2.records = changes.foldl Records.write backend.records := by
  obtain ⟨after, given, left, -⟩ := clear.update changes
  rw [given] at accepted ⊢
  rw [left]
  have ends := backend.records.updated changes
  generalize backend.records.update changes = outcome at ends accepted
  cases ends with
  | missing key first => cases accepted
  | refused found present stale some =>
      cases accepted
      exact absurd rfl some
  | written present fresh => exact ⟨fresh, rfl⟩

/-- An update of several records that is accepted, and the single updates of the same changes. The
single updates are all accepted if and only if no two changes are of one key, and then they leave the
same records. In any case a single update gives back the first one of the changes before it that are
of its key, as it has been stored, or is accepted if there is none. So of a key that is repeated the
single updates leave the first change, and the update as a whole the last one. -/
theorem singles_agree_iff_distinct (clear : backend.Clear)
    (accepted : (backend.update changes).1 = .ok []) :
    let whole := (backend.update changes).2.records
    let results := (backend.updateEach changes).1
    let apart := (backend.updateEach changes).2.records
    ((∀ result ∈ results, result = .ok []) ↔ (changes.map Record.key).Nodup) ∧
    ((changes.map Record.key).Nodup → apart = whole) ∧
    (∀ place change, changes[place]? = some change →
      results[place]? =
        some (Except.ok ((firstChange? (changes.take place) change.key).map
          Record.renewed).toList)) ∧
    ∀ key,
      whole.find? key =
        ((lastChange? changes key).map Record.renewed).or (backend.records.find? key) ∧
      apart.find? key =
        ((firstChange? changes key).map Record.renewed).or (backend.records.find? key) := by
  intro whole results apart
  obtain ⟨fresh, written⟩ := clear.accepted_fresh accepted
  have start : Partway backend.records [] backend :=
    ⟨clear, List.forall_mem_nil _, fun _ => rfl⟩
  have distinct : (∀ result ∈ results, result = .ok []) ↔ (changes.map Record.key).Nodup := by
    rw [start.accepted_iff fresh]
    exact and_iff_right fun _ _ => rfl
  obtain ⟨last, given⟩ := start.updateEach fresh
  refine ⟨distinct, ?_, given, ?_⟩
  · intro nodup
    exact (start.records_of_accepted fresh (distinct.mpr nodup)).trans written.symm
  · intro key
    refine ⟨?_, last.found key⟩
    rw [← Records.find?_foldl_write, ← written]

theorem singles_agree_iff_distinct_two :
    let changes : List Record := [⟨"a", [7], ⟨3⟩, .epoch⟩, ⟨"b", [8], ⟨5⟩, .epoch⟩]
    sampleBackend.Clear ∧ (sampleBackend.update changes).1 = .ok [] ∧
      (∀ result ∈ (sampleBackend.updateEach changes).1, result = .ok []) ∧
      (sampleBackend.updateEach changes).2.records = (sampleBackend.update changes).2.records := by
  intro changes
  have clear : sampleBackend.Clear := ⟨rfl, rfl, rfl⟩
  have accepted : (sampleBackend.update changes).1 = .ok [] := by decide +kernel
  have distinct : (changes.map Record.key).Nodup := by decide
  obtain ⟨each, same, -⟩ := singles_agree_iff_distinct clear accepted
  exact ⟨clear, accepted, each.mpr distinct, same distinct⟩

/-- An update of two changes of one key is accepted and stores the second one, which does not expect
the first one. As single updates, the first change is stored and the second one is refused. -/
theorem repeated_key_overwritten :
    let first : Record := ⟨"a", [7], ⟨3⟩, .epoch⟩
    let second : Record := ⟨"a", [9], ⟨3⟩, .epoch⟩
    (sampleBackend.update [first, second]).1 = .ok [] ∧
      (sampleBackend.update [first, second]).2.records.find? "a" = some second.renewed ∧
      (sampleBackend.updateEach [first, second]).1 = [.ok [], .ok [first.renewed]] ∧
      (sampleBackend.updateEach [first, second]).2.records.find? "a" = some first.renewed := by
  decide +kernel

end Backend

end ClaimStore
