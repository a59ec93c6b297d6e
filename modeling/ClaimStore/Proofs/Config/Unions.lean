import ClaimStore.Config.Setting
import Mathlib.Data.String.Basic
import Mathlib.Order.Compare

/-!
Unions of settings.

A setting is ordered if each of its tables has its entries in the order of their keys, and each key
once. The union of ordered settings is ordered. At every path of which the upper setting says
something, the union has what the upper setting has there, but for tables, which are united; at all
others it has what the lower setting has.
-/
namespace ClaimStore.Setting

/-- Every table has its entries in the order of their keys, and each key once. -/
inductive Ordered : Setting → Prop
  | table {entries : List (String × Setting)}
      (keys : entries.Pairwise fun first second => compare first.1 second.1 = .lt)
      (values : ∀ entry ∈ entries, entry.2.Ordered) : Ordered (.table entries)
  | list {items : List Setting} (values : ∀ item ∈ items, item.Ordered) : Ordered (.list items)
  | plain {setting : Setting} (single : ∀ entries, setting ≠ .table entries)
      (alone : ∀ items, setting ≠ .list items) : Ordered setting

def IsTable (setting : Setting) : Prop := ∃ entries, setting = .table entries

/-- What two layers have at one place: the union of both values, or the only one there is. -/
def overlay? : (lower upper : Option Setting) → Option Setting
  | lower, none => lower
  | none, some upper => some upper
  | some lower, some upper => some (overlay lower upper)

/-- What a layer says of a path: the value that it has there, or that there is none, because what
should be a table on the way is something else. Where an entry is missing, it says nothing. -/
def says? (setting : Setting) : List String → Option (Option Setting)
  | [] => some (some setting)
  | key :: rest =>
      match setting with
      | .table entries => (lookup key entries).bind fun value => value.says? rest
      | _ => some none

/-- What two layers say of one path together, if the lower one does not say that there is none. -/
def united (lower : Option (Option Setting)) :
    (upper : Option (Option Setting)) → Option (Option Setting)
  | none => lower
  | some found => some (found.bind fun value => overlay? lower.join (some value))

/-- Two places have the same value, unless both have tables. -/
def SameBut (first second : Option Setting) : Prop :=
  first = second ∨ (∃ found ∈ first, found.IsTable) ∧ ∃ found ∈ second, found.IsTable

variable {key : String} {value setting lower upper : Setting}
variable {entries rest below above : List (String × Setting)}

/-! ### Entries -/

theorem lookup_putEntry (key other : String) (value : Setting) (entries : List (String × Setting)) :
    lookup key (putEntry other value entries) =
      if other = key then some value else lookup key entries := by
  induction entries with
  | nil => rfl
  | cons entry rest ih =>
      unfold putEntry
      split
      · rfl
      · rename_i same
        obtain rfl := Std.LawfulEqCmp.eq_of_compare same
        rw [lookup, lookup]
        split <;> rfl
      · rename_i behind
        have apart : entry.1 ≠ other := by
          rintro rfl
          exact Ordering.noConfusion (Std.ReflCmp.compare_self.symm.trans behind)
        rw [lookup, lookup, ih]
        split
        · rename_i same
          rw [if_neg (same ▸ apart.symm)]
        · rfl

theorem mem_putEntry {entry : String × Setting} (member : entry ∈ putEntry key value entries) :
    entry = (key, value) ∨ entry ∈ entries := by
  induction entries with
  | nil => exact .inl (List.mem_singleton.mp member)
  | cons first rest ih =>
      unfold putEntry at member
      split at member
      · exact List.mem_cons.mp member
      · exact (List.mem_cons.mp member).imp id (List.mem_cons_of_mem _)
      · rcases List.mem_cons.mp member with rfl | later
        · exact .inr List.mem_cons_self
        · exact (ih later).imp id (List.mem_cons_of_mem _)

theorem keys_putEntry
    (keys : entries.Pairwise fun first second => compare first.1 second.1 = .lt) :
    (putEntry key value entries).Pairwise fun first second => compare first.1 second.1 = .lt := by
  induction entries with
  | nil => exact List.pairwise_singleton _ _
  | cons first rest ih =>
      rw [List.pairwise_cons] at keys
      unfold putEntry
      split
      · rename_i before
        rw [List.pairwise_cons, List.pairwise_cons]
        refine ⟨?_, keys⟩
        rintro entry (_ | ⟨_, later⟩)
        · exact before
        · exact Std.TransCmp.lt_trans before (keys.1 entry later)
      · rename_i same
        obtain rfl := Std.LawfulEqCmp.eq_of_compare same
        exact List.pairwise_cons.mpr keys
      · rename_i behind
        rw [List.pairwise_cons]
        refine ⟨?_, ih keys.2⟩
        intro entry member
        rcases mem_putEntry member with rfl | later
        · exact Std.OrientedCmp.lt_of_gt behind
        · exact keys.1 entry later

theorem mem_of_lookup (found : lookup key entries = some value) : (key, value) ∈ entries := by
  induction entries with
  | nil => cases found
  | cons entry rest ih =>
      rw [lookup] at found
      split at found
      · rename_i same
        cases found
        cases same
        exact List.mem_cons_self
      · exact List.mem_cons_of_mem _ (ih found)

theorem lookup_eq_none (absent : ∀ entry ∈ entries, entry.1 ≠ key) : lookup key entries = none := by
  cases found : lookup key entries with
  | none => rfl
  | some value => exact absurd rfl (absent _ (mem_of_lookup found))

/-- Behind the first of ordered entries, its key does not come again. -/
theorem lookup_behind {first : String × Setting}
    (keys : (first :: rest).Pairwise fun first second => compare first.1 second.1 = .lt) :
    lookup first.1 rest = none := by
  apply lookup_eq_none
  intro entry member same
  have before := (List.pairwise_cons.mp keys).1 entry member
  rw [same] at before
  exact Ordering.noConfusion (Std.ReflCmp.compare_self.symm.trans before)

theorem Ordered.parts (ordered : Ordered (.table entries)) :
    (entries.Pairwise fun first second => compare first.1 second.1 = .lt) ∧
      ∀ entry ∈ entries, entry.2.Ordered := by
  cases ordered with
  | table keys values => exact ⟨keys, values⟩
  | plain single => exact absurd rfl (single entries)

theorem Ordered.items {items : List Setting} (ordered : Ordered (.list items)) :
    ∀ item ∈ items, item.Ordered := by
  cases ordered with
  | list values => exact values
  | plain _ alone => exact absurd rfl (alone items)

theorem Ordered.put (ordered : Ordered (.table entries)) (own : value.Ordered) :
    Ordered (.table (putEntry key value entries)) := by
  obtain ⟨keys, values⟩ := ordered.parts
  refine .table (keys_putEntry keys) ?_
  intro entry member
  rcases mem_putEntry member with rfl | later
  · exact own
  · exact values entry later

theorem ordered_empty : Ordered (.table []) := .table .nil nofun

/-! ### Unions -/

theorem overlay_single (single : ∀ entries, upper ≠ .table entries) : overlay lower upper = upper := by
  cases upper with
  | table entries => exact absurd rfl (single entries)
  | _ => rfl

mutual

theorem Ordered.overlay (lower : Setting) (upper : Setting) (below : lower.Ordered)
    (above : upper.Ordered) : (overlay lower upper).Ordered :=
  match upper with
  | .table upper =>
      match lower with
      | .table lower => Ordered.overlayEntries lower upper below above.parts.2
      | .text _ | .character _ | .boolean _ | .natural _ | .integer _ | .float _ | .absent | .list _ =>
          above
  | .text _ | .character _ | .boolean _ | .natural _ | .integer _ | .float _ | .absent | .list _ =>
      above

theorem Ordered.overlayEntries (lower upper : List (String × Setting))
    (below : Ordered (.table lower)) (above : ∀ entry ∈ upper, entry.2.Ordered) :
    Ordered (.table (overlayEntries lower upper)) :=
  match upper with
  | [] => below
  | (key, value) :: rest => by
      have own := above _ List.mem_cons_self
      refine Ordered.overlayEntries (putEntry key _ lower) rest (below.put ?_)
        fun entry member => above entry (List.mem_cons_of_mem _ member)
      split
      · exact own
      · rename_i found
        exact Ordered.overlay _ value (below.parts.2 _ (mem_of_lookup found)) own

end

theorem lookup_overlayEntries
    (keys : above.Pairwise fun first second => compare first.1 second.1 = .lt) (key : String) :
    lookup key (overlayEntries below above) = overlay? (lookup key below) (lookup key above) := by
  induction above generalizing below with
  | nil => rfl
  | cons entry rest ih =>
      have behind := lookup_behind keys
      rw [overlayEntries, ih (List.pairwise_cons.mp keys).2, lookup_putEntry, lookup]
      split
      · rename_i same
        rw [← same, behind]
        cases lookup entry.1 below <;> rfl
      · rfl

theorem find?_table (entries : List (String × Setting)) (key : String) (path : List String) :
    (table entries).find? (key :: path) = (lookup key entries).bind fun value => value.find? path := rfl

theorem find?_single (single : ∀ entries, setting ≠ .table entries) (key : String)
    (path : List String) : setting.find? (key :: path) = none := by
  cases setting with
  | table entries => exact absurd rfl (single entries)
  | _ => rfl

theorem says?_table (entries : List (String × Setting)) (key : String) (path : List String) :
    (table entries).says? (key :: path) = (lookup key entries).bind fun value => value.says? path := rfl

theorem says?_single (single : ∀ entries, setting ≠ .table entries) (key : String)
    (path : List String) : setting.says? (key :: path) = some none := by
  cases setting with
  | table entries => exact absurd rfl (single entries)
  | _ => rfl

theorem join_says? (setting : Setting) (path : List String) :
    (setting.says? path).join = setting.find? path := by
  induction path generalizing setting with
  | nil => rfl
  | cons key rest ih =>
      by_cases table : setting.IsTable
      · obtain ⟨entries, rfl⟩ := table
        rw [says?_table, find?_table]
        cases lookup key entries with
        | none => rfl
        | some value => exact ih value
      · have single : ∀ entries, setting ≠ .table entries := fun entries same => table ⟨entries, same⟩
        rw [says?_single single, find?_single single]
        rfl

theorem says?_eq_some {path : List String} :
    setting.says? path = some (some value) ↔ setting.find? path = some value := by
  rw [← join_says?]
  rcases setting.says? path with _ | _ | found <;> simp

theorem overlay_onto_single (single : ∀ entries, lower ≠ .table entries) (upper : Setting) :
    overlay lower upper = upper := by
  cases upper with
  | table above =>
      cases lower with
      | table entries => exact absurd rfl (single entries)
      | _ => rfl
  | _ => rfl

theorem united_missing (lower : Option (Option Setting)) (missing : lower.join = none)
    (upper : Option (Option Setting)) : united lower upper = upper.or lower := by
  rcases upper with _ | _ | value
  · rfl
  · rfl
  · rw [united, missing]
    rfl

/-- A union says what both layers say together. If the lower one says that there is nothing, and the
upper one does not speak of the path, it can be that the upper one has a table in place of what is in
the way. -/
theorem says?_overlay (lower : Setting) (ordered : upper.Ordered) (path : List String) :
    (overlay lower upper).says? path = united (lower.says? path) (upper.says? path) ∨
      lower.says? path = some none ∧ upper.says? path = none ∧
        (overlay lower upper).says? path = none := by
  induction path generalizing lower upper with
  | nil => exact .inl rfl
  | cons key rest ih =>
      -- only two tables are united; in all other cases the union is the upper layer
      by_cases above : upper.IsTable
      · obtain ⟨above, rfl⟩ := above
        by_cases below : lower.IsTable
        · obtain ⟨below, rfl⟩ := below
          obtain ⟨keys, values⟩ := ordered.parts
          rw [overlay, says?_table, says?_table, says?_table, lookup_overlayEntries keys]
          cases upper : lookup key above with
          | none => exact .inl rfl
          | some value =>
              cases lookup key below with
              | none => exact .inl ((united_missing none rfl _).trans Option.or_none).symm
              | some covered => exact ih covered (values _ (mem_of_lookup upper))
        · have single : ∀ entries, lower ≠ .table entries :=
            fun entries same => below ⟨entries, same⟩
          rw [overlay_onto_single single, says?_single single]
          cases said : says? (table above) (key :: rest) with
          | none => exact .inr ⟨rfl, rfl, rfl⟩
          | some found => exact .inl (united_missing (some none) rfl (some found)).symm
      · have single : ∀ entries, upper ≠ .table entries := fun entries same => above ⟨entries, same⟩
        rw [overlay_single single, says?_single single]
        exact .inl rfl

/-- Where the upper layer does not speak of a path, the lower one still says what it said, unless
that was that there is nothing. -/
theorem says?_overlay_silent {path : List String} (ordered : upper.Ordered)
    (silent : upper.says? path = none) (clear : lower.says? path ≠ some none) :
    (overlay lower upper).says? path = lower.says? path := by
  rcases says?_overlay lower ordered path with same | ⟨covered, -⟩
  · rw [same, silent, united]
  · exact absurd covered clear

/-- A value of the upper layer that is no table is that of the union. -/
theorem says?_overlay_value {path : List String} (ordered : upper.Ordered)
    (found : upper.says? path = some (some value)) (single : ¬ value.IsTable) :
    (overlay lower upper).says? path = some (some value) := by
  have plain : ∀ entries, value ≠ .table entries := fun entries same => single ⟨entries, same⟩
  rcases says?_overlay lower ordered path with same | ⟨-, silent, -⟩
  · rw [same, found, united, Option.bind_some]
    cases (lower.says? path).join with
    | none => rfl
    | some covered => rw [overlay?, overlay_single plain]
  · cases found.symm.trans silent

/-! ### Places -/

namespace SameBut

variable {first second third : Option Setting}

theorem refl (place : Option Setting) : SameBut place place := .inl rfl

theorem trans (one : SameBut first second) (two : SameBut second third) : SameBut first third := by
  rcases one with rfl | ⟨table, same⟩
  · exact two
  · rcases two with rfl | ⟨-, last⟩
    · exact .inr ⟨table, same⟩
    · exact .inr ⟨table, last⟩

theorem of_single (same : SameBut first second) (found : first = some setting)
    (single : ¬ setting.IsTable) : second = some setting := by
  rcases same with rfl | ⟨⟨_, own, table⟩, -⟩
  · exact found
  · cases found.symm.trans own
    exact absurd table single

end SameBut

/-- What a union has at a path is what the upper layer says, or else what the lower layer has. -/
theorem find?_overlay (ordered : upper.Ordered) (path : List String) :
    SameBut ((overlay lower upper).find? path) ((upper.says? path).getD (lower.find? path)) := by
  have meet : SameBut (united (lower.says? path) (upper.says? path)).join
      ((upper.says? path).getD (lower.says? path).join) := by
    rcases upper.says? path with _ | _ | value
    · exact .refl _
    · exact .refl _
    · rw [united, Option.bind_some]
      cases (lower.says? path).join with
      | none => exact .refl _
      | some covered =>
          by_cases table : value.IsTable
          · obtain ⟨above, rfl⟩ := table
            refine .inr ⟨⟨_, rfl, ?_⟩, _, rfl, above, rfl⟩
            cases covered <;> exact ⟨_, rfl⟩
          · refine .inl (congrArg some ?_)
            exact overlay_single fun entries same => table ⟨entries, same⟩
  rw [← join_says?, ← join_says?]
  rcases says?_overlay lower ordered path with same | ⟨covered, silent, same⟩
  · rw [same]
    exact meet
  · rw [same, silent, covered]
    exact .refl _

/-! ### Sorting -/

theorem ordered_sortedEntries (values : ∀ entry ∈ entries, entry.2.sorted.Ordered) :
    Ordered (.table (sortedEntries entries)) := by
  induction entries with
  | nil => exact ordered_empty
  | cons entry rest ih =>
      obtain ⟨own, others⟩ := List.forall_mem_cons.mp values
      exact (ih others).put own

theorem lookup_sortedEntries (key : String) (entries : List (String × Setting)) :
    lookup key (sortedEntries entries) = (lookup key entries).map sorted := by
  induction entries with
  | nil => rfl
  | cons entry rest ih =>
      rw [sortedEntries, lookup_putEntry, ih, lookup]
      split <;> rfl

theorem find?_sorted (setting : Setting) (path : List String) :
    setting.sorted.find? path = (setting.find? path).map sorted := by
  induction path generalizing setting with
  | nil => rfl
  | cons key rest ih =>
      cases setting with
      | table entries =>
          rw [sorted, find?_table, find?_table, lookup_sortedEntries]
          cases lookup key entries with
          | none => rfl
          | some value => exact ih value
      | _ => rfl

theorem find?_sorted_same (setting : Setting) (path : List String) :
    SameBut (setting.sorted.find? path) (setting.find? path) := by
  rw [find?_sorted]
  cases setting.find? path with
  | none => exact .refl none
  | some found =>
      by_cases table : found.IsTable
      · obtain ⟨entries, rfl⟩ := table
        exact .inr ⟨⟨_, rfl, _, rfl⟩, _, rfl, entries, rfl⟩
      · cases found with
        | table entries => exact absurd ⟨entries, rfl⟩ table
        | _ => exact .refl _

end ClaimStore.Setting
