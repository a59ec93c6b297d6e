import ClaimStore.Proofs.Toml.Statements

/-!
Tables from statements.

The values that are assigned after a header are put into its table, and nothing else is changed.
-/
namespace ClaimStore.Toml

namespace Entries

variable {key : String} {node : Node} {entries : Entries}

@[simp]
theorem find?_append (key : String) (entries others : Entries) :
    find? key (entries ++ others) = (find? key entries).or (find? key others) := by
  induction entries with
  | nil => rfl
  | cons entry rest ih =>
      rw [List.cons_append, find?, find?]
      split
      · rfl
      · exact ih

/-- A new key is put behind the others. -/
theorem put_new (new : find? key entries = none) : put key node entries = entries ++ [(key, node)] := by
  induction entries with
  | nil => rfl
  | cons entry rest ih =>
      rw [find?] at new
      rw [put]
      split
      · rename_i same
        rw [if_pos same] at new
        cases new
      · rename_i other
        rw [if_neg other] at new
        rw [ih new]
        rfl

theorem put_last (new : find? key entries = none) (before : Node) :
    put key node (entries ++ [(key, before)]) = entries ++ [(key, node)] := by
  induction entries with
  | nil => exact if_pos rfl
  | cons entry rest ih =>
      rw [find?] at new
      rw [List.cons_append, put]
      split
      · rename_i same
        rw [if_pos same] at new
        cases new
      · rename_i other
        rw [if_neg other] at new
        rw [ih new]
        rfl

theorem alter_append (change : Origin → Entries → Option Entries) (path others : List String)
    (origin : Origin) (entries : Entries) :
    alter false change (path ++ others) origin entries =
      alter false (alter false change others) path origin entries := by
  induction path generalizing origin entries with
  | nil => rfl
  | cons key rest ih =>
      rw [List.cons_append, alter, alter]
      split <;> simp only [ih]

end Entries

/-- Entries around a table with a header, which is found at a path. -/
def Surrounds (root : Entries → Entries) (path : List String) : Prop :=
  ∀ change entries,
    Entries.alter false change path .header (root entries) = (change .header entries).map root

theorem surrounds_nil : Surrounds id [] := by
  intro change entries
  rw [Entries.alter, Option.map_id]
  rfl

section

variable {root : Entries → Entries} {path : List String} {key : String} {entries : Entries}

/-- A table after other entries of a table is found by one more key. -/
theorem Surrounds.last (outer : Surrounds root path) (new : entries.find? key = none) :
    Surrounds (fun inner => root (entries ++ [(key, .table .header inner)])) (path ++ [key]) := by
  intro change inner
  have found : Entries.find? key (entries ++ [(key, .table .header inner)]) =
      some (.table .header inner) := by
    rw [Entries.find?_append, new, Option.none_or]
    exact if_pos rfl
  rw [Entries.alter_append, outer, Entries.alter, found]
  simp only [Bool.false_eq_true, false_and, if_false, Entries.alter, Option.map_map,
    Function.comp_def, Entries.put_last new]

theorem splitKey?_append (path : List String) (key : String) :
    splitKey? (path ++ [key]) = some (path, key) := by
  induction path with
  | nil => rfl
  | cons first rest ih =>
      cases rest with
      | nil => rfl
      | cons second others =>
          rw [List.cons_append, List.cons_append, splitKey?, ← List.cons_append, ih]
          · rfl
          · exact List.cons_ne_nil _ _

/-- A header opens a new table after the other entries. -/
theorem Surrounds.add_header (outer : Surrounds root path) (new : entries.find? key = none)
    (before : List String) :
    Assembly.add ⟨root entries, before⟩ (.table (path ++ [key])) =
      some ⟨root (entries ++ [(key, .table .header [])]), path ++ [key]⟩ := by
  have opened : Entries.openTable key entries = some (entries ++ [(key, .table .header [])]) := by
    rw [Entries.openTable, new]
    dsimp only
    rw [Entries.put_new new]
  simp only [Assembly.add, splitKey?_append, Option.bind_eq_bind, Option.bind_some, outer _ entries,
    opened, Option.map_some]

def valueNodes (settings : List (String × Setting)) : Entries :=
  settings.map fun entry => (entry.1, .value entry.2)

theorem find?_valueNodes {settings : List (String × Setting)} (new : key ∉ settings.map Prod.fst) :
    Entries.find? key (valueNodes settings) = none := by
  induction settings with
  | nil => rfl
  | cons setting rest ih =>
      rw [List.map_cons, List.mem_cons, not_or] at new
      exact (if_neg (Ne.symm new.1)).trans (ih new.2)

/-- The assignments after a header put new values behind those of its table. -/
theorem Surrounds.add_assignments (outer : Surrounds root path) (settings : List (String × Setting))
    (distinct : (settings.map Prod.fst).Nodup)
    (new : ∀ entry ∈ settings, entries.find? entry.1 = none) :
    (assignments settings).foldlM Assembly.add ⟨root entries, path⟩ =
      some ⟨root (entries ++ valueNodes settings), path⟩ := by
  induction settings generalizing entries with
  | nil =>
      rw [valueNodes, List.map_nil, List.append_nil]
      rfl
  | cons setting rest ih =>
      obtain ⟨key, value⟩ := setting
      have fresh := new _ List.mem_cons_self
      have assigned : Entries.assign [] key value .header entries =
          some (entries ++ [(key, .value value)]) := by
        have opened : ¬ (Origin.header = .dotted ↔ ([] : List String) = []) := by decide
        rw [Entries.assign, Entries.alter, if_neg opened, fresh]
        dsimp only
        rw [Entries.put_new fresh]
      have first : Assembly.add ⟨root entries, path⟩ (.assign [key] value) =
          some ⟨root (entries ++ [(key, .value value)]), path⟩ := by
        simp only [Assembly.add, splitKey?, Option.bind_eq_bind, Option.bind_some, outer _ entries,
          assigned, Option.map_some]
      rw [List.map_cons, List.nodup_cons] at distinct
      have others : ∀ entry ∈ rest,
          Entries.find? entry.1 (entries ++ [(key, .value value)]) = none := by
        intro entry member
        rw [Entries.find?_append, new entry (List.mem_cons_of_mem _ member), Option.none_or]
        refine if_neg ?_
        rintro rfl
        exact distinct.1 (List.mem_map.mpr ⟨entry, member, rfl⟩)
      rw [assignments, List.map_cons, List.foldlM_cons, first]
      show (assignments rest).foldlM Assembly.add _ = _
      rw [ih distinct.2 others, List.append_assoc]
      rfl

end

end ClaimStore.Toml
