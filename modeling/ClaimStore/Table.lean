/-!
Finite tables.

A table holds at most one value for a key. Putting a value for a key that is there replaces the
value in its place; a new key comes last. `find?` is the view by which all operations are described.
-/
namespace ClaimStore

structure Table (κ α : Type) where
  entries : List (κ × α)
  deriving DecidableEq

namespace Table

variable {κ α : Type} [DecidableEq κ]

instance : Inhabited (Table κ α) := ⟨⟨[]⟩⟩

def empty : Table κ α := ⟨[]⟩

def size (table : Table κ α) : Nat := table.entries.length

def keys (table : Table κ α) : List κ := table.entries.map Prod.fst

def values (table : Table κ α) : List α := table.entries.map Prod.snd

def findIn (key : κ) : List (κ × α) → Option α
  | [] => none
  | entry :: rest => if entry.1 = key then some entry.2 else findIn key rest

def find? (table : Table κ α) (key : κ) : Option α := findIn key table.entries

def contains (table : Table κ α) (key : κ) : Bool := (table.find? key).isSome

def insertIn (key : κ) (value : α) : List (κ × α) → List (κ × α)
  | [] => [(key, value)]
  | entry :: rest =>
      if entry.1 = key then (key, value) :: rest else entry :: insertIn key value rest

def insert (table : Table κ α) (key : κ) (value : α) : Table κ α :=
  ⟨insertIn key value table.entries⟩

def erase (table : Table κ α) (key : κ) : Table κ α :=
  ⟨table.entries.filter fun entry => entry.1 ≠ key⟩

/-- Changes the value of a key, if there is one. -/
def modify (table : Table κ α) (key : κ) (change : α → α) : Table κ α :=
  match table.find? key with
  | none => table
  | some value => table.insert key (change value)

theorem findIn_insertIn (key other : κ) (value : α) (entries : List (κ × α)) :
    findIn other (insertIn key value entries) =
      if other = key then some value else findIn other entries := by
  induction entries with
  | nil =>
      by_cases same : other = key
      · simp [insertIn, findIn, same]
      · simp [insertIn, findIn, same, Ne.symm same]
  | cons entry rest ih =>
      by_cases here : entry.1 = key
      · by_cases same : other = key
        · simp [insertIn, findIn, here, same]
        · simp [insertIn, findIn, here, same, Ne.symm same]
      · by_cases found : entry.1 = other
        · have different : ¬ other = key := fun same => here (found.trans same)
          simp [insertIn, findIn, found, different]
        · simp [insertIn, findIn, here, found, ih]

theorem findIn_filter (key other : κ) (entries : List (κ × α)) :
    findIn other (entries.filter fun entry => entry.1 ≠ key) =
      if other = key then none else findIn other entries := by
  induction entries with
  | nil => simp [findIn]
  | cons entry rest ih =>
      by_cases here : entry.1 = key
      · by_cases same : other = key
        · simpa [here, same] using ih
        · simpa [here, same, findIn, Ne.symm same] using ih
      · by_cases found : entry.1 = other
        · have different : ¬ other = key := fun same => here (found.trans same)
          simp [findIn, found, different]
        · simpa [here, findIn, found] using ih

@[simp]
theorem find?_empty (key : κ) : (empty : Table κ α).find? key = none := rfl

theorem find?_insert (table : Table κ α) (key other : κ) (value : α) :
    (table.insert key value).find? other = if other = key then some value else table.find? other :=
  findIn_insertIn key other value table.entries

theorem find?_erase (table : Table κ α) (key other : κ) :
    (table.erase key).find? other = if other = key then none else table.find? other :=
  findIn_filter key other table.entries

end Table

end ClaimStore
