import ClaimStore.Number.Double

/-!
Trees of settings.

All sources of configuration give such trees. Sources are layered: the tables of two layers are
united, and any other value of the upper layer replaces the one below it.
-/
namespace ClaimStore

/-- A value of a configuration source. Numbers keep the type that their source gave them; `absent`
stands for a value that is left unset. The entries of a table have distinct keys. -/
inductive Setting
  | text (value : String)
  | character (value : Char)
  | boolean (value : Bool)
  | natural (value : UInt64)
  | integer (value : Int64)
  | float (value : Number.Double)
  | absent
  | list (items : List Setting)
  | table (entries : List (String × Setting))

namespace Setting

instance : Inhabited Setting := ⟨.absent⟩

def lookup (key : String) : List (String × Setting) → Option Setting
  | [] => none
  | entry :: rest => if entry.1 = key then some entry.2 else lookup key rest

/-- Puts a value into a table that is sorted by its keys, and replaces the one there was. -/
def putEntry (key : String) (value : Setting) : List (String × Setting) → List (String × Setting)
  | [] => [(key, value)]
  | entry :: rest =>
      match compare key entry.1 with
      | .lt => (key, value) :: entry :: rest
      | .eq => (key, value) :: rest
      | .gt => entry :: putEntry key value rest

mutual

def sorted : Setting → Setting
  | .table entries => .table (sortedEntries entries)
  | setting => setting

def sortedEntries : List (String × Setting) → List (String × Setting)
  | [] => []
  | (key, value) :: rest => putEntry key value.sorted (sortedEntries rest)

end

mutual

/-- Lays the upper value over the lower one. Tables have to be sorted. -/
def overlay (lower : Setting) : (upper : Setting) → Setting
  | .table upper =>
      match lower with
      | .table lower => .table (overlayEntries lower upper)
      | _ => .table upper
  | upper => upper

def overlayEntries (lower : List (String × Setting)) :
    (upper : List (String × Setting)) → List (String × Setting)
  | [] => lower
  | (key, value) :: rest =>
      let value :=
        match lookup key lower with
        | none => value
        | some below => overlay below value
      overlayEntries (putEntry key value lower) rest

end

def find? (setting : Setting) : List String → Option Setting
  | [] => some setting
  | key :: rest =>
      match setting with
      | .table entries => (lookup key entries).bind fun value => value.find? rest
      | _ => none

end Setting

end ClaimStore
