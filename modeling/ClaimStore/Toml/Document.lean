import ClaimStore.Toml.Lexeme
import ClaimStore.Toml.Scalar

/-!
TOML documents.

A document is a list of statements: assignments to keys, and headers that say to which table the
assignments after them belong. The statements are read first and then put together to one table. A
key is assigned once, and how a table was opened decides what may be added to it later.
-/
namespace ClaimStore.Toml

/-! ### Putting tables together -/

/-- How a table came to be: by a header of its own, by the header of a table in it, or by a key with
dots. -/
inductive Origin
  | header
  | implied
  | dotted
  deriving DecidableEq

/-- What a key stands for while the tables are put together. `tables` are the elements of an array
of tables, the last one first. -/
inductive Node
  | value (setting : Setting)
  | table (origin : Origin) (entries : List (String × Node))
  | tables (elements : List (List (String × Node)))

abbrev Entries := List (String × Node)

namespace Entries

def find? (key : String) : Entries → Option Node
  | [] => none
  | entry :: rest => if entry.1 = key then some entry.2 else find? key rest

def put (key : String) (node : Node) : Entries → Entries
  | [] => [(key, node)]
  | entry :: rest => if entry.1 = key then (key, node) :: rest else entry :: put key node rest

/-- Changes the entries of the table at a path, and opens the tables on the way that are missing. A
key with dots does not lead into a table with a header. -/
def alter (dotted : Bool) (change : Origin → Entries → Option Entries) :
    (path : List String) → Origin → Entries → Option Entries
  | [], origin, entries => change origin entries
  | key :: rest, _, entries =>
      match find? key entries with
      | none =>
          let opened := if dotted then .dotted else .implied
          (alter dotted change rest opened []).map fun inner =>
            put key (.table opened inner) entries
      | some (.value _) => none
      | some (.tables []) => none
      | some (.tables (last :: earlier)) =>
          (alter dotted change rest .header last).map fun inner =>
            put key (.tables (inner :: earlier)) entries
      | some (.table origin inner) =>
          if dotted ∧ origin = .header then none
          else
            (alter dotted change rest origin inner).map fun inner =>
              put key (.table origin inner) entries

/-- Assigns a value to a key with dots, given by the path to a table and the key in it. The table
must have been opened in the way of the assignment, and the key must be new. -/
def assign (path : List String) (key : String) (value : Setting) (origin : Origin)
    (entries : Entries) : Option Entries :=
  alter true
    (fun origin entries =>
      if origin = .dotted ↔ path = [] then none
      else
        match find? key entries with
        | none => some (put key (.value value) entries)
        | some _ => none)
    path origin entries

/-- Opens a table by its header. Only a table that was implied before can be opened. -/
def openTable (key : String) (entries : Entries) : Option Entries :=
  match find? key entries with
  | none => some (put key (.table .header []) entries)
  | some (.table .implied inner) => some (put key (.table .header inner) entries)
  | some _ => none

/-- Opens a new element of an array of tables. -/
def openElement (key : String) (entries : Entries) : Option Entries :=
  match find? key entries with
  | none => some (put key (.tables [[]]) entries)
  | some (.tables elements) => some (put key (.tables ([] :: elements)) entries)
  | some _ => none

end Entries

mutual

def Node.setting : Node → Setting
  | .value setting => setting
  | .table _ entries => .table (entrySettings entries)
  | .tables elements => .list (elementSettings elements).reverse

def entrySettings : List (String × Node) → List (String × Setting)
  | [] => []
  | (key, node) :: rest => Setting.putEntry key node.setting (entrySettings rest)

def elementSettings : List (List (String × Node)) → List Setting
  | [] => []
  | entries :: rest => .table (entrySettings entries) :: elementSettings rest

end

def splitKey? : List String → Option (List String × String)
  | [] => none
  | [key] => some ([], key)
  | part :: rest => (splitKey? rest).map fun (path, key) => (part :: path, key)

/-! ### Reading values and statements -/

/-- The elements of an array after its opening bracket. A comma may stand after the last one. -/
def arrayItems (item : Reader Setting) : (fuel : Nat) → Reader (List Setting)
  | 0, _ => none
  | fuel + 1, text =>
      match skipLines text with
      | ']' :: rest => some ([], rest)
      | text => do
          let (first, rest) ← item text
          match skipLines rest with
          | ',' :: rest => do
              let (items, rest) ← arrayItems item fuel rest
              some (first :: items, rest)
          | ']' :: rest => some ([first], rest)
          | _ => none

def assignment (value : Reader Setting) : Reader (List String × Setting) := fun text => do
  let (path, rest) ← key text
  match rest with
  | '=' :: rest => do
      let (value, rest) ← value (skipSpace rest)
      some ((path, value), skipSpace rest)
  | _ => none

/-- The assignments of a table in a line, at least one of them, up to the closing brace. -/
def inlineItems (item : Reader (List String × Setting)) :
    (fuel : Nat) → Reader (List (List String × Setting))
  | 0, _ => none
  | fuel + 1, text => do
      let (first, rest) ← item text
      match rest with
      | ',' :: rest => do
          let (items, rest) ← inlineItems item fuel rest
          some (first :: items, rest)
      | '\x7d' :: rest => some ([first], rest)
      | _ => none

def tableOf? (items : List (List String × Setting)) : Option Setting := do
  let entries ← items.foldlM
    (fun entries (item : List String × Setting) => do
      let (path, key) ← splitKey? item.1
      Entries.assign path key item.2 .header entries)
    ([] : Entries)
  some (.table (entrySettings entries))

/-- A value in which arrays and tables are nested at most `depth` deep. -/
def value : (depth : Nat) → Reader Setting
  | _, '"' :: rest => (quoted .basic ('"' :: rest)).map fun (text, rest) => (.text text, rest)
  | _, '\'' :: rest =>
      (quoted .literal ('\'' :: rest)).map fun (text, rest) => (.text text, rest)
  | 0, '[' :: _ | 0, '\x7b' :: _ => none
  | depth + 1, '[' :: rest =>
      (arrayItems (value depth) (rest.length + 1) rest).map fun (items, rest) => (.list items, rest)
  | depth + 1, '\x7b' :: rest =>
      match skipSpace rest with
      | '\x7d' :: rest => some (.table [], rest)
      | text => do
          let (items, rest) ← inlineItems (assignment (value depth)) (text.length + 1) text
          some (← tableOf? items, rest)
  | _, text => scalar text

def valueDepth : Nat := 79

inductive Statement
  | assign (path : List String) (value : Setting)
  | table (path : List String)
  | element (path : List String)

def header : Reader Statement
  | '[' :: '[' :: text => do
      match ← key text with
      | (path, ']' :: ']' :: rest) => some (.element path, rest)
      | _ => none
  | '[' :: text => do
      match ← key text with
      | (path, ']' :: rest) => some (.table path, rest)
      | _ => none
  | _ => none

def statement : Reader Statement := fun text =>
  match text with
  | '[' :: _ => header text
  | _ =>
      (assignment (value valueDepth) text).map fun ((path, value), rest) =>
        (.assign path value, rest)

def statements : (fuel : Nat) → List Char → Option (List Statement)
  | 0, _ => none
  | fuel + 1, text =>
      match skipLines text with
      | [] => some []
      | text => do
          let (first, rest) ← statement text
          (statements fuel (← lineEnd? rest)).map (first :: ·)

/-- The tables built so far, and the path of the header that holds. -/
structure Assembly where
  root : Entries
  path : List String

def Assembly.add (assembly : Assembly) : Statement → Option Assembly
  | .assign path value => do
      let (path, key) ← splitKey? path
      let root ←
        Entries.alter false (Entries.assign path key value) assembly.path .header assembly.root
      some { assembly with root }
  | .table path => do
      let (parent, key) ← splitKey? path
      let opened _ := Entries.openTable key
      some ⟨← Entries.alter false opened parent .header assembly.root, path⟩
  | .element path => do
      let (parent, key) ← splitKey? path
      let opened _ := Entries.openElement key
      some ⟨← Entries.alter false opened parent .header assembly.root, path⟩

/-- The table of a document. A byte order mark may precede it. -/
def parse? (document : String) : Option Setting := do
  let text := document.toList
  let text := if text.take 1 = ['\ufeff'] then text.drop 1 else text
  let statements ← statements (text.length + 1) text
  let assembly ← statements.foldlM Assembly.add ⟨[], []⟩
  some (.table (entrySettings assembly.root))

end ClaimStore.Toml
