import ClaimStore.Config.Setting
import ClaimStore.Number.Decimal
import ClaimStore.Text.Digits

/-!
Writing settings as TOML documents.

The values of a table are written first, in the order of its entries, and then its tables, each
under a header. Entries without a value are left out. The keys have to be bare keys.
-/
namespace ClaimStore.Toml

def stringChar (char : Char) : List Char :=
  if char = '"' ∨ char = '\\' then ['\\', char]
  else if char = '\t' ∨ (' ' ≤ char ∧ char ≠ '\x7f') then [char]
  else
    let digits := (Nat.toDigits 16 char.toNat).map Char.toUpper
    '\\' :: 'u' :: (List.replicate (4 - digits.length) '0' ++ digits)

def stringText (text : String) : String :=
  "\"" ++ String.ofList (text.toList.flatMap stringChar) ++ "\""

/-- The text of a number. It shows that the number is no integer. -/
def floatText (number : Number.Double) : String :=
  match number.datum with
  | .nan => "nan"
  | _ =>
      let text := number.text
      if text.toList.all fun char => char.isDigit || char = '-' then text ++ ".0" else text

/-- The text of a value. Tables have none of their own, and numbers from 2^63 on cannot be
written. -/
def valueText? : Setting → Option String
  | .text value => some (stringText value)
  | .character value => some (stringText (String.singleton value))
  | .boolean value => some (if value then "true" else "false")
  | .natural value =>
      if value.toNat ≤ Int64.maxValue.toInt then some (String.ofList (Text.decimal value.toNat))
      else none
  | .integer value => some (toString value.toInt)
  | .float value => some (floatText value)
  | .absent | .list _ | .table _ => none

def valueLines? : List (String × Setting) → Option (List String)
  | [] => some []
  | (_, .absent) :: rest | (_, .table _) :: rest => valueLines? rest
  | (key, value) :: rest => do
      let line := key ++ " = " ++ (← valueText? value) ++ "\n"
      some (line :: (← valueLines? rest))

mutual

/-- The sections of a table: its values under its header, then those of the tables in it. A table
that holds nothing but tables has no header. -/
def sections? (path : List String) : Setting → Option (List String)
  | .table entries => do
      let lines ← valueLines? entries
      let inner ← innerSections? path entries
      let header := if path = [] then "" else "[" ++ ".".intercalate path ++ "]\n"
      if lines = [] ∧ (inner ≠ [] ∨ path = []) then some inner
      else some ((header ++ String.join lines) :: inner)
  | _ => some []

def innerSections? (path : List String) : List (String × Setting) → Option (List String)
  | [] => some []
  | (key, value) :: rest => do
      let first ← sections? (path ++ [key]) value
      some (first ++ (← innerSections? path rest))

end

/-- The document of a table, with an empty line before every header. -/
def text? (table : Setting) : Option String :=
  (sections? [] table).map fun sections => "\n".intercalate sections

end ClaimStore.Toml
