import ClaimStore.Config.Setting
import ClaimStore.Number.Decimal
import ClaimStore.Text.Blank
import ClaimStore.Text.Digits

/-!
Settings from environment variables.

A variable with the right beginning sets the value at the path that the rest of its name gives. Its
value can be a table, a list, a quoted text, a quoted character, a truth value or a number; all else
is a text.
-/
namespace ClaimStore.Environment

abbrev Reader (α : Type) := List Char → Option (α × List Char)

/-! ### Values -/

def isSpace (char : Char) : Bool := char ∈ [' ', '\t', '\n', '\x0c', '\r']

def isSeparator (char : Char) : Bool := char ∈ [',', '\x7b', '\x7d', '[', ']']

def isKeyChar (char : Char) : Bool := char.isAlphanum || char = '_' || char = '-'

def quotedChars : Reader (List Char)
  | [] => none
  | '"' :: rest => some ([], rest)
  | '\\' :: char :: rest =>
      (quotedChars rest).map fun (chars, rest) => ('\\' :: char :: chars, rest)
  | char :: rest => (quotedChars rest).map fun (chars, rest) => (char :: chars, rest)

/-- The character with a number of the given count of hexadecimal digits, put before what `rest`
gives. -/
def hexChar? (count : Nat) (text : List Char) (rest : List Char → Option (List Char)) :
    Option (List Char) :=
  let digits := text.take count
  let number := Text.ofDigits 16 digits
  if digits.length = count ∧ digits.all (Text.isDigitIn 16) ∧ number.isValidChar then
    (rest (text.drop count)).map (Char.ofNat number :: ·)
  else none

def unescape? : (fuel : Nat) → List Char → Option (List Char)
  | _, [] => some []
  | 0, _ => none
  | fuel + 1, '\\' :: mark :: rest =>
      let more (char : Char) : Option (List Char) := (unescape? fuel rest).map (char :: ·)
      match mark with
      | '"' => more '"'
      | '\\' => more '\\'
      | 'b' => more '\x08'
      | 'f' => more '\x0c'
      | 'n' => more '\n'
      | 'r' => more '\r'
      | 't' => more '\t'
      | 'u' => hexChar? 4 rest (unescape? fuel)
      | 'U' => hexChar? 8 rest (unescape? fuel)
      | _ => none
  | fuel + 1, char :: rest =>
      if char = '\t' ∨ (' ' ≤ char ∧ char ≠ '\x7f') then (unescape? fuel rest).map (char :: ·)
      else none

def quoted : Reader String
  | '"' :: rest => do
      let (chars, rest) ← quotedChars rest
      some (String.ofList (← unescape? chars.length chars), rest)
  | _ => none

/-- The number of a word with digits, at most one point among them, and an exponent if there is an
`e`. -/
def decimal? (word : List Char) : Option Number.Double := do
  let (negative, rest) :=
    match word with
    | '-' :: rest => (true, rest)
    | '+' :: rest => (false, rest)
    | _ => (false, word)
  let mantissa := rest.takeWhile fun char => char ≠ 'e' && char ≠ 'E'
  let exponent := rest.drop (mantissa.length + 1)
  let hasExponent := mantissa.length < rest.length
  let whole := mantissa.takeWhile (· ≠ '.')
  let fraction := mantissa.drop (whole.length + 1)
  let (negativeExponent, power) :=
    match exponent with
    | '-' :: power => (true, power)
    | '+' :: power => (false, power)
    | _ => (false, exponent)
  let digits := whole ++ fraction
  if digits ≠ [] ∧ digits.all Char.isDigit ∧ power.all Char.isDigit ∧ (hasExponent ↔ power ≠ [])
  then
    let magnitude : Int := Text.ofDigits 10 power
    let shift := if negativeExponent then -magnitude else magnitude
    some
      (Number.Decimal.toDouble
        { negative, digits := Text.ofDigits 10 digits, exponent := shift - fraction.length })
  else none

/-- The number of a word of digits, with a plus sign allowed, if it is a 64-bit word. -/
def natural? (word : List Char) : Option UInt64 :=
  let digits := if word.take 1 = ['+'] then word.drop 1 else word
  let number := Text.ofDigits 10 digits
  if digits ≠ [] ∧ digits.all Char.isDigit ∧ number < UInt64.size then some (UInt64.ofNat number)
  else none

/-- The number of a minus sign and digits, if it is a signed 64-bit word. -/
def negative? : List Char → Option Int64
  | '-' :: digits =>
      let value : Int := -(Text.ofDigits 10 digits : Int)
      if digits ≠ [] ∧ digits.all Char.isDigit ∧ Int64.minValue.toInt ≤ value then
        some (Int64.ofInt value)
      else none
  | _ => none

/-- The setting of a plain word. Only a word with a point is a floating point number. -/
def wordSetting (word : List Char) : Setting :=
  let number := if word.contains '.' then decimal? word else none
  match number, natural? word, negative? word with
  | some number, _, _ => .float number
  | none, some number, _ => .natural number
  | none, none, some number => .integer number
  | none, none, none => .text (String.ofList word)

/-- Items with commas between them up to the closing mark. A comma may stand after the last one. -/
def items {α : Type} (item : Reader α) (close : Char) : (fuel : Nat) → Reader (List α)
  | 0, _ => none
  | fuel + 1, text =>
      if text.head? = some close then some ([], text.drop 1)
      else do
        let (first, rest) ← item text
        match rest with
        | ',' :: rest => do
            let (more, rest) ← items item close fuel rest
            some (first :: more, rest)
        | char :: rest => if char = close then some ([first], rest) else none
        | [] => none

def entry (value : Reader Setting) : Reader (String × Setting) := fun text => do
  let text := text.dropWhile isSpace
  let (key, rest) ←
    match text with
    | '"' :: _ => quoted text
    | _ =>
        let word := text.takeWhile isKeyChar
        if word = [] then none else some (String.ofList word, text.drop word.length)
  match rest.dropWhile isSpace with
  | '=' :: rest => (value rest).map fun (value, rest) => ((key, value), rest)
  | _ => none

/-- The table of some entries; the last one of a key counts. -/
def tableOf (entries : List (String × Setting)) : Setting :=
  .table (entries.foldl (fun table entry => Setting.putEntry entry.1 entry.2 table) [])

/-- A value and the white space around it. Tables and lists are nested less deep than `depth`. -/
def value : (depth : Nat) → Reader Setting
  | 0, _ => none
  | depth + 1, text => do
      let text := text.dropWhile isSpace
      let (setting, rest) ←
        match text with
        | 't' :: 'r' :: 'u' :: 'e' :: rest => some (.boolean true, rest)
        | 'f' :: 'a' :: 'l' :: 's' :: 'e' :: rest => some (.boolean false, rest)
        | '\x7b' :: rest =>
            (items (entry (value depth)) '\x7d' (rest.length + 1) rest).map fun (entries, rest) =>
              (tableOf entries, rest)
        | '[' :: rest =>
            (items (value depth) ']' (rest.length + 1) rest).map fun (items, rest) =>
              (.list items, rest)
        | '"' :: _ => (quoted text).map fun (word, rest) => (.text word, rest)
        | '\'' :: char :: '\'' :: rest => some (.character char, rest)
        | '\'' :: _ => none
        | _ =>
            let word := text.takeWhile fun char => !isSeparator char
            some (wordSetting (Text.trim word), text.drop word.length)
      some (setting, rest.dropWhile isSpace)

/-- The setting of the value of a variable. A value that cannot be read to its end is a text. -/
def parse (text : String) : Setting :=
  match value (text.length + 1) text.toList with
  | some (setting, []) => setting
  | _ => .text text

/-! ### Names -/

def nameStart : List Char := "TOKENPOOL_".toList

/-- A pair of underscores separates keys, and a single one stands for a hyphen. -/
def pathChars : List Char → List Char
  | '_' :: '_' :: rest => '.' :: pathChars rest
  | '_' :: rest => '-' :: pathChars rest
  | char :: rest => char :: pathChars rest
  | [] => []

def splitDots : List Char → List (List Char)
  | [] => [[]]
  | '.' :: rest => [] :: splitDots rest
  | char :: rest =>
      match splitDots rest with
      | [] => [[char.toLower]]
      | part :: parts => (char.toLower :: part) :: parts

/-- The keys that lead to the value that a variable sets, up to the first empty key. There are none
if the name does not begin as it should or has nothing more. -/
def path? (name : String) : Option (List String) :=
  let chars := Text.trim name.toList
  let rest := chars.drop nameStart.length
  if (chars.take nameStart.length).map Char.toUpper = nameStart ∧ rest ≠ [] then
    some (((splitDots (pathChars rest)).takeWhile (· ≠ [])).map String.ofList)
  else none

def nest (value : Setting) : List String → Setting
  | [] => value
  | key :: rest => .table [(key, nest value rest)]

/-- The settings of all variables, later ones over earlier ones. There are none if a variable sets
the whole configuration to something that is no table. -/
def settings? (bindings : List (String × String)) : Option Setting :=
  bindings.foldlM
    (fun settings binding =>
      match path? binding.1 with
      | none => some settings
      | some path =>
          match nest (parse binding.2) path with
          | .table entries => some (settings.overlay (.table entries))
          | _ => none)
    (.table [])

end ClaimStore.Environment
