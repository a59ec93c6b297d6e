import ClaimStore.Config.Setting
import ClaimStore.Number.Decimal
import ClaimStore.Text.Digits

/-!
TOML values that are single words: truth values, numbers and dates.
-/
namespace ClaimStore.Toml

/-- The digits of a number, without the underscores that may stand between two digits. -/
def ungrouped? (base : Nat) : List Char → Option (List Char)
  | [] => none
  | [digit] => if Text.isDigitIn base digit then some [digit] else none
  | digit :: '_' :: rest =>
      if Text.isDigitIn base digit then (ungrouped? base rest).map (digit :: ·) else none
  | digit :: rest =>
      if Text.isDigitIn base digit then (ungrouped? base rest).map (digit :: ·) else none

/-- Whether a word is negative, and the word without its sign. -/
def splitSign : List Char → Bool × List Char
  | '-' :: rest => (true, rest)
  | '+' :: rest => (false, rest)
  | word => (false, word)

/-- The digits of a whole decimal number, which has no zero in front. -/
def wholeDigits? : List Char → Option (List Char)
  | ['0'] => some ['0']
  | '0' :: _ => none
  | word => ungrouped? 10 word

/-- The integer with sign and magnitude, if it is a signed 64-bit word. -/
def signedWord? (negative : Bool) (magnitude : Nat) : Option Setting :=
  let value : Int := if negative then -magnitude else magnitude
  if Int64.minValue.toInt ≤ value ∧ value ≤ Int64.maxValue.toInt then
    some (.integer (Int64.ofInt value))
  else none

def basedInteger? (base : Nat) (digits : List Char) : Option Setting := do
  signedWord? false (Text.ofDigits base (← ungrouped? base digits))

def integer? (word : List Char) : Option Setting :=
  match word with
  | '0' :: 'x' :: rest => basedInteger? 16 rest
  | '0' :: 'o' :: rest => basedInteger? 8 rest
  | '0' :: 'b' :: rest => basedInteger? 2 rest
  | _ =>
      let (negative, rest) := splitSign word
      (wholeDigits? rest).bind fun digits => signedWord? negative (Text.ofDigits 10 digits)

/-- The power of ten of an exponent part; no part stands for the power zero. -/
def exponent? : List Char → Option Int
  | [] => some 0
  | _ :: rest => do
      let (negative, digits) := splitSign rest
      let magnitude := Text.ofDigits 10 (← ungrouped? 10 digits)
      some (if negative then -magnitude else magnitude)

/-- The number of a word with a point or an exponent. A number above all finite ones is refused. -/
def decimalFloat? (word : List Char) : Option Setting := do
  let (negative, rest) := splitSign word
  let mantissa := rest.takeWhile fun char => char ≠ 'e' && char ≠ 'E'
  let exponent := rest.drop mantissa.length
  let whole := mantissa.takeWhile (· ≠ '.')
  let point := mantissa.drop whole.length
  if point = [] ∧ exponent = [] then none
  let wholeDigits ← wholeDigits? whole
  let fraction ← if point = [] then some [] else ungrouped? 10 (point.drop 1)
  let decimal : Number.Decimal :=
    { negative, digits := Text.ofDigits 10 (wholeDigits ++ fraction)
      exponent := (← exponent? exponent) - fraction.length }
  let number := decimal.toDouble
  if number.datum = .infinite false then none else some (.float number)

/-- The numbers that have names, each with or without a sign. -/
def namedFloat? (word : List Char) : Option Setting :=
  let (negative, name) := splitSign word
  if name = "inf".toList then some (.float (.ofDatum (.infinite negative)))
  else if name = "nan".toList then some (.float (.ofDatum .nan))
  else none

def field? (count low high : Nat) (digits : List Char) : Option Nat :=
  let number := Text.ofDigits 10 digits
  if digits.length = count ∧ digits.all Char.isDigit ∧ low ≤ number ∧ number ≤ high then
    some number
  else none

def daysOfMonth (year month : Nat) : Nat :=
  if month = 2 then
    if year % 4 = 0 ∧ (year % 100 ≠ 0 ∨ year % 400 = 0) then 29 else 28
  else if month ∈ [4, 6, 9, 11] then 30
  else 31

/-- Whether a word is a date such as `1979-05-27`. -/
def isDate (word : List Char) : Bool :=
  match field? 4 0 9999 (word.take 4), word.drop 4 with
  | some year, '-' :: rest =>
      match field? 2 1 12 (rest.take 2), rest.drop 2 with
      | some month, '-' :: day => (field? 2 1 (daysOfMonth year month) day).isSome
      | _, _ => false
  | _, _ => false

/-- Whether a word is a distance to universal time such as `Z` or `+01:00`. -/
def isOffset : List Char → Bool
  | ['Z'] | ['z'] => true
  | sign :: rest =>
      (sign = '+' || sign = '-') && (field? 2 0 23 (rest.take 2)).isSome &&
        (rest.drop 2).take 1 = [':'] && (field? 2 0 59 (rest.drop 3)).isSome
  | [] => false

/-- Whether a word is a time such as `07:32:00.5`. An offset may follow it if `zoned` holds. -/
def isTime (zoned : Bool) (word : List Char) : Bool :=
  let clock := word.take 8
  let rest := word.drop 8
  let fraction := (rest.drop 1).takeWhile Char.isDigit
  let rest :=
    if rest.take 1 = ['.'] ∧ fraction ≠ [] then rest.drop (fraction.length + 1) else rest
  (field? 2 0 23 (clock.take 2)).isSome && (clock.drop 2).take 1 = [':'] &&
    (field? 2 0 59 ((clock.drop 3).take 2)).isSome && (clock.drop 5).take 1 = [':'] &&
    (field? 2 0 60 (clock.drop 6)).isSome && (rest = [] || (zoned && isOffset rest))

/-- Whether a word is a date and a time with a `T` between them. -/
def isDateTime (word : List Char) : Bool :=
  isDate (word.take 10) && ((word.drop 10).take 1 = ['T'] || (word.drop 10).take 1 = ['t']) &&
    isTime true (word.drop 11)

/-- Dates and times are no settings of any option. They are kept as tables with one entry, as they
are handed on. -/
def moment (word : List Char) : Setting :=
  .table [("date-time", .text (String.ofList word))]

/-- The value of a word that is no date followed by a time. -/
def word? (word : List Char) : Option Setting :=
  if word = "true".toList then some (.boolean true)
  else if word = "false".toList then some (.boolean false)
  else if isDate word || isTime false word || isDateTime word then some (moment word)
  else (namedFloat? word).or ((integer? word).or (decimalFloat? word))

def isWordChar (char : Char) : Bool :=
  char.isAlphanum || char = '_' || char = '+' || char = '-' || char = '.' || char = ':'

/-- A value that is a word. A blank may stand between a date and a time. -/
def scalar (text : List Char) : Option (Setting × List Char) :=
  let word := text.takeWhile isWordChar
  let rest := text.drop word.length
  let time := (rest.drop 1).takeWhile isWordChar
  if isDate word ∧ rest.take 1 = [' '] ∧ isTime true time then
    some (moment (word ++ ' ' :: time), rest.drop (time.length + 1))
  else (word? word).map fun value => (value, rest)

end ClaimStore.Toml
