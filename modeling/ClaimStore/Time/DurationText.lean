import ClaimStore.Text.Blank
import ClaimStore.Text.Digits
import ClaimStore.Time.Duration

/-!
Durations as text.

A duration is written as a sum of amounts, each with its unit, such as `1m 30s`. When it is read,
amounts may have a fraction, and white space may stand anywhere but inside a unit.
-/
namespace ClaimStore

inductive TimeUnit
  | nanosecond
  | microsecond
  | millisecond
  | second
  | minute
  | hour
  | day
  | week
  | month
  | year
  deriving DecidableEq

namespace TimeUnit

/-- The length of the unit. A month is a twelfth of a year and a year has 365.25 days. -/
def nanos : TimeUnit → Nat
  | .nanosecond => 1
  | .microsecond => 1000
  | .millisecond => nanosPerMilli
  | .second => nanosPerSecond
  | .minute => 60 * nanosPerSecond
  | .hour => 3600 * nanosPerSecond
  | .day => 86400 * nanosPerSecond
  | .week => 604800 * nanosPerSecond
  | .month => 2630016 * nanosPerSecond
  | .year => 31557600 * nanosPerSecond

def seconds (unit : TimeUnit) : Nat := unit.nanos / nanosPerSecond

def names : TimeUnit → List String
  | .nanosecond => ["nanos", "nsec", "ns"]
  | .microsecond => ["usec", "us", "µs"]
  | .millisecond => ["millis", "msec", "ms"]
  | .second => ["seconds", "second", "secs", "sec", "s"]
  | .minute => ["minutes", "minute", "min", "mins", "m"]
  | .hour => ["hours", "hour", "hr", "hrs", "h"]
  | .day => ["days", "day", "d"]
  | .week => ["weeks", "week", "wk", "wks", "w"]
  | .month => ["months", "month", "M"]
  | .year => ["years", "year", "yr", "yrs", "y"]

def all : List TimeUnit :=
  [.nanosecond, .microsecond, .millisecond, .second, .minute, .hour, .day, .week, .month, .year]

def ofName? (name : String) : Option TimeUnit := all.find? fun unit => name ∈ unit.names

/-- The nanoseconds in the units in which whole amounts are counted: units below the second are
counted in nanoseconds and the others in seconds. -/
def grain (unit : TimeUnit) : Nat :=
  if unit.nanos < nanosPerSecond then 1 else nanosPerSecond

/-- The nanoseconds in the units in which fractions are counted: those of units up to the minute
are counted in nanoseconds, those of greater units in seconds. -/
def fractionGrain (unit : TimeUnit) : Nat :=
  if unit.nanos ≤ minute.nanos then 1 else nanosPerSecond

end TimeUnit

namespace Duration

/-- A part of a duration as it is written: digits, digits after a point if there is one, and the
name of a unit. -/
structure WrittenPart where
  whole : List Char
  fraction : Option (List Char)
  unit : String
  deriving DecidableEq

/-- Whether a character can stand between the first digit and the unit. -/
def isNumberChar (char : Char) : Bool := char.isDigit || Text.isBlank char

def isUnitChar (char : Char) : Bool := char.isAlpha || char = 'µ'

def splitFraction (text : List Char) : Option (List Char) × List Char :=
  match text with
  | '.' :: rest => (some (rest.takeWhile isNumberChar), rest.dropWhile isNumberChar)
  | _ => (none, text)

theorem length_dropWhile_le {α : Type} (keep : α → Bool) (items : List α) :
    (items.dropWhile keep).length ≤ items.length := by
  induction items with
  | nil => simp
  | cons item rest ih =>
      simp only [List.dropWhile_cons, List.length_cons]
      split
      · omega
      · simp

theorem splitFraction_length (text : List Char) : (splitFraction text).2.length ≤ text.length := by
  unfold splitFraction
  split
  · have := length_dropWhile_le isNumberChar (by assumption)
    simp only [List.length_cons]
    omega
  · exact Nat.le_refl _

/-- The parts of a text, if each starts with a digit. -/
def writtenParts? (text : List Char) : Option (List WrittenPart) :=
  match text.dropWhile Text.isBlank, length_dropWhile_le Text.isBlank text with
  | [], _ => some []
  | first :: rest, _ =>
      if first.isDigit then
        let whole := first :: rest.takeWhile isNumberChar
        let split := splitFraction (rest.dropWhile isNumberChar)
        let unit := split.2.takeWhile isUnitChar
        (writtenParts? (split.2.dropWhile isUnitChar)).map fun parts =>
          ⟨whole.filter Char.isDigit, split.1.map (List.filter Char.isDigit), String.ofList unit⟩ ::
            parts
      else none
  termination_by text.length
  decreasing_by
    have number := length_dropWhile_le isNumberChar rest
    have fraction := splitFraction_length (rest.dropWhile isNumberChar)
    have unit := length_dropWhile_le isUnitChar (splitFraction (rest.dropWhile isNumberChar)).2
    have shorter : (first :: rest).length ≤ text.length := by assumption
    rw [List.length_cons] at shorter
    omega

/-- The number with these digits, if it is a 64-bit word. -/
def word? (digits : List Char) : Option Nat :=
  let number := Text.ofDigits 10 digits
  if number < UInt64.size then some number else none

/-- A number of nanoseconds, if it is a 64-bit word when it is counted in grains. -/
def counted? (nanos grain : Nat) : Option Nat :=
  if nanos / grain < UInt64.size then some nanos else none

/-- The nanoseconds of a fraction of a unit. It has digits, their number is limited by the words,
and the fraction is a whole number of grains. -/
def fractionNanos? (digits : List Char) (unit : TimeUnit) : Option Nat := do
  let numerator ← word? digits
  let denominator := Number.tenTo digits.length
  if digits = [] ∨ UInt64.size ≤ denominator ∨ unit = .nanosecond then none
  let nanos ← counted? (numerator * unit.nanos) unit.fractionGrain
  if nanos % (denominator * unit.fractionGrain) = 0 then some (nanos / denominator) else none

/-- Adds nanoseconds. Those beyond the whole seconds are counted in a word. -/
def extend? (duration : Duration) (nanos grain : Nat) : Option Duration :=
  if grain = 1 ∧ UInt64.size ≤ duration.subsecond + nanos then none
  else ofNanos? (duration.nanos + nanos)

def addPart? (duration : Duration) (part : WrittenPart) : Option Duration := do
  let unit ← TimeUnit.ofName? part.unit
  let whole ← counted? ((← word? part.whole) * unit.nanos) unit.grain
  let sum ← duration.extend? whole unit.grain
  match part.fraction with
  | none => some sum
  | some digits => sum.extend? (← fractionNanos? digits unit) unit.fractionGrain

/-- The duration with the given text. A lone zero needs no unit. -/
def parse? (text : String) : Option Duration :=
  if text = "0" then some zero
  else
    match writtenParts? text.toList with
    | none | some [] => none
    | some parts => parts.foldlM addPart? zero

/-- An amount with a name after it, unless it is zero. -/
def amountText (amount : Nat) (name plural : String) : List String :=
  if amount = 0 then [] else [toString amount ++ if amount = 1 then name else plural]

def amounts (duration : Duration) : List String :=
  let days := duration.seconds % TimeUnit.year.seconds % TimeUnit.month.seconds
  let day := days % TimeUnit.day.seconds
  let nanos := duration.subsecond
  amountText (duration.seconds / TimeUnit.year.seconds) "year" "years" ++
    amountText (duration.seconds % TimeUnit.year.seconds / TimeUnit.month.seconds)
      "month" "months" ++
    amountText (days / TimeUnit.day.seconds) "day" "days" ++
    amountText (day / 3600) "h" "h" ++
    amountText (day % 3600 / 60) "m" "m" ++
    amountText (day % 60) "s" "s" ++
    amountText (nanos / nanosPerMilli) "ms" "ms" ++
    amountText (nanos / 1000 % 1000) "us" "us" ++
    amountText (nanos % 1000) "ns" "ns"

def text (duration : Duration) : String :=
  if duration.nanos = 0 then "0s" else " ".intercalate duration.amounts

end Duration

end ClaimStore
