import ClaimStore.Proofs.Text.Digits
import ClaimStore.Time.DurationText

/-!
Durations that are written and read.

A duration is written as a sum of whole amounts of descending units. Each of them is read as it was
written, and their sum is the duration.
-/
namespace ClaimStore

namespace Duration

/-- A number of units, with the name that the unit is given in a text. -/
structure Amount where
  count : Nat
  unit : TimeUnit
  name : String

namespace Amount

/-- The amount of a unit, unless it is zero. -/
def ofCount (count : Nat) (unit : TimeUnit) (name plural : String) : List Amount :=
  if count = 0 then [] else [⟨count, unit, if count = 1 then name else plural⟩]

def text (amount : Amount) : String := toString amount.count ++ amount.name

def nanos (amount : Amount) : Nat := amount.count * amount.unit.nanos

def written (amount : Amount) : WrittenPart :=
  ⟨Nat.toDigits 10 amount.count, none, amount.name⟩

/-- An amount that can be read: its unit is found by its name, and it is small enough to be
counted. -/
structure Readable (amount : Amount) : Prop where
  found : TimeUnit.ofName? amount.name = some amount.unit
  word : amount.name.toList ≠ [] ∧ amount.name.toList.all isUnitChar = true
  count : amount.count < UInt64.size
  counted : amount.nanos / amount.unit.grain < UInt64.size
  subsecond : amount.unit.grain = 1 → amount.nanos < nanosPerSecond

theorem amountText_eq (count : Nat) (unit : TimeUnit) (name plural : String) :
    amountText count name plural = (ofCount count unit name plural).map text := by
  unfold amountText ofCount
  split
  · rfl
  · rfl

end Amount

def total (amounts : List Amount) : Nat := (amounts.map Amount.nanos).sum

def parts (duration : Duration) : List Amount :=
  let days := duration.seconds % TimeUnit.year.seconds % TimeUnit.month.seconds
  let day := days % TimeUnit.day.seconds
  let nanos := duration.subsecond
  Amount.ofCount (duration.seconds / TimeUnit.year.seconds) .year "year" "years" ++
    Amount.ofCount (duration.seconds % TimeUnit.year.seconds / TimeUnit.month.seconds) .month
      "month" "months" ++
    Amount.ofCount (days / TimeUnit.day.seconds) .day "day" "days" ++
    Amount.ofCount (day / 3600) .hour "h" "h" ++
    Amount.ofCount (day % 3600 / 60) .minute "m" "m" ++
    Amount.ofCount (day % 60) .second "s" "s" ++
    Amount.ofCount (nanos / nanosPerMilli) .millisecond "ms" "ms" ++
    Amount.ofCount (nanos / 1000 % 1000) .microsecond "us" "us" ++
    Amount.ofCount (nanos % 1000) .nanosecond "ns" "ns"

theorem amounts_eq (duration : Duration) : duration.amounts = duration.parts.map Amount.text := by
  simp only [parts, List.map_append, ← Amount.amountText_eq]
  rfl

theorem total_append (first second : List Amount) : total (first ++ second) = total first + total second := by
  rw [total, List.map_append, List.sum_append]
  rfl

theorem total_ofCount (count : Nat) (unit : TimeUnit) (name plural : String) :
    total (Amount.ofCount count unit name plural) = count * unit.nanos := by
  unfold Amount.ofCount
  split
  · rename_i zero
    rw [zero, Nat.zero_mul]
    rfl
  · simp [total, Amount.nanos]

theorem total_parts (duration : Duration) : total duration.parts = duration.nanos := by
  simp only [parts, total_append, total_ofCount, TimeUnit.nanos, TimeUnit.seconds, seconds, subsecond,
    nanosPerMilli, nanosPerSecond]
  omega

/-! ### Reading -/

theorem not_isBlank_of_isDigit {char : Char} (digit : char.isDigit = true) :
    Text.isBlank char = false := by
  simp only [Char.isDigit, Bool.and_eq_true, decide_eq_true_eq] at digit
  have low : 48 ≤ char.toNat := digit.1
  have high : char.toNat ≤ 57 := digit.2
  simp only [Text.isBlank, Bool.or_eq_false_iff, Bool.and_eq_false_iff, decide_eq_false_iff_not]
  omega

/-- The name of a unit starts with nothing that can belong to a number. -/
theorem unitChar_apart {char : Char} (unit : isUnitChar char = true) :
    isNumberChar char = false ∧ char ≠ '.' := by
  have range : 65 ≤ char.toNat ∧ char.toNat ≤ 90 ∨ 97 ≤ char.toNat ∧ char.toNat ≤ 122 ∨
      char.toNat = 181 := by
    delta isUnitChar Char.isAlpha Char.isUpper Char.isLower at unit
    simp only [Bool.or_eq_true, Bool.and_eq_true, decide_eq_true_eq] at unit
    rcases unit with (upper | lower) | rfl
    · exact .inl ⟨upper.1, upper.2⟩
    · exact .inr (.inl ⟨lower.1, lower.2⟩)
    · exact .inr (.inr rfl)
  constructor
  · have digit : char.isDigit = false := by
      simp only [Char.isDigit, Bool.and_eq_false_iff, decide_eq_false_iff_not]
      right
      intro high
      have : char.toNat ≤ 57 := high
      omega
    simp only [isNumberChar, digit, Text.isBlank, Bool.false_or, Bool.or_eq_false_iff,
      Bool.and_eq_false_iff, decide_eq_false_iff_not]
    omega
  · rintro rfl
    revert range
    decide

/-- What is read depends on the text after the blanks in front. -/
theorem writtenParts?_eq (text : List Char) :
    writtenParts? text =
      match text.dropWhile Text.isBlank with
      | [] => some []
      | first :: rest =>
          if first.isDigit then
            let split := splitFraction (rest.dropWhile isNumberChar)
            (writtenParts? (split.2.dropWhile isUnitChar)).map fun parts =>
              ⟨(first :: rest.takeWhile isNumberChar).filter Char.isDigit,
                  split.1.map (List.filter Char.isDigit),
                  String.ofList (split.2.takeWhile isUnitChar)⟩ :: parts
          else none := by
  rw [writtenParts?]
  split <;> rename_i same _ <;> rw [same]

theorem writtenParts?_blank (text : List Char) :
    writtenParts? (' ' :: text) = writtenParts? text := by
  rw [writtenParts?_eq, writtenParts?_eq text, List.dropWhile_cons_of_pos rfl]

theorem writtenParts?_digit {first : Char} (digit : first.isDigit = true) (rest : List Char) :
    writtenParts? (first :: rest) =
      let split := splitFraction (rest.dropWhile isNumberChar)
      (writtenParts? (split.2.dropWhile isUnitChar)).map fun parts =>
        ⟨(first :: rest.takeWhile isNumberChar).filter Char.isDigit,
            split.1.map (List.filter Char.isDigit),
            String.ofList (split.2.takeWhile isUnitChar)⟩ :: parts := by
  have shown : ¬ Text.isBlank first = true := by
    rw [not_isBlank_of_isDigit digit]
    exact Bool.false_ne_true
  rw [writtenParts?_eq, List.dropWhile_cons_of_neg shown]
  simp only [digit, if_true]

/-- An amount is read as it was written if a blank or nothing follows it. -/
theorem writtenParts?_amount {amount : Amount} (readable : amount.Readable) {rest : List Char}
    (ends : rest.head?.all (· = ' ') = true) :
    writtenParts? (amount.text.toList ++ rest) =
      (writtenParts? rest).map (amount.written :: ·) := by
  obtain ⟨some, unit⟩ := readable.word
  rw [List.all_eq_true] at unit
  have digits : ∀ char ∈ Nat.toDigits 10 amount.count, char.isDigit = true :=
    fun _ => Text.isDigit_of_mem
  have kept : ∀ chars : List Char, (∀ char ∈ chars, char.isDigit = true) →
      ∀ char ∈ chars, isNumberChar char = true := by
    intro chars all char member
    simp [isNumberChar, all char member]
  cases number : Nat.toDigits 10 amount.count with
  | nil => exact absurd number Nat.toDigits_ne_nil
  | cons first more =>
      rw [number] at digits
      cases name : amount.name.toList with
      | nil => exact absurd name some
      | cons letter letters =>
          rw [name] at unit
          obtain ⟨other, point⟩ := unitChar_apart (unit letter List.mem_cons_self)
          have text : amount.text.toList ++ rest =
              first :: (more ++ ((letter :: letters) ++ rest)) := by
            simp [Amount.text, number, name]
          have tail : ∀ char ∈ more, char.isDigit = true :=
            fun char member => digits char (List.mem_cons_of_mem _ member)
          have stops : rest.takeWhile isUnitChar = [] := by
            cases rest with
            | nil => rfl
            | cons blank _ =>
                rw [show blank = ' ' by simpa using ends]
                rfl
          have left : rest.dropWhile isUnitChar = rest := by
            cases rest with
            | nil => rfl
            | cons blank _ =>
                rw [show blank = ' ' by simpa using ends]
                rfl
          have whole : (more ++ ((letter :: letters) ++ rest)).takeWhile isNumberChar = more := by
            rw [List.takeWhile_append_of_pos (kept more tail)]
            simp [other]
          have behind : (more ++ ((letter :: letters) ++ rest)).dropWhile isNumberChar =
              (letter :: letters) ++ rest := by
            rw [List.dropWhile_append_of_pos (kept more tail)]
            simp [other]
          have split : splitFraction ((letter :: letters) ++ rest) =
              (none, (letter :: letters) ++ rest) := by
            unfold splitFraction
            split
            · rename_i same
              cases same
              exact absurd rfl point
            · rfl
          rw [text, writtenParts?_digit (digits first List.mem_cons_self)]
          simp only [whole, behind, split, List.takeWhile_append_of_pos unit, stops,
            List.dropWhile_append_of_pos unit, left, List.append_nil, Option.map_none]
          rw [List.filter_eq_self.mpr digits, ← number, ← name, String.ofList_toList]
          rfl

theorem writtenParts?_amounts {amounts : List Amount}
    (readable : ∀ amount ∈ amounts, amount.Readable) :
    writtenParts? (" ".intercalate (amounts.map Amount.text)).toList =
      some (amounts.map Amount.written) := by
  induction amounts with
  | nil =>
      rw [writtenParts?]
      rfl
  | cons first rest ih =>
      have own := readable first List.mem_cons_self
      have others := ih fun amount member => readable amount (List.mem_cons_of_mem _ member)
      cases rest with
      | nil =>
          have ends : ([] : List Char).head?.all (· = ' ') = true := rfl
          have alone := writtenParts?_amount own ends
          rw [List.append_nil] at alone
          rw [List.map_cons, List.map_nil, String.intercalate_singleton, alone]
          rw [writtenParts?]
          rfl
      | cons second more =>
          rw [List.map_cons, List.map_cons, String.intercalate_cons_cons, String.append_assoc,
            String.toList_append, writtenParts?_amount own, String.toList_append]
          · rw [show " ".toList = [' '] from rfl, List.singleton_append, writtenParts?_blank,
              ← List.map_cons, others]
            rfl
          · rw [String.toList_append]
            rfl

/-! ### Adding up -/

theorem addPart?_amount {amount : Amount} (readable : amount.Readable) (duration : Duration) :
    duration.addPart? amount.written = ofNanos? (duration.nanos + amount.nanos) := by
  have word : word? (Nat.toDigits 10 amount.count) = some amount.count := by
    simp [word?, readable.count]
  have counted : counted? (amount.count * amount.unit.nanos) amount.unit.grain =
      some amount.nanos := if_pos readable.counted
  have small : ¬ (amount.unit.grain = 1 ∧ UInt64.size ≤ duration.subsecond + amount.nanos) := by
    rintro ⟨grain, large⟩
    have amountSmall := readable.subsecond grain
    have rest : duration.subsecond < nanosPerSecond := Nat.mod_lt _ (by decide)
    have bound : nanosPerSecond + nanosPerSecond < UInt64.size := by decide
    omega
  simp only [addPart?, Amount.written, readable.found, word, counted, Option.bind_eq_bind,
    Option.bind_some, extend?, if_neg small]
  cases ofNanos? (duration.nanos + amount.nanos) <;> rfl

theorem foldlM_addPart? {amounts : List Amount} (readable : ∀ amount ∈ amounts, amount.Readable)
    (start : Duration) (bounded : start.nanos + total amounts < UInt64.size * nanosPerSecond) :
    (amounts.map Amount.written).foldlM addPart? start = some ⟨start.nanos + total amounts, bounded⟩ := by
  induction amounts generalizing start with
  | nil => rfl
  | cons first rest ih =>
      have sum : total (first :: rest) = first.nanos + total rest := total_append [first] rest
      have fits : start.nanos + first.nanos < UInt64.size * nanosPerSecond := by omega
      rw [List.map_cons, List.foldlM_cons, addPart?_amount (readable first List.mem_cons_self),
        ofNanos?, dif_pos fits]
      have later := ih (fun amount member => readable amount (List.mem_cons_of_mem _ member))
        ⟨start.nanos + first.nanos, fits⟩ (by show start.nanos + first.nanos + total rest < _; omega)
      simp only [Option.bind_eq_bind, Option.bind_some, later, Option.some.injEq, mk.injEq]
      omega

theorem Amount.readable_ofCount {count : Nat} {unit : TimeUnit} {name plural : String}
    (found : ∀ word ∈ [name, plural], TimeUnit.ofName? word = some unit ∧ word.toList ≠ [] ∧
      word.toList.all isUnitChar = true)
    (small : count < UInt64.size) (counted : count * unit.nanos / unit.grain < UInt64.size)
    (subsecond : unit.grain = 1 → count * unit.nanos < nanosPerSecond) :
    ∀ amount ∈ ofCount count unit name plural, amount.Readable := by
  intro amount member
  unfold ofCount at member
  split at member
  · cases member
  · rw [List.mem_singleton] at member
    subst member
    have named : (if count = 1 then name else plural) ∈ [name, plural] := by
      split <;> simp
    obtain ⟨own, word⟩ := found _ named
    exact ⟨own, word, small, counted, subsecond⟩

/-- All amounts of a duration can be read. Those below the second are less than one second, and all
others are at most the whole duration. -/
theorem readable_parts (duration : Duration) : ∀ amount ∈ duration.parts, amount.Readable := by
  have bound : duration.nanos < 18446744073709551616 * 1000000000 := duration.bounded
  simp only [parts, List.mem_append]
  rintro amount ((((((((member | member) | member) | member) | member) | member) | member) | member) |
    member) <;>
    refine Amount.readable_ofCount (by decide) ?_ ?_ ?_ amount member <;>
    simp [TimeUnit.grain, TimeUnit.nanos, TimeUnit.seconds, seconds, subsecond, nanosPerMilli,
      nanosPerSecond, UInt64.size] <;>
    omega

theorem text_length {amounts : List Amount} (readable : ∀ amount ∈ amounts, amount.Readable)
    (some : amounts ≠ []) : 2 ≤ (" ".intercalate (amounts.map Amount.text)).toList.length := by
  cases amounts with
  | nil => exact absurd rfl some
  | cons first rest =>
      have own : 2 ≤ first.text.toList.length := by
        have number : 0 < (Nat.toDigits 10 first.count).length := Nat.length_toDigits_pos
        have name := List.length_pos_iff.mpr (readable first List.mem_cons_self).word.1
        simp only [Amount.text, String.toList_append, Nat.toString_eq_repr, Nat.toList_repr,
          List.length_append]
        omega
      cases rest with
      | nil => simpa using own
      | cons second more =>
          rw [List.map_cons, List.map_cons, String.intercalate_cons_cons, String.append_assoc,
            String.toList_append, List.length_append]
          omega

/-- What is read of a duration that was written is the duration. -/
theorem parse?_text (duration : Duration) : parse? duration.text = some duration := by
  unfold text
  split
  · rename_i zero
    have same : duration = Duration.zero := by
      cases duration
      cases zero
      rfl
    rw [same]
    decide +kernel
  · rename_i positive
    have readable := duration.readable_parts
    have some : duration.parts ≠ [] := by
      intro none
      rw [← duration.total_parts, none] at positive
      exact positive rfl
    have long : " ".intercalate duration.amounts ≠ "0" := by
      intro same
      have length := text_length readable some
      rw [← amounts_eq, same] at length
      exact absurd length (by decide)
    rw [parse?, if_neg long, amounts_eq, writtenParts?_amounts readable]
    have bounded : Duration.zero.nanos + total duration.parts < UInt64.size * nanosPerSecond := by
      rw [duration.total_parts, Duration.zero, Nat.zero_add]
      exact duration.bounded
    have sum := foldlM_addPart? readable Duration.zero bounded
    cases written : duration.parts.map Amount.written with
    | nil => exact absurd (List.map_eq_nil_iff.mp written) some
    | cons first rest =>
        rw [written] at sum
        simp only [sum, Option.some.injEq]
        have nanos : Duration.zero.nanos + total duration.parts = duration.nanos := by
          rw [duration.total_parts, Duration.zero, Nat.zero_add]
        cases duration
        simp only [mk.injEq]
        exact nanos

end Duration

end ClaimStore
