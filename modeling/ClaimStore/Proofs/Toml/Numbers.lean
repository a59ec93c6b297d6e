import ClaimStore.Toml.Document
import ClaimStore.Toml.Writer
import ClaimStore.Proofs.Number.Shortest
import ClaimStore.Proofs.Text.Digits
import Mathlib.Data.List.TakeWhile

/-!
Numbers in documents.

A number is written as a word of digits, with a sign in front and a point between them. Such a word
is neither a date nor a time, and it is read as the number that it was written for.
-/
namespace ClaimStore.Toml

open Text

variable {word whole fraction : List Char}

/-! ### Words of numbers -/

/-- Words that consist of digits and points after an optional minus sign. -/
structure IsNumeral (word : List Char) : Prop where
  chars : ∀ char ∈ word, char.isDigit = true ∨ char = '.' ∨ char = '-'
  signed : '-' ∉ word.drop 1

theorem IsNumeral.not_mem (numeral : IsNumeral word) (char : Char) (other : char.isDigit = false)
    (point : char ≠ '.') (sign : char ≠ '-') : char ∉ word := by
  intro member
  rcases numeral.chars char member with digit | here | here
  · rw [other] at digit
    cases digit
  · exact point here
  · exact sign here

theorem mem_of_isDate (date : isDate word = true) : '-' ∈ word.drop 4 := by
  unfold isDate at date
  split at date
  · rename_i rest _
    rename_i tail
    rw [tail]
    exact List.mem_cons_self
  · cases date

theorem IsNumeral.isDate_eq (numeral : IsNumeral word) : isDate word = false := by
  by_contra date
  rw [Bool.not_eq_false] at date
  have member := mem_of_isDate date
  rw [← List.drop_drop (i := 3) (j := 1)] at member
  exact numeral.signed (List.mem_of_mem_drop member)

theorem mem_of_isTime {zoned : Bool} (time : isTime zoned word = true) : ':' ∈ word := by
  simp only [isTime, Bool.and_eq_true, decide_eq_true_eq] at time
  obtain ⟨⟨⟨⟨⟨-, colon⟩, -⟩, -⟩, -⟩, -⟩ := time
  have member : ':' ∈ ((word.take 8).drop 2).take 1 := by
    rw [colon]
    exact List.mem_cons_self
  exact List.mem_of_mem_take (List.mem_of_mem_drop (List.mem_of_mem_take member))

theorem IsNumeral.take (numeral : IsNumeral word) (count : Nat) : IsNumeral (word.take count) := by
  refine ⟨fun char member => numeral.chars char (List.mem_of_mem_take member), ?_⟩
  intro member
  rw [List.drop_take] at member
  exact numeral.signed (List.mem_of_mem_take member)

/-- A numeral is no date and no time, and has no name. -/
theorem IsNumeral.word?_eq (numeral : IsNumeral word) :
    word? word = (integer? word).or (decimalFloat? word) := by
  have time : isTime false word = false := by
    by_contra time
    rw [Bool.not_eq_false] at time
    exact numeral.not_mem ':' (by decide) (by decide) (by decide) (mem_of_isTime time)
  have dateTime : isDateTime word = false := by
    rw [isDateTime, (numeral.take 10).isDate_eq]
    rfl
  have without : ∀ (name : List Char) (char : Char), char ∈ name → char.isDigit = false →
      char ≠ '.' → char ≠ '-' → (word ≠ name ∧ (splitSign word).2 ≠ name) := by
    intro name char member other point sign
    refine ⟨fun same => numeral.not_mem char other point sign (same ▸ member), fun same => ?_⟩
    refine numeral.not_mem char other point sign ?_
    rw [← same] at member
    unfold splitSign at member
    split at member
    · exact List.mem_cons_of_mem _ member
    · exact List.mem_cons_of_mem _ member
    · exact member
  have named : namedFloat? word = none := by
    dsimp only [namedFloat?]
    rw [if_neg (without _ 'n' (by decide) (by decide) (by decide) (by decide)).2,
      if_neg (without _ 'n' (by decide) (by decide) (by decide) (by decide)).2]
  rw [word?, if_neg (without _ 'u' (by decide) (by decide) (by decide) (by decide)).1,
    if_neg (without _ 'f' (by decide) (by decide) (by decide) (by decide)).1, numeral.isDate_eq, time,
    dateTime, named]
  rfl

/-! ### Digits -/

theorem ungrouped?_digits (all : ∀ char ∈ word, char.isDigit = true) (some : word ≠ []) :
    ungrouped? 10 word = .some word := by
  induction word with
  | nil => exact absurd rfl some
  | cons first rest ih =>
      have digit := isDigitIn_ten (all first List.mem_cons_self)
      cases rest with
      | nil => simp [ungrouped?, digit]
      | cons second others =>
          have plain : second ≠ '_' := by
            rintro rfl
            have := all '_' (List.mem_cons_of_mem _ List.mem_cons_self)
            revert this
            decide
          rw [ungrouped?, if_pos digit, ih (fun char member => all char (List.mem_cons_of_mem _ member))
            (List.cons_ne_nil _ _)]
          · rfl
          · exact List.cons_ne_nil _ _
          · intro _ same
            exact plain (List.cons.inj same).1

theorem mem_of_ungrouped? {base : Nat} {digits : List Char}
    (found : ungrouped? base word = some digits) :
    ∀ char ∈ word, char = '_' ∨ isDigitIn base char = true := by
  fun_induction ungrouped? base word generalizing digits with
  | case1 => cases found
  | case2 digit inBase =>
      intro char member
      obtain rfl := List.mem_singleton.mp member
      exact .inr inBase
  | case3 => cases found
  | case4 digit rest inBase ih =>
      obtain ⟨others, same, -⟩ := Option.map_eq_some_iff.mp found
      intro char member
      rcases List.mem_cons.mp member with rfl | member
      · exact .inr inBase
      · rcases List.mem_cons.mp member with rfl | member
        · exact .inl rfl
        · exact ih same char member
  | case5 => cases found
  | case6 digit rest _ _ inBase ih =>
      obtain ⟨others, same, -⟩ := Option.map_eq_some_iff.mp found
      intro char member
      rcases List.mem_cons.mp member with rfl | member
      · exact .inr inBase
      · exact ih same char member
  | case7 => cases found

theorem mem_of_wholeDigits? {digits : List Char} (found : wholeDigits? word = some digits) :
    ∀ char ∈ word, char = '_' ∨ isDigitIn 10 char = true := by
  unfold wholeDigits? at found
  split at found
  · intro char member
    obtain rfl := List.mem_singleton.mp member
    exact .inr (by decide)
  · cases found
  · exact mem_of_ungrouped? found

theorem wholeDigits?_cons {first : Char} {rest : List Char} (nonzero : first ≠ '0')
    (all : ∀ char ∈ first :: rest, char.isDigit = true) :
    wholeDigits? (first :: rest) = some (first :: rest) := by
  have same := ungrouped?_digits all (List.cons_ne_nil _ _)
  unfold wholeDigits?
  split
  · rename_i zero
    exact absurd (List.cons.inj zero).1 nonzero
  · rename_i zero
    exact absurd (List.cons.inj zero).1 nonzero
  · exact same

/-- The digits of a number have no zero in front. -/
theorem wholeDigits?_toDigits (number : Nat) :
    wholeDigits? (Nat.toDigits 10 number) = some (Nat.toDigits 10 number) := by
  rcases Nat.eq_zero_or_pos number with rfl | positive
  · rfl
  · obtain ⟨first, rest, digits, -, nonzero⟩ := toDigits_head positive
    have all : ∀ char ∈ Nat.toDigits 10 number, char.isDigit = true := fun _ => isDigit_of_mem
    rw [digits] at all ⊢
    exact wholeDigits?_cons nonzero all

/-! ### Signs -/

def signChars (negative : Bool) : List Char := if negative then ['-'] else []

theorem splitSign_signed (negative : Bool) (all : ∀ char ∈ word, char.isDigit = true)
    (some : word ≠ []) (rest : List Char) :
    splitSign (signChars negative ++ (word ++ rest)) = (negative, word ++ rest) := by
  obtain ⟨first, others, rfl⟩ := List.exists_cons_of_ne_nil some
  have digit := all first List.mem_cons_self
  cases negative with
  | true => rfl
  | false =>
      show splitSign (first :: (others ++ rest)) = _
      unfold splitSign
      split
      · rename_i same
        rw [(List.cons.inj same).1] at digit
        cases digit
      · rename_i same
        rw [(List.cons.inj same).1] at digit
        cases digit
      · rfl

theorem isNumeral_signed (negative : Bool)
    (chars : ∀ char ∈ word, char.isDigit = true ∨ char = '.') :
    IsNumeral (signChars negative ++ word) := by
  have plain : '-' ∉ word := by
    intro member
    rcases chars _ member with digit | point
    · cases digit
    · cases point
  cases negative with
  | true =>
      refine ⟨fun char member => ?_, plain⟩
      rcases List.mem_cons.mp member with rfl | member
      · exact .inr (.inr rfl)
      · exact (chars char member).imp_right .inl
  | false =>
      exact ⟨fun char member => (chars char member).imp_right .inl,
        fun member => plain (List.mem_of_mem_drop member)⟩

/-- A numeral names no base, so its digits are decimal ones. -/
theorem IsNumeral.integer?_eq (numeral : IsNumeral word) :
    integer? word = (wholeDigits? (splitSign word).2).bind fun digits =>
      signedWord? (splitSign word).1 (ofDigits 10 digits) := by
  unfold integer?
  split
  · exact absurd (List.mem_cons_of_mem _ List.mem_cons_self)
      (numeral.not_mem 'x' (by decide) (by decide) (by decide))
  · exact absurd (List.mem_cons_of_mem _ List.mem_cons_self)
      (numeral.not_mem 'o' (by decide) (by decide) (by decide))
  · exact absurd (List.mem_cons_of_mem _ List.mem_cons_self)
      (numeral.not_mem 'b' (by decide) (by decide) (by decide))
  · rfl

/-- The digits of a number are read as an integer. -/
theorem word?_integer (negative : Bool) {number : Nat} {value : Setting}
    (fits : signedWord? negative number = some value) :
    word? (signChars negative ++ Nat.toDigits 10 number) = some value := by
  have digits : ∀ char ∈ Nat.toDigits 10 number, char.isDigit = true := fun _ => isDigit_of_mem
  have numeral : IsNumeral (signChars negative ++ Nat.toDigits 10 number) :=
    isNumeral_signed negative fun char member => .inl (digits char member)
  have sign := splitSign_signed negative digits Nat.toDigits_ne_nil []
  rw [List.append_nil] at sign
  rw [numeral.word?_eq, numeral.integer?_eq, sign]
  dsimp only
  rw [wholeDigits?_toDigits, Option.bind_some, ofDigits_toDigits, fits]
  rfl

/-! ### Decimals -/

/-- The decimal that digits before and after a point stand for. -/
def pointed (negative : Bool) (whole fraction : List Char) : Number.Decimal :=
  ⟨negative, ofDigits 10 (whole ++ fraction), -fraction.length⟩

theorem ne_nil_of_wholeDigits? {digits : List Char} (found : wholeDigits? word = some digits) :
    word ≠ [] := by
  rintro rfl
  cases found

theorem isNumeral_pointed (negative : Bool) (plain : ∀ char ∈ whole, char.isDigit = true)
    (others : ∀ char ∈ fraction, char.isDigit = true) :
    IsNumeral (signChars negative ++ (whole ++ '.' :: fraction)) := by
  refine isNumeral_signed negative fun char member => ?_
  rcases List.mem_append.mp member with member | member
  · exact .inl (plain char member)
  · exact (List.mem_cons.mp member).symm.imp_left (others char)

/-- A decimal is read by its digits before and after the point. -/
theorem decimalFloat?_pointed (negative : Bool) (plain : ∀ char ∈ whole, char.isDigit = true)
    (others : ∀ char ∈ fraction, char.isDigit = true) (some : fraction ≠ [])
    (leading : wholeDigits? whole = .some whole) :
    decimalFloat? (signChars negative ++ (whole ++ '.' :: fraction)) =
      if (pointed negative whole fraction).toDouble.datum = .infinite false then none
      else .some (.float (pointed negative whole fraction).toDouble) := by
  have sign := splitSign_signed negative plain (ne_nil_of_wholeDigits? leading) ('.' :: fraction)
  have mantissa : (whole ++ '.' :: fraction).takeWhile (fun char => char ≠ 'e' && char ≠ 'E') =
      whole ++ '.' :: fraction := by
    rw [List.takeWhile_eq_self_iff]
    intro char member
    have shape : char.isDigit = true ∨ char = '.' := by
      rcases List.mem_append.mp member with member | member
      · exact .inl (plain char member)
      · exact (List.mem_cons.mp member).symm.imp_left (others char)
    by_contra exponent
    have letter : char = 'e' ∨ char = 'E' := by
      simpa only [Bool.and_eq_true, decide_eq_true_eq, not_and_or, not_not] using exponent
    rcases letter with rfl | rfl <;> rcases shape with digit | point
    · cases digit
    · cases point
    · cases digit
    · cases point
  have digits : (whole ++ '.' :: fraction).takeWhile (· ≠ '.') = whole := by
    rw [List.takeWhile_append_of_pos, List.takeWhile_cons_of_neg (by decide), List.append_nil]
    intro char member
    refine decide_eq_true ?_
    rintro rfl
    cases plain '.' member
  have noExponent : exponent? [] = .some 0 := rfl
  dsimp only [decimalFloat?]
  rw [sign]
  dsimp only
  rw [mantissa, digits, List.drop_length, List.drop_left, if_neg (fun both => nomatch both.1),
    leading]
  simp only [Option.bind_eq_bind, Option.bind_some, reduceCtorEq, if_false, List.drop_succ_cons,
    List.drop_zero, ungrouped?_digits others some, noExponent, Int.zero_sub]
  rfl

theorem word?_decimal (negative : Bool) (plain : ∀ char ∈ whole, char.isDigit = true)
    (others : ∀ char ∈ fraction, char.isDigit = true) (some : fraction ≠ [])
    (leading : wholeDigits? whole = .some whole)
    (finite : (pointed negative whole fraction).toDouble.datum ≠ .infinite false) :
    word? (signChars negative ++ (whole ++ '.' :: fraction)) =
      .some (.float (pointed negative whole fraction).toDouble) := by
  have numeral := isNumeral_pointed negative plain others
  have noWhole : wholeDigits? (whole ++ '.' :: fraction) = none := by
    rw [Option.eq_none_iff_forall_ne_some]
    intro digits found
    have member : '.' ∈ whole ++ '.' :: fraction := by simp
    rcases mem_of_wholeDigits? found '.' member with other | digit
    · cases other
    · cases digit
  have sign := splitSign_signed negative plain (ne_nil_of_wholeDigits? leading) ('.' :: fraction)
  rw [numeral.word?_eq, numeral.integer?_eq, sign,
    decimalFloat?_pointed negative plain others some leading, if_neg finite]
  dsimp only
  rw [noWhole]
  rfl

/-! ### The text of a number -/

/-- What the digits before and after a point are if they are those of a decimal. -/
structure Spells (whole fraction : List Char) (decimal : Number.Decimal) : Prop where
  whole_digits : ∀ char ∈ whole, char.isDigit = true
  fraction_digits : ∀ char ∈ fraction, char.isDigit = true
  fraction_some : fraction ≠ []
  leading : wholeDigits? whole = some whole
  value : (pointed decimal.negative whole fraction).value = decimal.value

theorem sign_toList (negative : Bool) :
    (if negative then "-" else "" : String).toList = signChars negative := by
  cases negative <;> rfl

/-- Digits with zeros in front, so that there is at least one before that many places. -/
def padded (places : Nat) (digits : List Char) : List Char :=
  List.replicate (places + 1 - digits.length) '0' ++ digits

theorem isDigit_of_mem_padded {places number : Nat} {char : Char}
    (member : char ∈ padded places (Nat.toDigits 10 number)) : char.isDigit = true := by
  rcases List.mem_append.mp member with zero | digit
  · rw [List.eq_of_mem_replicate zero]
    rfl
  · exact isDigit_of_mem digit

theorem ofDigits_padded (places number : Nat) :
    ofDigits 10 (padded places (Nat.toDigits 10 number)) = number := by
  rw [padded, ofDigits_append, ofDigits_zeros, Nat.zero_mul, Nat.zero_add, ofDigits_toDigits]
  · intro char zero
    rw [List.eq_of_mem_replicate zero]
    rfl
  · exact fun _ => isDigit_of_mem

theorem places_lt_length (places : Nat) (digits : List Char) :
    places < (padded places digits).length := by
  rw [padded, List.length_append, List.length_replicate]
  omega

/-- There is a zero before the places only if it is the only digit there. -/
theorem wholeDigits?_padded {number : Nat} (positive : 0 < number) (places : Nat) :
    wholeDigits? ((padded places (Nat.toDigits 10 number)).take
        ((padded places (Nat.toDigits 10 number)).length - places)) =
      some ((padded places (Nat.toDigits 10 number)).take
        ((padded places (Nat.toDigits 10 number)).length - places)) := by
  obtain ⟨first, rest, digits, -, nonzero⟩ := toDigits_head positive
  have all : ∀ char ∈ padded places (Nat.toDigits 10 number), char.isDigit = true :=
    fun _ => isDigit_of_mem_padded
  rw [digits] at all ⊢
  rcases Nat.lt_or_ge places (first :: rest).length with long | short
  · have unpadded : padded places (first :: rest) = first :: rest := by
      rw [padded, Nat.sub_eq_zero_of_le long]
      rfl
    obtain ⟨kept, enough⟩ := Nat.exists_eq_add_of_lt long
    rw [unpadded] at all ⊢
    have some : (first :: rest).length - places = kept + 1 := by omega
    rw [some, List.take_succ_cons]
    refine wholeDigits?_cons nonzero fun char member => all char ?_
    exact List.mem_of_mem_take (i := kept + 1) (by rwa [List.take_succ_cons])
  · obtain ⟨more, same⟩ := Nat.exists_eq_add_of_le short
    have length : places + 1 - (first :: rest).length = more + 1 := by omega
    have some : (padded places (first :: rest)).length - places = 1 := by
      rw [padded, List.length_append, List.length_replicate]
      omega
    rw [some, padded, length]
    rfl

/-- A decimal with a negative exponent is written with a point. -/
theorem spells_part {decimal : Number.Decimal} (some : 0 < decimal.digits)
    (part : decimal.exponent < 0) :
    ∃ whole fraction, Spells whole fraction decimal ∧
      decimal.text.toList = signChars decimal.negative ++ (whole ++ '.' :: fraction) := by
  obtain ⟨places, same⟩ := Int.eq_ofNat_of_zero_le (Int.neg_nonneg.mpr part.le)
  have long := places_lt_length places (Nat.toDigits 10 decimal.digits)
  have text : decimal.text.toList = signChars decimal.negative ++
      ((padded places (Nat.toDigits 10 decimal.digits)).take
          ((padded places (Nat.toDigits 10 decimal.digits)).length - places) ++
        '.' :: (padded places (Nat.toDigits 10 decimal.digits)).drop
          ((padded places (Nat.toDigits 10 decimal.digits)).length - places)) := by
    dsimp only [Number.Decimal.text]
    rw [if_neg (by omega), same, String.toList_append, sign_toList, String.toList_ofList]
    rfl
  refine ⟨_, _, ⟨fun _ member => isDigit_of_mem_padded (List.mem_of_mem_take member),
    fun _ member => isDigit_of_mem_padded (List.mem_of_mem_drop member), ?_,
    wholeDigits?_padded some places, ?_⟩, text⟩
  · rw [Ne, List.drop_eq_nil_iff]
    omega
  · rw [Number.Decimal.value, pointed]
    dsimp only
    rw [List.take_append_drop, ofDigits_padded, List.length_drop, Number.Decimal.value]
    congr 2
    omega

/-- A decimal without places is written as a whole number. -/
theorem spells_whole {decimal : Number.Decimal} (leading : 0 < decimal.digits ∨ decimal.exponent = 0)
    (whole : 0 ≤ decimal.exponent) :
    ∃ digits, Spells digits ['0'] decimal ∧
      decimal.text.toList = signChars decimal.negative ++ digits := by
  obtain ⟨size, same⟩ := Int.eq_ofNat_of_zero_le whole
  have zero : ∀ char ∈ ['0'], char.isDigit = true := List.all_eq_true.mp rfl
  have zeros : ∀ char ∈ List.replicate size '0', char.isDigit = true := by
    intro char member
    rw [List.eq_of_mem_replicate member]
    rfl
  have digits : ∀ char ∈ Nat.toDigits 10 decimal.digits, char.isDigit = true :=
    fun _ => isDigit_of_mem
  have all : ∀ char ∈ Nat.toDigits 10 decimal.digits ++ List.replicate size '0',
      char.isDigit = true := by
    intro char member
    exact (List.mem_append.mp member).elim (digits char) (zeros char)
  refine ⟨Nat.toDigits 10 decimal.digits ++ List.replicate size '0',
    ⟨all, zero, List.cons_ne_nil _ _, ?_, ?_⟩, ?_⟩
  · rcases leading with positive | none
    · obtain ⟨first, rest, head, -, nonzero⟩ := toDigits_head positive
      rw [head] at all ⊢
      exact wholeDigits?_cons nonzero all
    · obtain rfl : size = 0 := by omega
      rw [List.replicate_zero, List.append_nil]
      exact wholeDigits?_toDigits _
  · rw [Number.Decimal.value, pointed]
    dsimp only
    rw [ofDigits_append all zero, ofDigits_append digits zeros, ofDigits_toDigits, ofDigits_zeros,
      List.length_replicate, Number.Decimal.value, same]
    simp [zpow_neg, ofDigits, digitValue]
  · dsimp only [Number.Decimal.text]
    rw [if_pos whole, same, String.toList_append, sign_toList, String.toList_ofList]
    rfl

/-! ### Words that are values -/

/-- Words that are read as a value wherever they stand. -/
structure IsWord (word : List Char) (value : Setting) : Prop where
  some : word ≠ []
  chars : ∀ char ∈ word, isWordChar char = true
  date : isDate word = false
  read : word? word = .some value

theorem IsNumeral.isWord {value : Setting} (numeral : IsNumeral word) (some : word ≠ [])
    (read : word? word = .some value) : IsWord word value := by
  refine ⟨some, fun char member => ?_, numeral.isDate_eq, read⟩
  rcases numeral.chars char member with digit | rfl | rfl
  · simp [isWordChar, Char.isAlphanum, digit]
  · rfl
  · rfl

theorem isWord_integer (negative : Bool) {number : Nat} {value : Setting}
    (fits : signedWord? negative number = some value) :
    IsWord (signChars negative ++ Nat.toDigits 10 number) value := by
  refine (isNumeral_signed negative fun _ member => .inl (isDigit_of_mem member)).isWord ?_
    (word?_integer negative fits)
  exact List.append_ne_nil_of_right_ne_nil _ Nat.toDigits_ne_nil

theorem isWord_decimal {decimal : Number.Decimal} {number : Number.Double}
    (spells : Spells whole fraction decimal)
    (read : (pointed decimal.negative whole fraction).toDouble = number)
    (finite : number.datum ≠ .infinite false) :
    IsWord (signChars decimal.negative ++ (whole ++ '.' :: fraction)) (.float number) := by
  obtain ⟨plain, others, some, leading, -⟩ := spells
  subst read
  refine (isNumeral_pointed _ plain others).isWord ?_
    (word?_decimal decimal.negative plain others some leading finite)
  exact List.append_ne_nil_of_right_ne_nil _ (List.append_ne_nil_of_right_ne_nil _ (List.cons_ne_nil _ _))

theorem isWord_boolean (value : Bool) :
    IsWord (if value then "true" else "false" : String).toList (.boolean value) := by
  cases value <;> exact ⟨by decide, List.all_eq_true.mp rfl, rfl, rfl⟩

/-- Every number is read from its text. -/
theorem isWord_floatText {number : Number.Double} (some : number.datum ≠ .nan) :
    IsWord (floatText number).toList (.float number) := by
  have same := Number.Double.ofDatum_datum some
  unfold floatText
  split
  · rename_i nan
    exact absurd nan some
  · cases datum : number.datum with
    | nan => exact absurd datum some
    | infinite negative =>
        rw [datum] at same
        rw [← same, Number.Double.text, Number.Double.datum_ofDatum_infinite]
        cases negative <;> exact ⟨by decide, List.all_eq_true.mp rfl, rfl, rfl⟩
    | finite negative significand exponent =>
        obtain ⟨decimal, text, rfl, leading, read⟩ := Number.Double.exists_decimal datum
        have finite : number.datum ≠ .infinite false := by
          rw [datum]
          exact Number.Datum.noConfusion
        dsimp only
        rw [text]
        rcases Int.lt_or_le decimal.exponent 0 with part | whole
        · have positive : 0 < decimal.digits := leading.resolve_right part.ne
          obtain ⟨whole, fraction, spells, shape⟩ := spells_part positive part
          have point : ¬ (decimal.text.toList.all fun char => char.isDigit || char = '-') = true := by
            rw [List.all_eq_true, shape]
            intro all
            cases all '.' (by simp)
          rw [if_neg point, shape]
          exact isWord_decimal spells (read _ rfl spells.value) finite
        · obtain ⟨digits, spells, shape⟩ := spells_whole leading whole
          have all : (decimal.text.toList.all fun char => char.isDigit || char = '-') = true := by
            rw [List.all_eq_true, shape]
            intro char member
            rcases List.mem_append.mp member with sign | digit
            · cases negative : decimal.negative <;> rw [negative] at sign
              · cases sign
              · rw [List.mem_singleton.mp sign]
                rfl
            · rw [spells.whole_digits char digit]
              rfl
          rw [if_pos all, String.toList_append, shape, List.append_assoc]
          exact isWord_decimal spells (read _ rfl spells.value) finite

end ClaimStore.Toml
