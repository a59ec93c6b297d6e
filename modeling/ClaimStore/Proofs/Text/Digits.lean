import ClaimStore.Text.Digits
import Mathlib.Tactic.IntervalCases

/-!
Digits that are written and read.

A number is read back from its digits, and only zero is written with a zero in front.
-/
namespace ClaimStore.Text

theorem digitValue_of_isDigit {char : Char} (digit : char.isDigit = true) :
    digitValue char = char.toNat - '0'.toNat := by
  rw [digitValue, if_pos digit]

theorem isDigitIn_ten {char : Char} (digit : char.isDigit = true) : isDigitIn 10 char = true := by
  have alphanumeric : char.isAlphanum = true := by simp [Char.isAlphanum, digit]
  have small : digitValue char < 10 := by
    rw [digitValue_of_isDigit digit]
    simp only [Char.isDigit, Bool.and_eq_true, decide_eq_true_eq] at digit
    have high : char.toNat ≤ 57 := digit.2
    show char.toNat - 48 < 10
    omega
  simp [isDigitIn, alphanumeric, small]

theorem ofDigits_eq {digits : List Char} (all : ∀ char ∈ digits, char.isDigit = true) (base : Nat) :
    ofDigits base digits = Nat.ofDigitChars base digits 0 := by
  suffices same : ∀ start, digits.foldl (fun number digit => number * base + digitValue digit) start =
      Nat.ofDigitChars base digits start from same 0
  induction digits with
  | nil => exact fun _ => rfl
  | cons first rest ih =>
      intro start
      rw [List.foldl_cons, Nat.ofDigitChars_cons, Nat.mul_comm,
        digitValue_of_isDigit (all first List.mem_cons_self)]
      exact ih (fun char member => all char (List.mem_cons_of_mem _ member)) _

theorem ofDigits_append {first second : List Char} (all : ∀ char ∈ first, char.isDigit = true)
    (others : ∀ char ∈ second, char.isDigit = true) :
    ofDigits 10 (first ++ second) = ofDigits 10 first * 10 ^ second.length + ofDigits 10 second := by
  have whole : ∀ char ∈ first ++ second, char.isDigit = true := by
    intro char member
    exact (List.mem_append.mp member).elim (all char) (others char)
  rw [ofDigits_eq whole, ofDigits_eq all, ofDigits_eq others, Nat.ofDigitChars_append,
    Nat.ofDigitChars_eq_ofDigitChars_zero, Nat.mul_comm]

theorem isDigit_of_mem {number : Nat} {char : Char} (member : char ∈ Nat.toDigits 10 number) :
    char.isDigit = true :=
  Nat.isDigit_of_mem_toDigits (by decide) (by decide) member

@[simp]
theorem ofDigits_toDigits (number : Nat) : ofDigits 10 (Nat.toDigits 10 number) = number := by
  rw [ofDigits_eq fun _ => isDigit_of_mem, Nat.ofDigitChars_ten_toDigits]

theorem ofDigits_zeros (count : Nat) : ofDigits 10 (List.replicate count '0') = 0 := by
  rw [ofDigits_eq, Nat.ofDigitChars_replicate_zero, Nat.mul_zero]
  intro char member
  rw [List.eq_of_mem_replicate member]
  rfl

theorem toDigits_eq_append {number : Nat} (large : 10 ≤ number) :
    Nat.toDigits 10 number = Nat.toDigits 10 (number / 10) ++ [(number % 10).digitChar] :=
  Nat.toDigits_of_base_le (by decide) large

/-- Every number is written with a first digit, which is a zero only for zero itself. -/
theorem toDigits_head {number : Nat} (positive : 0 < number) :
    ∃ first rest, Nat.toDigits 10 number = first :: rest ∧ first.isDigit = true ∧ first ≠ '0' := by
  induction number using Nat.strong_induction_on with
  | _ number ih =>
      by_cases small : number < 10
      · refine ⟨number.digitChar, [], Nat.toDigits_of_lt_base small, ?_, ?_⟩
        · exact isDigit_of_mem (by rw [Nat.toDigits_of_lt_base small]; exact List.mem_cons_self)
        · interval_cases number <;> decide
      · have large : 10 ≤ number := Nat.le_of_not_lt small
        obtain ⟨first, rest, digits, digit, nonzero⟩ := ih (number / 10) (by omega) (by omega)
        exact ⟨first, rest ++ [(number % 10).digitChar], by rw [toDigits_eq_append large, digits]; rfl,
          digit, nonzero⟩

end ClaimStore.Text
