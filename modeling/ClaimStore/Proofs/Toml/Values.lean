import ClaimStore.Proofs.Toml.Numbers

/-!
Values in documents.

The text of a value is followed by the end of its line, and up to there it is read as the value.
-/
namespace ClaimStore.Toml

open Text

/-! ### Strings -/

/-- The code of a control character is written with four digits, and read from them. -/
theorem controlDigits : ∀ code < 128,
    let digits := (Nat.toDigits 16 code).map Char.toUpper
    let padded := List.replicate (4 - digits.length) '0' ++ digits
    padded.length = 4 ∧ padded.all (isDigitIn 16) = true ∧ ofDigits 16 padded = code := by
  decide

theorem codePoint_control {char : Char} (control : char.toNat < 128) (rest : List Char) :
    codePoint 4 (List.replicate (4 - ((Nat.toDigits 16 char.toNat).map Char.toUpper).length) '0' ++
      (Nat.toDigits 16 char.toNat).map Char.toUpper ++ rest) = some (char, rest) := by
  obtain ⟨length, all, same⟩ := controlDigits char.toNat control
  generalize List.replicate (4 - ((Nat.toDigits 16 char.toNat).map Char.toUpper).length) '0' ++
    (Nat.toDigits 16 char.toNat).map Char.toUpper = digits at *
  have valid : char.toNat.isValidChar := char.valid
  dsimp only [codePoint]
  rw [List.take_left' length, List.drop_left' length, if_pos ⟨length, all, by rwa [same]⟩, same,
    Char.ofNat_toNat]

theorem escaped_eq {char : Char} (special : char = '"' ∨ char = '\\') (rest : List Char) :
    escaped (char :: rest) = some (char, rest) := by
  rcases special with rfl | rfl <;> rfl

/-- A character of a string is read from how it is written. -/
theorem lineString_stringChar (char : Char) {fuel : Nat} {rest tail chars : List Char}
    (read : lineString .basic fuel rest = some (chars, tail)) :
    lineString .basic (fuel + 1) (stringChar char ++ rest) = some (char :: chars, tail) := by
  have escape : ∀ {text : List Char}, escaped text = some (char, rest) →
      lineString .basic (fuel + 1) ('\\' :: text) = some (char :: chars, tail) := by
    intro text found
    rw [lineString, if_neg (by decide), if_pos ⟨rfl, rfl⟩, found]
    simp only [Option.bind_eq_bind, Option.bind_some, read]
  unfold stringChar
  split
  · rename_i special
    exact escape (escaped_eq special rest)
  · rename_i ordinary
    obtain ⟨mark, backslash⟩ := not_or.mp ordinary
    split
    · rename_i printable
      have shown : isPrintable char = true := by
        simpa only [isPrintable, Bool.or_eq_true, decide_eq_true_eq, Bool.and_eq_true] using printable
      rw [List.cons_append, List.nil_append, lineString, if_neg (show ¬ char = Quoting.basic.mark from mark),
        if_neg (fun both => backslash both.1), if_pos shown]
      simp only [Option.bind_eq_bind, Option.bind_some, read]
    · rename_i control
      refine escape (codePoint_control ?_ rest)
      obtain ⟨-, low⟩ := not_or.mp control
      rcases Decidable.not_and_iff_or_not.mp low with below | delete
      · have : char.toNat < 32 := Nat.lt_of_not_le below
        omega
      · rw [not_not.mp delete]
        decide

theorem lineString_flatMap (chars rest : List Char) {fuel : Nat} (enough : chars.length < fuel) :
    lineString .basic fuel (chars.flatMap stringChar ++ '"' :: rest) = some (chars, rest) := by
  induction chars generalizing fuel with
  | nil =>
      obtain ⟨fuel, rfl⟩ := Nat.exists_eq_add_of_lt enough
      rfl
  | cons char chars ih =>
      cases fuel with
      | zero => cases enough
      | succ fuel =>
          rw [List.flatMap_cons, List.append_assoc]
          exact lineString_stringChar char (ih (Nat.lt_of_succ_lt_succ enough))

theorem stringChar_head (char : Char) : ∃ first rest, stringChar char = first :: rest ∧ first ≠ '"' := by
  unfold stringChar
  split
  · exact ⟨_, _, rfl, by decide⟩
  · rename_i ordinary
    split
    · exact ⟨_, _, rfl, (not_or.mp ordinary).1⟩
    · exact ⟨_, _, rfl, by decide⟩

theorem length_le_flatMap (chars : List Char) : chars.length ≤ (chars.flatMap stringChar).length := by
  induction chars with
  | nil => exact Nat.le_refl 0
  | cons char chars ih =>
      obtain ⟨first, rest, same, -⟩ := stringChar_head char
      rw [List.flatMap_cons, same, List.length_append, List.length_cons, List.length_cons]
      omega

/-- A string is read from its text. What follows it must not make it one of several lines. -/
theorem quoted_stringText (word : String) (more : List Char) :
    quoted .basic ((stringText word).toList ++ '\n' :: more) = some (word, '\n' :: more) := by
  have text : (stringText word).toList ++ '\n' :: more =
      '"' :: (word.toList.flatMap stringChar ++ '"' :: '\n' :: more) := by
    simp [stringText]
  have single : List.replicate 3 Quoting.basic.mark ≠
      ('"' :: (word.toList.flatMap stringChar ++ '"' :: '\n' :: more)).take 3 := by
    cases word.toList with
    | nil => simp [Quoting.basic, List.replicate]
    | cons char chars =>
        obtain ⟨first, rest, same, other⟩ := stringChar_head char
        simp [Quoting.basic, List.replicate, same, other.symm]
  rw [text, quoted, if_neg single, quotedLine, if_pos (show '"' = Quoting.basic.mark from rfl), lineString_flatMap, Option.map_some]
  · dsimp only
    rw [String.ofList_toList]
  have := length_le_flatMap word.toList
  rw [List.length_append]
  omega

/-! ### Words -/

variable {word : List Char} {setting : Setting}

theorem scalar_word (isWord : IsWord word setting) (more : List Char) :
    scalar (word ++ '\n' :: more) = some (setting, '\n' :: more) := by
  have whole : (word ++ '\n' :: more).takeWhile isWordChar = word := by
    rw [List.takeWhile_append_of_pos isWord.chars, List.takeWhile_cons_of_neg (by decide),
      List.append_nil]
  have none : ¬ (isDate word = true ∧ ('\n' :: more).take 1 = [' '] ∧
      isTime true ((('\n' :: more).drop 1).takeWhile isWordChar) = true) := by
    rw [isWord.date]
    exact fun both => Bool.false_ne_true both.1
  dsimp only [scalar]
  rw [whole, List.drop_left, if_neg none, isWord.read]
  rfl

theorem value_string (depth : Nat) (rest : List Char) :
    value depth ('"' :: rest) =
      (quoted .basic ('"' :: rest)).map fun (text, rest) => (.text text, rest) := by
  cases depth <;> rfl

theorem value_word {first : Char} (depth : Nat) (char : isWordChar first = true) (rest : List Char) :
    value depth (first :: rest) = scalar (first :: rest) := by
  have shown : ∀ other others, first :: rest = other :: others → isWordChar other = true := by
    rintro _ _ ⟨⟩
    exact char
  unfold value
  split
  case h_7 => rfl
  all_goals
    rename_i same
    exact absurd (shown _ _ same) (by decide)

/-! ### Values -/

/-- Whether a text at the end of a line is read as a value. -/
structure Reads (text : List Char) (setting : Setting) : Prop where
  start : ∃ first rest, text = first :: rest ∧ isSpace first = false
  read : ∀ depth more, value depth (text ++ '\n' :: more) = some (setting, '\n' :: more)

theorem IsWord.reads (isWord : IsWord word setting) : Reads word setting := by
  obtain ⟨first, rest, same⟩ := List.exists_cons_of_ne_nil isWord.some
  have char := isWord.chars first (same ▸ List.mem_cons_self)
  refine ⟨⟨first, rest, same, ?_⟩, fun depth more => ?_⟩
  · by_contra space
    simp only [isSpace, Bool.not_eq_false, Bool.or_eq_true, decide_eq_true_eq] at space
    rcases space with rfl | rfl <;> cases char
  · rw [← scalar_word isWord more, same]
    exact value_word depth char _

theorem reads_string (text : String) : Reads (stringText text).toList (.text text) := by
  have shape : (stringText text).toList = '"' :: (text.toList.flatMap stringChar ++ ['"']) := by
    simp [stringText]
  refine ⟨⟨_, _, shape, by decide⟩, fun depth more => ?_⟩
  have found := quoted_stringText text more
  rw [shape] at found ⊢
  rw [List.cons_append] at found ⊢
  rw [value_string, found]
  rfl

theorem signedWord?_eq {negative : Bool} {magnitude : Nat} {value : Int64}
    (same : (if negative then -magnitude else magnitude : Int) = value.toInt) :
    signedWord? negative magnitude = some (.integer value) := by
  dsimp only [signedWord?]
  rw [same, if_pos ⟨value.minValue_le_toInt, value.toInt_le⟩, Int64.ofInt_toInt]

/-- What is read for a value that is written. A document tells neither characters from texts nor
natural numbers from integers. -/
def readBack : Setting → Setting
  | .character char => .text (String.singleton char)
  | .natural count => .integer (Int64.ofInt count.toNat)
  | setting => setting

/-- Every value that can be written is read back, unless it is a NaN. -/
theorem reads_valueText {text : String} (written : valueText? setting = some text)
    (number : ∀ number, setting = .float number → number.datum ≠ .nan) :
    Reads text.toList (readBack setting) := by
  cases setting with
  | text word =>
      cases written
      exact reads_string word
  | character char =>
      cases written
      exact reads_string _
  | boolean truth =>
      cases written
      exact (isWord_boolean truth).reads
  | natural count =>
      dsimp only [valueText?] at written
      split at written
      · rename_i fits
        cases written
        rw [String.toList_ofList]
        refine (isWord_integer false (signedWord?_eq ?_)).reads
        rw [Int64.toInt_maxValue] at fits
        rw [Int64.toInt_ofInt_of_le (by omega) (by omega)]
        rfl
      · cases written
  | integer value =>
      cases written
      have same : (toString value.toInt).toList =
          signChars (decide (value.toInt < 0)) ++ Nat.toDigits 10 value.toInt.natAbs := by
        rw [Int.toString_eq_repr, Int.repr_eq_if]
        split
        · rename_i whole
          have natural : value.toInt.toNat = value.toInt.natAbs := by omega
          rw [Nat.toList_repr, decide_eq_false (by omega), natural]
          rfl
        · have natural : (-value.toInt).toNat = value.toInt.natAbs := by omega
          rw [String.toList_append, Nat.toList_repr, decide_eq_true (by omega), natural]
          rfl
      rw [same]
      refine (isWord_integer _ (signedWord?_eq ?_)).reads
      split <;> rename_i sign <;> simp at sign <;> omega
  | float number' =>
      cases written
      exact (isWord_floatText (number number' rfl)).reads
  | absent => cases written
  | list items => cases written
  | table entries => cases written

end ClaimStore.Toml
