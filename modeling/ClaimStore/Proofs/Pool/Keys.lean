import ClaimStore.Pool.Key
import Mathlib.Algebra.Group.Nat.Even

/-!
Keys and their texts.

The text of a key is the shortest of the texts that are read as this key. The others differ from it
in escape marks before characters that need none.
-/
namespace ClaimStore.PoolKey

theorem text_toList (key : PoolKey) : key.text.toList = key.chars := String.toList_ofList

/-- Reading undoes writing, also where components are empty. -/
theorem split_text (key : PoolKey) :
    split key.text.toList = some (key.components.map String.toList) := by
  rw [text_toList]
  exact split_join _ _

theorem components_injective {left right : PoolKey}
    (same : left.components.map String.toList = right.components.map String.toList) :
    left = right := by
  simp only [components, List.map_cons, List.map_nil, List.cons.injEq, String.toList_inj] at same
  cases left
  cases right
  simpa using same

theorem text_injective : Function.Injective text := by
  intro left right same
  have parts := split_text left
  rw [same, split_text, Option.some.injEq] at parts
  exact (components_injective parts).symm

def component (key : PoolKey) : Component → String
  | .holdingId => key.holdingId
  | .tokenType => key.tokenType
  | .issuerHash => key.issuerHash
  | .notary => key.notary
  | .symbol => key.symbol

theorem Component.mem_all (component : Component) : component ∈ all := by
  cases component <;> decide

/-- The component is empty, and those before it are not. -/
def IsFirstEmpty (key : PoolKey) (component : Component) : Prop :=
  key.component component = "" ∧
    ∃ front back, Component.all = front ++ component :: back ∧
      ∀ earlier ∈ front, key.component earlier ≠ ""

theorem firstEmpty?_eq (key : PoolKey) :
    key.firstEmpty? = Component.all.find? fun component => (key.component component).isEmpty := by
  have zipped : Component.all.zip key.components =
      Component.all.map fun component => (component, key.component component) := rfl
  rw [firstEmpty?, zipped, List.find?_map, Option.map_map]
  exact Option.map_id'

theorem firstEmpty?_eq_some {key : PoolKey} {component : Component} :
    key.firstEmpty? = some component ↔ key.IsFirstEmpty component := by
  rw [firstEmpty?_eq, List.find?_eq_some_iff_append]
  simp [IsFirstEmpty]

theorem firstEmpty?_eq_none {key : PoolKey} :
    key.firstEmpty? = none ↔ ∀ component, key.component component ≠ "" := by
  rw [firstEmpty?_eq, List.find?_eq_none]
  simp [Component.mem_all]

/-- What reading makes of components that were found. -/
theorem ofComponents_components (key : PoolKey) :
    ofComponents (key.components.map String.toList) =
      match key.firstEmpty? with
      | some component => .error (.emptyComponent component)
      | none => .ok key := by
  cases empty : key.firstEmpty? with
  | some component => simp [ofComponents, components, empty]
  | none => simp [ofComponents, components, empty]

theorem components_of_ofComponents {parts : List (List Char)} {key : PoolKey}
    (made : ofComponents parts = .ok key) : parts = key.components.map String.toList := by
  unfold ofComponents at made
  split at made
  · rename_i holdingId tokenType issuerHash notary symbol
    simp only at made
    split at made
    · cases made
    · cases made
      simp [components]
  · cases made

theorem ofComponents_eq_ok {parts : List (List Char)} {key : PoolKey} :
    ofComponents parts = .ok key ↔
      key.components.map String.toList = parts ∧ ∀ component, key.component component ≠ "" := by
  constructor
  · intro made
    obtain rfl := components_of_ofComponents made
    refine ⟨rfl, firstEmpty?_eq_none.mp ?_⟩
    rw [ofComponents_components] at made
    split at made
    · cases made
    · assumption
  · rintro ⟨rfl, filled⟩
    rw [ofComponents_components, firstEmpty?_eq_none.mpr filled]

theorem parse_text (key : PoolKey) :
    parse key.text =
      match key.firstEmpty? with
      | some component => .error (.emptyComponent component)
      | none => .ok key := by
  rw [parse, split_text]
  exact key.ofComponents_components

theorem parse_text_of_filled {key : PoolKey} (filled : ∀ component, key.component component ≠ "") :
    parse key.text = .ok key := by
  rw [parse_text, firstEmpty?_eq_none.mpr filled]

theorem split_of_parse {key : PoolKey} {text : String} (parsed : parse text = .ok key) :
    split text.toList = some (key.components.map String.toList) ∧
      ∀ component, key.component component ≠ "" := by
  unfold parse at parsed
  split at parsed
  · cases parsed
  · rename_i parts found
    obtain ⟨rfl, filled⟩ := ofComponents_eq_ok.mp parsed
    exact ⟨found, filled⟩

/-- The number of escape marks with which a text ends. -/
def marksAtEnd (chars : List Char) : Nat := (chars.reverse.takeWhile (· = escapeMark)).length

/-- Every escape mark that escapes a character is needed. A mark escapes the next character if the
number of marks right before it is even. -/
def Terse (chars : List Char) : Prop :=
  ∀ front next back, chars = front ++ escapeMark :: next :: back → Even (marksAtEnd front) →
    next = separator ∨ next = escapeMark

theorem marksAtEnd_append (front back : List Char) :
    marksAtEnd (front ++ back) = marksAtEnd back ∨
      marksAtEnd (front ++ back) = marksAtEnd back + marksAtEnd front := by
  unfold marksAtEnd
  rw [List.reverse_append, List.takeWhile_append]
  split
  · rename_i whole
    right
    rw [List.length_append, whole]
  · left
    rfl

theorem even_marksAtEnd_append {front : List Char} (even : Even (marksAtEnd front))
    (back : List Char) : Even (marksAtEnd (front ++ back)) ↔ Even (marksAtEnd back) := by
  rcases marksAtEnd_append front back with same | more
  · rw [same]
  · rw [more]
    simp [Nat.even_add, even]

theorem marksAtEnd_unmarked {char : Char} (unmarked : char ≠ escapeMark) : marksAtEnd [char] = 0 := by
  simp [marksAtEnd, unmarked]

theorem even_marksAtEnd_escaped (char : Char) : Even (marksAtEnd [escapeMark, char]) := by
  by_cases marked : char = escapeMark
  · subst marked
    decide
  · simp [marksAtEnd, marked]

theorem terse_nil : Terse [] := by
  intro front next back whole
  cases front <;> cases whole

/-- The marks before a place are still even, or still odd, when an even number of them is put at the
front of the text. -/
theorem Terse.of_append {front back : List Char} (terse : Terse (front ++ back))
    (even : Even (marksAtEnd front)) : Terse back := by
  intro middle next rest whole evenly
  apply terse (front ++ middle) next rest
  · rw [whole, List.append_assoc]
  · exact (even_marksAtEnd_append even middle).mpr evenly

theorem terse_unmarked {char : Char} (unmarked : char ≠ escapeMark) (rest : List Char) :
    Terse (char :: rest) ↔ Terse rest := by
  have even : Even (marksAtEnd [char]) := by
    rw [marksAtEnd_unmarked unmarked]
    exact Even.zero
  constructor
  · intro terse
    exact terse.of_append even
  · intro terse front next back whole evenly
    cases front with
    | nil =>
        cases whole
        exact absurd rfl unmarked
    | cons first front =>
        cases whole
        exact terse front next back rfl ((even_marksAtEnd_append even front).mp evenly)

theorem terse_escaped (char : Char) (rest : List Char) :
    Terse (escapeMark :: char :: rest) ↔ (char = separator ∨ char = escapeMark) ∧ Terse rest := by
  have even := even_marksAtEnd_escaped char
  constructor
  · intro terse
    exact ⟨terse [] char rest rfl Even.zero, terse.of_append even⟩
  · rintro ⟨needed, terse⟩ front next back whole evenly
    cases front with
    | nil =>
        cases whole
        exact needed
    | cons first front =>
        cases front with
        | nil =>
            cases whole
            exact absurd evenly (by decide)
        | cons second front =>
            cases whole
            exact terse front next back rfl ((even_marksAtEnd_append even front).mp evenly)

theorem extend_ne_nil (char : Char) (parts : List (List Char)) : extend char parts ≠ [] := by
  cases parts <;> simp [extend]

theorem split_ne_nil {chars : List Char} {parts : List (List Char)}
    (found : split chars = some parts) : parts ≠ [] := by
  induction chars using split.induct with
  | case1 =>
      cases found
      simp
  | case2 => cases found
  | case3 char rest =>
      rw [split_escaped, Option.map_eq_some_iff] at found
      obtain ⟨parts, -, rfl⟩ := found
      exact extend_ne_nil char parts
  | case4 rest =>
      rw [split_separator, Option.map_eq_some_iff] at found
      obtain ⟨parts, -, rfl⟩ := found
      simp
  | case5 char rest unmarked plain =>
      rw [split_plain rest plain unmarked, Option.map_eq_some_iff] at found
      obtain ⟨parts, -, rfl⟩ := found
      exact extend_ne_nil char parts

theorem escape_cons (char : Char) (rest : List Char) :
    escape (char :: rest) = escape [char] ++ escape rest := by
  by_cases special : char = separator ∨ char = escapeMark <;> simp [escape, special]

theorem join_extend (char : Char) (parts : List (List Char)) :
    join (extend char parts) = escape [char] ++ join parts := by
  cases parts with
  | nil => simp [extend, join]
  | cons component rest =>
      cases rest <;> simp [extend, join, escape_cons char component]

theorem join_separator {parts : List (List Char)} (some : parts ≠ []) :
    join ([] :: parts) = separator :: join parts := by
  cases parts with
  | nil => contradiction
  | cons first rest => simp [join, escape]

/-- Writing what was read leaves out the marks that are not needed, and nothing else. -/
theorem join_of_split {chars : List Char} {parts : List (List Char)}
    (found : split chars = some parts) :
    (join parts).Sublist chars ∧ (join parts = chars ↔ Terse chars) := by
  induction chars using split.induct generalizing parts with
  | case1 =>
      cases found
      simp [join, escape, terse_nil]
  | case2 => cases found
  | case3 char rest ih =>
      rw [split_escaped, Option.map_eq_some_iff] at found
      obtain ⟨parts, found, rfl⟩ := found
      obtain ⟨sublist, exact⟩ := ih found
      rw [join_extend, terse_escaped, ← exact]
      by_cases special : char = separator ∨ char = escapeMark
      · simp [escape, special, sublist]
      · have unneeded : char ≠ escapeMark := fun same => special (.inr same)
        simp only [escape, special, if_false, List.cons_append, List.nil_append, false_and, iff_false]
        refine ⟨(sublist.cons_cons char).cons escapeMark, ?_⟩
        intro same
        exact unneeded (List.cons.inj same).1
  | case4 rest different ih =>
      rw [split_separator, Option.map_eq_some_iff] at found
      obtain ⟨parts, found, rfl⟩ := found
      obtain ⟨sublist, exact⟩ := ih found
      rw [join_separator (split_ne_nil found), terse_unmarked different, ← exact]
      simp [sublist]
  | case5 char rest unmarked plain ih =>
      rw [split_plain rest plain unmarked, Option.map_eq_some_iff] at found
      obtain ⟨parts, found, rfl⟩ := found
      obtain ⟨sublist, exact⟩ := ih found
      rw [join_extend, terse_unmarked unmarked, ← exact]
      simp [escape, plain, unmarked, sublist]

theorem utf8Encode_size_cons (char : Char) (rest : List Char) :
    (char :: rest).utf8Encode.size = [char].utf8Encode.size + rest.utf8Encode.size := by
  rw [List.utf8Encode_cons, ByteArray.size_append]

theorem utf8ByteSize_le_of_sublist {left right : String} (sublist : left.toList.Sublist right.toList) :
    left.utf8ByteSize ≤ right.utf8ByteSize := by
  have bytes : ∀ text : String, text.utf8ByteSize = text.toList.utf8Encode.size := by
    intro text
    rw [String.utf8Encode_toList]
    rfl
  rw [bytes, bytes]
  generalize left.toList = short at sublist
  generalize right.toList = long at sublist
  induction sublist with
  | slnil => exact Nat.le_refl _
  | @cons short long char _ ih =>
      rw [utf8Encode_size_cons char long]
      omega
  | @cons_cons short long char _ ih =>
      rw [utf8Encode_size_cons char short, utf8Encode_size_cons char long]
      omega

/-- The text of a key that was read. -/
theorem text_of_parse {key : PoolKey} {text : String} (parsed : parse text = .ok key) :
    parse key.text = .ok key ∧ key.text.toList.Sublist text.toList ∧
      (key.text = text ↔ Terse text.toList) := by
  obtain ⟨found, filled⟩ := split_of_parse parsed
  obtain ⟨sublist, exact⟩ := join_of_split found
  refine ⟨parse_text_of_filled filled, ?_, ?_⟩
  · rw [text_toList]
    exact sublist
  · rw [← exact, ← String.toList_inj, text_toList]
    rfl

/-- The text of a key is read as its components, whatever is in them, and so no two keys share a
text. It is read as the key unless a component is empty, in which case the first empty one is
reported. Of all texts that are read as the key it is a shortest one, and the only one in which
every escape is needed. -/
theorem text_reads_back (key : PoolKey) :
    split key.text.toList = some (key.components.map String.toList) ∧
    (∀ other : PoolKey, other.text = key.text → other = key) ∧
    ((∀ component, key.component component ≠ "") → parse key.text = .ok key) ∧
    ((∃ component, key.component component = "") →
      ∃ component, key.IsFirstEmpty component ∧
        parse key.text = .error (.emptyComponent component)) ∧
    ∀ text, parse text = .ok key →
      parse key.text = .ok key ∧
      key.text.toList.Sublist text.toList ∧ key.text.length ≤ text.length ∧
      key.text.utf8ByteSize ≤ text.utf8ByteSize ∧
      (key.text = text ↔ Terse text.toList) := by
  refine ⟨key.split_text, fun other same => text_injective same, parse_text_of_filled, ?_, ?_⟩
  · rintro ⟨empty, isEmpty⟩
    cases first : key.firstEmpty? with
    | none => exact absurd isEmpty (firstEmpty?_eq_none.mp first empty)
    | some component =>
        refine ⟨component, firstEmpty?_eq_some.mp first, ?_⟩
        rw [parse_text, first]
  · intro text parsed
    obtain ⟨again, sublist, terse⟩ := text_of_parse parsed
    exact ⟨again, sublist, sublist.length_le, utf8ByteSize_le_of_sublist sublist, terse⟩

/-- A key with separators and escape marks in its components. -/
def sampleKey : PoolKey := ⟨"h\\", ":t", "i", "\\\\", "s:"⟩

/-- A text of this key with two escape marks that are not needed. -/
def sampleText : String := "\\h\\\\:\\:t:\\i:\\\\\\\\:s\\:"

theorem text_reads_back_escaped :
    (∀ component, sampleKey.component component ≠ "") ∧ parse sampleText = .ok sampleKey ∧
      parse sampleKey.text = .ok sampleKey ∧ sampleKey.text.length ≤ sampleText.length ∧
      ¬ Terse sampleText.toList ∧
      ∃ component, IsFirstEmpty { sampleKey with tokenType := "", notary := "" } component ∧
        parse (text { sampleKey with tokenType := "", notary := "" }) =
          .error (.emptyComponent component) := by
  have filled : ∀ component, sampleKey.component component ≠ "" := by
    intro component
    cases component <;> decide
  have parsed : parse sampleText = .ok sampleKey := by decide +kernel
  have longer : sampleKey.text ≠ sampleText := by decide +kernel
  obtain ⟨-, -, whole, -, shortest⟩ := text_reads_back sampleKey
  obtain ⟨-, -, length, -, terse⟩ := shortest sampleText parsed
  obtain ⟨-, -, -, emptied, -⟩ := text_reads_back { sampleKey with tokenType := "", notary := "" }
  exact ⟨filled, parsed, whole filled, length, fun needed => longer (terse.mpr needed),
    emptied ⟨.tokenType, rfl⟩⟩

end ClaimStore.PoolKey
