import ClaimStore.Proofs.Pool.Keys
import Mathlib.Algebra.Ring.Parity

/-!
The texts that are read as keys.

What a character means is told by the marks right before it: it is escaped if their number is odd. So
the separators of a text, and the segments between them, can be told without reading it from the
front. Reading finds these segments, and it fails for the reasons that they give.
-/
namespace ClaimStore.PoolKey

/-- The characters of a text that follows another one, each with everything that stands before
it. -/
def places (before : List Char) : List Char → List (Char × List Char)
  | [] => []
  | char :: rest => (char, before) :: places (before ++ [char]) rest

/-- At the place is the given character, and it is not escaped. -/
def IsBare (char : Char) (place : Char × List Char) : Prop :=
  place.1 = char ∧ Even (marksAtEnd place.2)

instance (char : Char) (place : Char × List Char) : Decidable (IsBare char place) :=
  inferInstanceAs (Decidable (_ ∧ _))

/-- The characters at the places, but not the marks that escape others. -/
def unescaped (places : List (Char × List Char)) : List Char :=
  (places.filter fun place => ¬ IsBare escapeMark place).map Prod.fst

/-- What stands between the separators, without the marks that escape others. -/
def cut (places : List (Char × List Char)) : List (List Char) :=
  (places.splitOnP fun place => IsBare separator place).map unescaped

def separatorCount (chars : List Char) : Nat :=
  (places [] chars).countP fun place => IsBare separator place

def segments (chars : List Char) : List (List Char) := cut (places [] chars)

variable {before rest : List Char} {char : Char} {place : Char × List Char}
variable {parts : List (List Char)} {key : PoolKey}

theorem marksAtEnd_mark (before : List Char) :
    marksAtEnd (before ++ [escapeMark]) = marksAtEnd before + 1 := by
  simp [marksAtEnd]

theorem length_splitOnP {α : Type} (splits : α → Bool) (items : List α) :
    (items.splitOnP splits).length = items.countP splits + 1 := by
  induction items with
  | nil => rfl
  | cons item rest ih =>
      rw [List.splitOnP_cons_eq_if_modifyHead, List.countP_cons]
      split <;> simp [ih]

theorem length_segments (chars : List Char) :
    (segments chars).length = separatorCount chars + 1 := by
  rw [segments, cut, List.length_map, length_splitOnP, separatorCount]

theorem cut_separator (bare : IsBare separator place) (later : List (Char × List Char)) :
    cut (place :: later) = [] :: cut later := by
  rw [cut, List.splitOnP_cons_eq_if_modifyHead, if_pos (decide_eq_true bare), List.map_cons]
  rfl

/-- A character that is no separator belongs to the first segment, if it belongs to any. -/
theorem cut_unseparated (joined : ¬ IsBare separator place) (later : List (Char × List Char)) :
    cut (place :: later) =
      if IsBare escapeMark place then cut later else extend place.1 (cut later) := by
  have cutOnce := List.splitOnP_ne_nil (fun place => decide (IsBare separator place)) later
  rw [cut, List.splitOnP_cons_eq_if_modifyHead, if_neg (by simpa using joined), cut]
  generalize later.splitOnP (fun place => decide (IsBare separator place)) = found at cutOnce ⊢
  cases found with
  | nil => contradiction
  | cons first parts =>
      by_cases mark : IsBare escapeMark place <;> simp [unescaped, extend, mark]

theorem cut_mark (even : Even (marksAtEnd before)) (later : List (Char × List Char)) :
    cut ((escapeMark, before) :: later) = cut later := by
  have different : escapeMark ≠ separator := by decide
  have joined : ¬ IsBare separator (escapeMark, before) := fun bare => different bare.1
  rw [cut_unseparated joined, if_pos ⟨rfl, even⟩]

theorem cut_kept (plain : ¬ IsBare separator place) (unmarked : ¬ IsBare escapeMark place)
    (later : List (Char × List Char)) : cut (place :: later) = extend place.1 (cut later) := by
  rw [cut_unseparated plain, if_neg unmarked]

/-- Reading finds the segments unless the last mark escapes nothing. Where it starts to read, no
mark is waiting for a character. -/
theorem split_eq (even : Even (marksAtEnd before)) (rest : List Char) :
    split rest =
      if Even (marksAtEnd (before ++ rest)) then some (cut (places before rest)) else none := by
  induction rest using split.induct generalizing before with
  | case1 =>
      rw [List.append_nil, if_pos even]
      rfl
  | case2 =>
      rw [marksAtEnd_mark, if_neg (by simpa [Nat.even_add_one] using even)]
      simp [split]
  | case3 char rest ih =>
      have odd : ¬ Even (marksAtEnd (before ++ [escapeMark])) := by
        simpa [marksAtEnd_mark, Nat.even_add_one] using even
      have resumed : Even (marksAtEnd (before ++ [escapeMark] ++ [char])) := by
        rw [List.append_assoc, even_marksAtEnd_append even]
        exact even_marksAtEnd_escaped char
      rw [split_escaped, ih resumed, places, places, cut_mark even,
        cut_kept (fun bare => odd bare.2) (fun bare => odd bare.2)]
      simp only [List.append_assoc, List.cons_append, List.nil_append]
      split <;> rfl
  | case4 rest different ih =>
      have resumed : Even (marksAtEnd (before ++ [separator])) := by
        rw [even_marksAtEnd_append even, marksAtEnd_unmarked different]
        exact Even.zero
      rw [split_separator, ih resumed, places, cut_separator ⟨rfl, even⟩]
      simp only [List.append_assoc, List.cons_append, List.nil_append]
      split <;> rfl
  | case5 char rest unmarked plain ih =>
      have resumed : Even (marksAtEnd (before ++ [char])) := by
        rw [even_marksAtEnd_append even, marksAtEnd_unmarked unmarked]
        exact Even.zero
      rw [split_plain rest plain unmarked, ih resumed, places,
        cut_kept (fun bare => plain bare.1) (fun bare => unmarked bare.1)]
      simp only [List.append_assoc, List.cons_append, List.nil_append]
      split <;> rfl

theorem parse_eq (text : String) :
    parse text =
      if Even (marksAtEnd text.toList) then ofComponents (segments text.toList)
      else .error .danglingEscape := by
  have start : Even (marksAtEnd []) := Even.zero
  have found := split_eq start text.toList
  rw [List.nil_append] at found
  rw [parse, found]
  by_cases even : Even (marksAtEnd text.toList)
  · simp only [if_pos even]
    rfl
  · simp only [if_neg even]

theorem exists_components_iff :
    (∃ key : PoolKey, key.components.map String.toList = parts) ↔ parts.length = 5 := by
  constructor
  · rintro ⟨key, rfl⟩
    rfl
  · intro five
    match parts, five with
    | [holdingId, tokenType, issuerHash, notary, symbol], _ =>
        exact ⟨⟨.ofList holdingId, .ofList tokenType, .ofList issuerHash, .ofList notary,
          .ofList symbol⟩, by simp [components]⟩

theorem ofComponents_of_length (other : parts.length ≠ 5) :
    ofComponents parts = .error (.componentCount parts.length) := by
  unfold ofComponents
  split
  · exact absurd rfl other
  · rfl

theorem forall_mem_components_iff : (∀ part ∈ key.components.map String.toList, part ≠ []) ↔
    ∀ component, key.component component ≠ "" := by
  have listed : key.components.map String.toList =
      Component.all.map fun component => (key.component component).toList := rfl
  simp [listed, Component.mem_all]

theorem ofComponents_eq_dangling : ofComponents parts ≠ .error .danglingEscape := by
  unfold ofComponents
  split
  · simp only
    split <;> simp
  · simp

theorem ofComponents_eq_count {found : Nat} :
    ofComponents parts = .error (.componentCount found) ↔ found = parts.length ∧ found ≠ 5 := by
  by_cases five : parts.length = 5
  · obtain ⟨key, rfl⟩ := exists_components_iff.mpr five
    rw [ofComponents_components, five]
    cases key.firstEmpty? <;> simp
  · rw [ofComponents_of_length five]
    constructor
    · intro same
      cases same
      exact ⟨rfl, five⟩
    · rintro ⟨rfl, -⟩
      rfl

theorem ofComponents_eq_empty {component : Component} :
    ofComponents parts = .error (.emptyComponent component) ↔
      ∃ key : PoolKey, key.components.map String.toList = parts ∧ key.IsFirstEmpty component := by
  constructor
  · intro refused
    have five : parts.length = 5 := by
      by_contra other
      rw [ofComponents_of_length other] at refused
      cases refused
    obtain ⟨key, rfl⟩ := exists_components_iff.mpr five
    refine ⟨key, rfl, firstEmpty?_eq_some.mp ?_⟩
    rw [ofComponents_components] at refused
    split at refused
    · rename_i empty
      cases refused
      exact empty
    · cases refused
  · rintro ⟨key, rfl, empty⟩
    rw [ofComponents_components, firstEmpty?_eq_some.mpr empty]

theorem exists_ofComponents_iff :
    (∃ key, ofComponents parts = .ok key) ↔ parts.length = 5 ∧ ∀ part ∈ parts, part ≠ [] := by
  rw [← exists_components_iff]
  constructor
  · rintro ⟨key, made⟩
    obtain ⟨rfl, filled⟩ := ofComponents_eq_ok.mp made
    exact ⟨⟨key, rfl⟩, forall_mem_components_iff.mpr filled⟩
  · rintro ⟨⟨key, rfl⟩, filled⟩
    exact ⟨key, ofComponents_eq_ok.mpr ⟨rfl, forall_mem_components_iff.mp filled⟩⟩

/-- A text is no key if it ends in a mark that escapes nothing. This is noticed first. Then come the
number of its segments, which is one more than that of its separators, and the first segment that is
empty. Every other text is the key whose components are its segments. -/
theorem parsed_by_segments (text : String) :
    let chars := text.toList
    (parse text = .error .danglingEscape ↔ Odd (marksAtEnd chars)) ∧
    (∀ found, parse text = .error (.componentCount found) ↔
      Even (marksAtEnd chars) ∧ found = separatorCount chars + 1 ∧ found ≠ 5) ∧
    (∀ component, parse text = .error (.emptyComponent component) ↔
      Even (marksAtEnd chars) ∧
        ∃ key : PoolKey, key.components.map String.toList = segments chars ∧
          key.IsFirstEmpty component) ∧
    (∀ key, parse text = .ok key ↔
      Even (marksAtEnd chars) ∧ key.components.map String.toList = segments chars ∧
        ∀ component, key.component component ≠ "") ∧
    ((∃ key, parse text = .ok key) ↔
      Even (marksAtEnd chars) ∧ separatorCount chars + 1 = 5 ∧
        ∀ segment ∈ segments chars, segment ≠ []) := by
  intro chars
  rw [parse_eq, ← length_segments]
  by_cases even : Even (marksAtEnd chars)
  · simp only [chars, even, true_and, ← Nat.not_even_iff_odd, not_true, iff_false]
    exact ⟨ofComponents_eq_dangling, fun _ => ofComponents_eq_count, fun _ => ofComponents_eq_empty,
      fun _ => ofComponents_eq_ok, exists_ofComponents_iff⟩
  · simp [chars, even, ← Nat.not_even_iff_odd]

/-- The mark before the first separator escapes it, and those before the second one escape each
other. -/
example :
    segments "a\\:b\\\\:\\c".toList = ["a:b\\".toList, "c".toList] ∧
      parse "a\\:b\\\\:\\c" = .error (.componentCount 2) := by
  decide +kernel

end ClaimStore.PoolKey
