import ClaimStore.Proofs.Config.Readings
import Mathlib.Data.List.TakeWhile

/-!
Variables and the settings they give together.

A variable is named after the path of its value. Among the variables that speak of a path, the last
one counts.
-/
namespace ClaimStore.Environment

open Setting

/-! ### Names -/

def wordChars : List Char := "abcdefghijklmnopqrstuvwxyz0123456789".toList

/-- A key consists of words with single hyphens between them. -/
inductive IsKey : List Char → Prop
  | single {char : Char} (word : char ∈ wordChars) : IsKey [char]
  | more {char : Char} {rest : List Char} (word : char ∈ wordChars) (key : IsKey rest) :
      IsKey (char :: rest)
  | hyphen {char : Char} {rest : List Char} (word : char ∈ wordChars) (key : IsKey rest) :
      IsKey (char :: '-' :: rest)

def upperChars (key : List Char) : List Char :=
  key.map fun char => if char = '-' then '_' else char.toUpper

def nameChars : (path : List String) → List Char
  | [] => []
  | [key] => upperChars key.toList
  | key :: rest => upperChars key.toList ++ '_' :: '_' :: nameChars rest

/-- The name of the variable for the value at a path. -/
def nameOf (path : List String) : String := String.ofList (nameStart ++ nameChars path)

variable {key tail part : List Char} {parts : List (List Char)} {path : List String}

theorem word_char (char : Char) (word : char ∈ wordChars) :
    char ≠ '-' ∧ char.toUpper ≠ '_' ∧ char.toUpper ≠ '.' ∧ char.toUpper.toLower = char ∧
      Text.isBlank char.toUpper = false := by
  have checked : wordChars.all fun char => char ≠ '-' ∧ char.toUpper ≠ '_' ∧ char.toUpper ≠ '.' ∧
      char.toUpper.toLower = char ∧ Text.isBlank char.toUpper = false := by decide
  exact of_decide_eq_true (List.all_eq_true.mp checked char word)

theorem upperChars_cons {char : Char} (word : char ∈ wordChars) (rest : List Char) :
    upperChars (char :: rest) = char.toUpper :: upperChars rest := by
  rw [upperChars, List.map_cons, if_neg (word_char char word).1]
  rfl

theorem pathChars_cons {char : Char} (plain : char ≠ '_') (rest : List Char) :
    pathChars (char :: rest) = char :: pathChars rest := by
  rw [pathChars] <;> simp [plain]

theorem pathChars_hyphen {char : Char} (plain : char ≠ '_') (rest : List Char) :
    pathChars ('_' :: char :: rest) = '-' :: pathChars (char :: rest) := by
  rw [pathChars]
  simp [plain]

theorem IsKey.exists_cons (proper : IsKey key) : ∃ char rest, char ∈ wordChars ∧ key = char :: rest := by
  cases proper with
  | single word => exact ⟨_, _, word, rfl⟩
  | more word => exact ⟨_, _, word, rfl⟩
  | hyphen word => exact ⟨_, _, word, rfl⟩

theorem IsKey.chars (proper : IsKey key) : ∀ char ∈ key, char = '-' ∨ char ∈ wordChars := by
  induction proper with
  | single word => exact List.forall_mem_singleton.mpr (.inr word)
  | more word key ih => exact List.forall_mem_cons.mpr ⟨.inr word, ih⟩
  | hyphen word key ih =>
      exact List.forall_mem_cons.mpr ⟨.inr word, List.forall_mem_cons.mpr ⟨.inl rfl, ih⟩⟩

/-- A key has its hyphens back. What follows it cannot be taken for one, since it ends with a
word. -/
theorem IsKey.pathChars (proper : IsKey key) (tail : List Char) :
    pathChars (upperChars key ++ tail) = key.map Char.toUpper ++ Environment.pathChars tail := by
  induction proper with
  | single word =>
      rw [upperChars_cons word]
      exact pathChars_cons (word_char _ word).2.1 tail
  | more word key ih =>
      rw [upperChars_cons word, List.cons_append, pathChars_cons (word_char _ word).2.1, ih]
      rfl
  | hyphen word key ih =>
      obtain ⟨char, rest, next, rfl⟩ := key.exists_cons
      rw [upperChars_cons next, List.cons_append] at ih
      have hyphen : upperChars ('-' :: char :: rest) = '_' :: char.toUpper :: upperChars rest :=
        congrArg (List.cons '_') (upperChars_cons next rest)
      rw [upperChars_cons word, hyphen, List.cons_append, List.cons_append, List.cons_append,
        pathChars_cons (word_char _ word).2.1, pathChars_hyphen (word_char _ next).2.1, ih]
      rfl

theorem IsKey.splitDots (proper : IsKey key) (split : splitDots tail = part :: parts) :
    splitDots (key.map Char.toUpper ++ tail) = (key ++ part) :: parts := by
  have chars := proper.chars
  clear proper
  induction key with
  | nil => exact split
  | cons char key ih =>
      obtain ⟨own, others⟩ := List.forall_mem_cons.mp chars
      have kept : char.toUpper ≠ '.' ∧ char.toUpper.toLower = char := by
        rcases own with rfl | word
        · decide
        · exact ⟨(word_char char word).2.2.1, (word_char char word).2.2.2.1⟩
      rw [List.map_cons, List.cons_append, Environment.splitDots, ih others]
      · show (char.toUpper.toLower :: (key ++ part)) :: parts = _
        rw [kept.2]
        rfl
      · exact kept.1

theorem splitDots_nameChars (some : path ≠ []) (keys : ∀ key ∈ path, IsKey key.toList) :
    splitDots (pathChars (nameChars path)) = path.map String.toList := by
  fun_induction nameChars path with
  | case1 => exact absurd rfl some
  | case2 key =>
      have proper := keys key List.mem_cons_self
      have name : pathChars (upperChars key.toList) = key.toList.map Char.toUpper ++ [] := by
        have shown := proper.pathChars []
        rwa [List.append_nil] at shown
      have missing : Environment.splitDots [] = [[]] := rfl
      rw [name, proper.splitDots missing, List.append_nil]
      rfl
  | case3 key rest other ih =>
      obtain ⟨own, others⟩ := List.forall_mem_cons.mp keys
      have behind : splitDots (pathChars ('_' :: '_' :: nameChars rest)) =
          [] :: rest.map String.toList := by
        rw [pathChars, splitDots, ih other others]
      rw [own.pathChars, own.splitDots behind, List.append_nil]
      rfl

theorem trim_eq_self {text : List Char} (visible : ∀ char ∈ text, Text.isBlank char = false) :
    Text.trim text = text := by
  have kept : ∀ text : List Char, (∀ char ∈ text, Text.isBlank char = false) →
      text.dropWhile Text.isBlank = text := by
    intro text visible
    cases text with
    | nil => rfl
    | cons char rest => rw [List.dropWhile_cons, visible char List.mem_cons_self]; rfl
  rw [Text.trim, kept text visible, kept text.reverse, List.reverse_reverse]
  exact fun char member => visible char (List.mem_reverse.mp member)

theorem visible_nameChars (keys : ∀ key ∈ path, IsKey key.toList) :
    ∀ char ∈ nameChars path, Text.isBlank char = false := by
  have visible : ∀ key, IsKey key → ∀ char ∈ upperChars key, Text.isBlank char = false := by
    intro key proper char member
    obtain ⟨own, inner, rfl⟩ := List.mem_map.mp member
    rcases proper.chars own inner with rfl | word
    · decide
    · rw [if_neg (word_char own word).1]
      exact (word_char own word).2.2.2.2
  fun_induction nameChars path with
  | case1 => exact nofun
  | case2 key => exact visible _ (keys key List.mem_cons_self)
  | case3 key rest other ih =>
      obtain ⟨own, others⟩ := List.forall_mem_cons.mp keys
      intro char member
      rcases List.mem_append.mp member with inner | later
      · exact visible _ own char inner
      · rcases List.mem_cons.mp later with rfl | later
        · decide
        · rcases List.mem_cons.mp later with rfl | later
          · decide
          · exact ih others char later

theorem nameChars_ne_nil (some : path ≠ []) (keys : ∀ key ∈ path, IsKey key.toList) :
    nameChars path ≠ [] := by
  fun_cases nameChars path with
  | case1 => exact absurd rfl some
  | case2 key =>
      obtain ⟨char, rest, -, same⟩ := (keys key List.mem_cons_self).exists_cons
      rw [same]
      exact nofun
  | case3 key rest other => exact List.append_ne_nil_of_right_ne_nil _ nofun

/-- A pair of underscores leads into a table, and a single one stands for a hyphen. -/
theorem path?_nameOf (some : path ≠ []) (keys : ∀ key ∈ path, IsKey key.toList) :
    path? (nameOf path) = .some path := by
  have visible : ∀ char ∈ nameStart ++ nameChars path, Text.isBlank char = false := by
    intro char member
    rcases List.mem_append.mp member with start | name
    · have checked : nameStart.all fun char => Text.isBlank char = false := by decide
      exact of_decide_eq_true (List.all_eq_true.mp checked char start)
    · exact visible_nameChars keys char name
  have whole : (path.map String.toList).takeWhile (· ≠ []) = path.map String.toList := by
    refine List.takeWhile_eq_self_iff.mpr ?_
    intro chars member
    obtain ⟨key, inner, rfl⟩ := List.mem_map.mp member
    obtain ⟨char, rest, -, same⟩ := (keys key inner).exists_cons
    rw [same]
    rfl
  unfold path?
  rw [nameOf, String.toList_ofList, trim_eq_self visible]
  dsimp only
  rw [List.take_left, List.drop_left, if_pos ⟨by decide, nameChars_ne_nil some keys⟩,
    splitDots_nameChars some keys, whole, List.map_map]
  simp

/-! ### Precedence -/

/-- A variable does not speak of a path: it belongs elsewhere, or what it sets has no entry there. -/
def Silent (binding : String × String) (path : List String) : Prop :=
  ∀ named, path? binding.1 = some named → (nest (parse binding.2) named).says? path = none

/-- What the settings of all variables have of the single ones. -/
structure LastCounts (bindings : List (String × String)) (settings : Setting) : Prop where
  /-- A value counts if no later variable speaks of its path. Usually the name leads to all of the
  path, and `rest` is empty; it need not if the variable is a table. -/
  value : ∀ before name text after named rest value,
    bindings = before ++ (name, text) :: after → path? name = some named →
    (parse text).find? rest = some value → ¬ value.IsTable →
    (∀ later ∈ after, Silent later (named ++ rest)) →
    settings.says? (named ++ rest) = some (some value)
  silent : ∀ path, path ≠ [] → (∀ binding ∈ bindings, Silent binding path) →
    settings.says? path = none

/-- What a variable does to the settings of those before it. -/
def step (settings : Setting) (binding : String × String) : Option Setting :=
  match path? binding.1 with
  | none => some settings
  | some path =>
      match nest (parse binding.2) path with
      | .table entries => some (settings.overlay (.table entries))
      | _ => none

theorem settings?_eq (bindings : List (String × String)) :
    settings? bindings = bindings.foldlM step (.table []) := rfl

variable {settings next : Setting} {binding : String × String}
variable {bindings : List (String × String)}

theorem exists_of_step (done : step settings binding = some next) :
    path? binding.1 = none ∧ next = settings ∨
      ∃ named, path? binding.1 = some named ∧
        next = settings.overlay (nest (parse binding.2) named) := by
  unfold step at done
  split at done
  · cases done
    exact .inl ⟨‹_›, rfl⟩
  · rename_i named own
    split at done
    · rename_i same
      cases done
      exact .inr ⟨named, own, congrArg _ same.symm⟩
    · cases done

theorem ordered_variable (text : String) (named : List String) : (nest (parse text) named).Ordered :=
  ordered_nest (ordered_parse text) named

theorem ordered_settings? (found : settings? bindings = some settings) : settings.Ordered := by
  refine foldlM_keeps Setting.Ordered found ordered_empty ?_
  intro before binding _ after ordered done
  rcases exists_of_step done with ⟨-, rfl⟩ | ⟨named, -, rfl⟩
  · exact ordered
  · exact Ordered.overlay before _ ordered (ordered_variable binding.2 named)

/-- Variables that do not speak of a path leave there what was set before. -/
theorem says?_foldlM_silent {first last : Setting} {path : List String}
    (folded : bindings.foldlM step first = some last) (clear : first.says? path ≠ some none)
    (silent : ∀ binding ∈ bindings, Silent binding path) : last.says? path = first.says? path := by
  refine foldlM_keeps (fun settings => settings.says? path = first.says? path) folded rfl ?_
  intro before binding member after same done
  rcases exists_of_step done with ⟨-, rfl⟩ | ⟨named, own, rfl⟩
  · exact same
  · have quiet := silent binding member named own
    rw [says?_overlay_silent (ordered_variable binding.2 named) quiet (same ▸ clear), same]

theorem lastCounts_settings? (found : settings? bindings = some settings) :
    LastCounts bindings settings where
  value := by
    -- the variable sets the value over all earlier ones, and the later ones leave it there
    rintro before name text after named rest value rfl own reached single silent
    rw [settings?_eq, List.foldlM_append] at found
    obtain ⟨earlier, -, found⟩ := Option.bind_eq_some_iff.mp found
    rw [List.foldlM_cons] at found
    obtain ⟨next, stepped, found⟩ := Option.bind_eq_some_iff.mp found
    have set : next.says? (named ++ rest) = some (some value) := by
      rcases exists_of_step stepped with ⟨missing, -⟩ | ⟨other, same, rfl⟩
      · cases missing.symm.trans own
      · cases same.symm.trans own
        refine says?_overlay_value (ordered_variable text named) ?_ single
        rw [says?_nest]
        exact says?_eq_some.mpr reached
    rw [says?_foldlM_silent found (by simp [set]) silent, set]
  silent := by
    intro path some silent
    have start : (table []).says? path = none := by
      cases path with
      | nil => exact absurd rfl some
      | cons key rest => rfl
    rw [says?_foldlM_silent found (by simp [start]) silent, start]

end ClaimStore.Environment
