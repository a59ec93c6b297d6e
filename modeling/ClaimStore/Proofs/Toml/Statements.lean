import ClaimStore.Proofs.Toml.Values

/-!
Lines of documents.

Headers and assignments are read back from the lines in which they are written, one after the other.
-/
namespace ClaimStore.Toml

/-! ### Keys -/

structure IsBareKey (key : String) : Prop where
  some : key.toList ≠ []
  chars : ∀ char ∈ key.toList, isBareKeyChar char = true

instance (key : String) : Decidable (IsBareKey key) :=
  decidable_of_iff (key.toList ≠ [] ∧ key.toList.all isBareKeyChar = true)
    ⟨fun both => ⟨both.1, List.all_eq_true.mp both.2⟩,
      fun bare => ⟨bare.some, List.all_eq_true.mpr bare.chars⟩⟩

variable {key : String} {path : List String} {stop : Char}

/-- The characters of keys have no meaning of their own. -/
theorem ne_of_isBareKeyChar {char mark : Char} (bare : isBareKeyChar char = true)
    (apart : isBareKeyChar mark = false) : char ≠ mark := by
  rintro rfl
  rw [apart] at bare
  cases bare

theorem IsBareKey.head (bare : IsBareKey key) :
    ∃ first rest, key.toList = first :: rest ∧ isSpace first = false ∧
      isBareKeyChar first = true := by
  obtain ⟨first, rest, same⟩ := List.exists_cons_of_ne_nil bare.some
  have char := bare.chars first (same ▸ List.mem_cons_self)
  refine ⟨first, rest, same, ?_, char⟩
  simp only [isSpace, Bool.or_eq_false_iff, decide_eq_false_iff_not]
  exact ⟨ne_of_isBareKeyChar char (by decide), ne_of_isBareKeyChar char (by decide)⟩

theorem keyPart_bare (bare : IsBareKey key) (apart : isBareKeyChar stop = false) (rest : List Char) :
    keyPart (key.toList ++ stop :: rest) = some (key, stop :: rest) := by
  have whole : (key.toList ++ stop :: rest).takeWhile isBareKeyChar = key.toList := by
    rw [List.takeWhile_append_of_pos bare.chars, List.takeWhile_cons_of_neg (by simp [apart]),
      List.append_nil]
  obtain ⟨first, more, same, -, char⟩ := bare.head
  unfold keyPart
  split
  · rename_i text
    rw [same] at text
    exact absurd (List.cons.inj text).1 (ne_of_isBareKeyChar char (by decide))
  · rename_i text
    rw [same] at text
    exact absurd (List.cons.inj text).1 (ne_of_isBareKeyChar char (by decide))
  · dsimp only
    rw [whole, if_neg bare.some, List.drop_left, String.ofList_toList]

theorem skipSpace_bare (bare : IsBareKey key) (rest : List Char) :
    skipSpace (key.toList ++ rest) = key.toList ++ rest := by
  obtain ⟨first, more, same, space, -⟩ := bare.head
  rw [skipSpace, same, List.cons_append, List.dropWhile_cons_of_neg (by simp [space])]

theorem toList_intercalate_cons (separator first second : String) (rest : List String) :
    (separator.intercalate (first :: second :: rest)).toList =
      first.toList ++ (separator.toList ++ (separator.intercalate (second :: rest)).toList) := by
  rw [String.intercalate_cons_cons, String.toList_append, String.toList_append, List.append_assoc]

/-- Keys with dots between them are read up to a blank or the end of a header. -/
theorem keyParts_path {last : Char} {rest more : List Char} {depth : Nat}
    (apart : isBareKeyChar stop = false) (skipped : skipSpace (stop :: rest) = last :: more)
    (point : last ≠ '.') (bare : ∀ key ∈ path, IsBareKey key) (some : path ≠ [])
    (fits : path.length ≤ depth) :
    keyParts depth ((".".intercalate path).toList ++ stop :: rest) = .some (path, last :: more) := by
  induction path generalizing depth with
  | nil => exact absurd rfl some
  | cons first others ih =>
      cases depth with
      | zero => cases fits
      | succ depth =>
          have head := bare first List.mem_cons_self
          cases others with
          | nil =>
              rw [String.intercalate_singleton, keyParts, skipSpace_bare head,
                keyPart_bare head apart]
              simp only [Option.bind_eq_bind, Option.bind_some, skipped]
              split
              · rename_i dot
                exact absurd (List.cons.inj dot).1 point
              · rfl
          | cons second others =>
              have tail := ih (fun key member => bare key (List.mem_cons_of_mem _ member))
                (List.cons_ne_nil _ _) (Nat.le_of_succ_le_succ fits)
              have dot : skipSpace ('.' :: ((".".intercalate (second :: others)).toList ++
                  stop :: rest)) = '.' :: ((".".intercalate (second :: others)).toList ++
                    stop :: rest) := List.dropWhile_cons_of_neg (by decide)
              have text : (".".intercalate (first :: second :: others)).toList ++ stop :: rest =
                  first.toList ++ '.' :: ((".".intercalate (second :: others)).toList ++
                    stop :: rest) := by
                rw [toList_intercalate_cons, List.append_assoc]
                rfl
              rw [text, keyParts, skipSpace_bare head, keyPart_bare head (by decide)]
              simp only [Option.bind_eq_bind, Option.bind_some, dot, tail]

/-! ### Lines -/

/-- Whether a text in front of others is read as certain statements. -/
structure ReadsAs (text : List Char) (list : List Statement) : Prop where
  short : list.length ≤ text.length
  read : ∀ fuel more,
    statements (fuel + list.length) (text ++ more) = (statements fuel more).map (list ++ ·)

theorem readsAs_nil : ReadsAs [] [] :=
  ⟨Nat.le_refl 0, fun fuel more => by simp⟩

theorem ReadsAs.append {first second : List Char} {list others : List Statement}
    (head : ReadsAs first list) (tail : ReadsAs second others) :
    ReadsAs (first ++ second) (list ++ others) := by
  constructor
  · rw [List.length_append, List.length_append]
    exact Nat.add_le_add head.short tail.short
  · intro fuel more
    have count : fuel + (list ++ others).length = fuel + others.length + list.length := by
      rw [List.length_append]
      omega
    rw [count, List.append_assoc, head.read, tail.read, Option.map_map]
    simp only [Function.comp_def, List.append_assoc]

theorem statements_newline (fuel : Nat) (text : List Char) :
    statements fuel ('\n' :: text) = statements fuel text := by
  cases fuel <;> rfl

theorem readsAs_newline : ReadsAs ['\n'] [] :=
  ⟨Nat.zero_le _, fun fuel more => by simp [statements_newline]⟩

/-- A line with a statement, of which no blank or comment is the start, is read as the statement. -/
theorem readsAs_line {line : List Char} {content : Statement}
    (start : ∃ first rest, line = first :: rest ∧ isSpace first = false ∧ first ≠ '#' ∧
      first ≠ '\n' ∧ first ≠ '\r')
    (read : ∀ more, statement (line ++ '\n' :: more) = some (content, '\n' :: more)) :
    ReadsAs (line ++ ['\n']) [content] := by
  obtain ⟨first, rest, rfl, space, hash, feed, carriage⟩ := start
  constructor
  · simp
  · intro fuel more
    have found := read more
    rw [List.cons_append] at found
    have blank : skipSpace (first :: (rest ++ '\n' :: more)) = first :: (rest ++ '\n' :: more) :=
      List.dropWhile_cons_of_neg (by simp [space])
    have comment : skipComment (first :: (rest ++ '\n' :: more)) = first :: (rest ++ '\n' :: more) := by
      unfold skipComment
      split
      · rename_i same
        exact absurd (List.cons.inj same).1 hash
      · rfl
    have line : newline? (first :: (rest ++ '\n' :: more)) = none := by
      unfold newline?
      split
      · rename_i same
        exact absurd (List.cons.inj same).1 feed
      · rename_i same
        exact absurd (List.cons.inj same).1 carriage
      · rfl
    have skipped : skipLines (first :: (rest ++ '\n' :: more)) = first :: (rest ++ '\n' :: more) := by
      rw [skipLines, List.length_cons, skipLinesFrom, blank, comment, line]
    have ending : lineEnd? ('\n' :: more) = some more := rfl
    rw [List.append_assoc, List.cons_append, List.length_singleton, statements]
    simp only [List.singleton_append, skipped, found, Option.bind_eq_bind, Option.bind_some, ending]

theorem intercalate_head (bare : ∀ key ∈ path, IsBareKey key) (some : path ≠ []) :
    ∃ first rest, (".".intercalate path).toList = first :: rest ∧ first ≠ '[' := by
  cases path with
  | nil => exact absurd rfl some
  | cons key others =>
      obtain ⟨first, rest, same, -, char⟩ := (bare key List.mem_cons_self).head
      have plain : first ≠ '[' := ne_of_isBareKeyChar char (by decide)
      cases others with
      | nil => exact ⟨first, rest, by rw [String.intercalate_singleton, same], plain⟩
      | cons second others =>
          have text := toList_intercalate_cons "." key second others
          rw [same, List.cons_append] at text
          exact ⟨first, _, text, plain⟩

/-- The header of a table. -/
theorem readsAs_header (bare : ∀ key ∈ path, IsBareKey key) (some : path ≠ [])
    (fits : path.length ≤ keyDepth) :
    ReadsAs (("[" ++ ".".intercalate path ++ "]\n").toList) [.table path] := by
  have text : ("[" ++ ".".intercalate path ++ "]\n").toList =
      ('[' :: ((".".intercalate path).toList ++ [']'])) ++ ['\n'] := by
    simp
  rw [text]
  refine readsAs_line ⟨_, _, rfl, by decide, by decide, by decide, by decide⟩ fun more => ?_
  obtain ⟨first, rest, same, other⟩ := intercalate_head bare some
  have found : key ((".".intercalate path).toList ++ ']' :: '\n' :: more) =
      .some (path, ']' :: '\n' :: more) :=
    keyParts_path (by decide) (List.dropWhile_cons_of_neg (by decide)) (by decide) bare some fits
  have line : '[' :: ((".".intercalate path).toList ++ [']']) ++ '\n' :: more =
      '[' :: ((".".intercalate path).toList ++ ']' :: '\n' :: more) := by
    simp
  rw [line, same] at *
  show header _ = _
  unfold header
  split
  · rename_i twice
    exact absurd (List.cons.inj (List.cons.inj twice).2).1 other
  · rename_i once
    rw [← (List.cons.inj once).2, found]
    rfl
  · rename_i none
    exact absurd rfl (none _)

/-- The assignment of a value to a key. -/
theorem readsAs_assignment {text : String} {setting : Setting} (bare : IsBareKey key)
    (reads : Reads text.toList setting) :
    ReadsAs (key ++ " = " ++ text ++ "\n").toList [.assign [key] setting] := by
  have line : (key ++ " = " ++ text ++ "\n").toList =
      (key.toList ++ ' ' :: '=' :: ' ' :: text.toList) ++ ['\n'] := by
    simp
  rw [line]
  obtain ⟨first, rest, same, space, char⟩ := bare.head
  refine readsAs_line ⟨first, _, by rw [same]; rfl, space, ne_of_isBareKeyChar char (by decide),
    ne_of_isBareKeyChar char (by decide), ne_of_isBareKeyChar char (by decide)⟩ fun more => ?_
  obtain ⟨head, others, shape, visible⟩ := reads.start
  have named := @keyParts_path [key] ' ' '=' ('=' :: ' ' :: (text.toList ++ '\n' :: more))
    (' ' :: (text.toList ++ '\n' :: more)) keyDepth (by decide) rfl (by decide) (by simpa using bare)
    (List.cons_ne_nil _ _) (show 1 ≤ keyDepth by decide)
  rw [String.intercalate_singleton] at named
  have blank : skipSpace (' ' :: (text.toList ++ '\n' :: more)) = text.toList ++ '\n' :: more := by
    rw [skipSpace, List.dropWhile_cons_of_pos (by decide), shape, List.cons_append,
      List.dropWhile_cons_of_neg (by simp [visible])]
  have ending : skipSpace ('\n' :: more) = '\n' :: more := List.dropWhile_cons_of_neg (by decide)
  have whole : (key.toList ++ ' ' :: '=' :: ' ' :: text.toList) ++ '\n' :: more =
      key.toList ++ ' ' :: '=' :: ' ' :: (text.toList ++ '\n' :: more) := by
    simp
  have found : assignment (value valueDepth)
      (key.toList ++ ' ' :: '=' :: ' ' :: (text.toList ++ '\n' :: more)) =
      some (([key], setting), '\n' :: more) := by
    unfold assignment
    rw [Toml.key, named]
    simp only [Option.bind_eq_bind, Option.bind_some, blank, reads.read, ending]
  rw [whole]
  unfold statement
  split
  · rename_i opened
    rw [same] at opened
    exact absurd (List.cons.inj opened).1 (ne_of_isBareKeyChar char (by decide))
  · rw [found]
    rfl

/-! ### Sections -/

/-- The values of a table that are written, without its tables, as they are read. -/
def present : List (String × Setting) → List (String × Setting)
  | [] => []
  | (_, .absent) :: rest | (_, .table _) :: rest => present rest
  | (key, value) :: rest => (key, readBack value) :: present rest

def assignments (entries : List (String × Setting)) : List Statement :=
  entries.map fun entry => .assign [entry.1] entry.2

/-- The values of a table are read from its lines. -/
theorem readsAs_valueLines {entries : List (String × Setting)} {lines : List String}
    (written : valueLines? entries = some lines) (bare : ∀ entry ∈ entries, IsBareKey entry.1)
    (numbers : ∀ entry ∈ entries, ∀ number, entry.2 = .float number → number.datum ≠ .nan) :
    ReadsAs (String.join lines).toList (assignments (present entries)) := by
  fun_induction valueLines? entries generalizing lines with
  | case1 =>
      cases written
      exact readsAs_nil
  | case2 key rest ih =>
      exact ih written (fun entry member => bare entry (List.mem_cons_of_mem _ member))
        (fun entry member => numbers entry (List.mem_cons_of_mem _ member))
  | case3 key inner rest ih =>
      exact ih written (fun entry member => bare entry (List.mem_cons_of_mem _ member))
        (fun entry member => numbers entry (List.mem_cons_of_mem _ member))
  | case4 key value rest absent table ih =>
      simp only [Option.bind_eq_bind, Option.bind_eq_some_iff, Option.some.injEq] at written
      obtain ⟨text, found, others, tail, rfl⟩ := written
      have head := readsAs_assignment (bare _ List.mem_cons_self)
        (reads_valueText found (numbers _ List.mem_cons_self))
      have more := ih tail (fun entry member => bare entry (List.mem_cons_of_mem _ member))
        (fun entry member => numbers entry (List.mem_cons_of_mem _ member))
      rw [String.join_cons, String.toList_append, present]
      · exact head.append more
      · exact absent
      · exact table

/-- Nothing is read from a text that starts with a byte order mark. -/
theorem ReadsAs.unmarked {text : List Char} {list : List Statement} (reads : ReadsAs text list) :
    text.take 1 ≠ ['\ufeff'] := by
  intro mark
  obtain ⟨rest, rfl⟩ : ∃ rest, text = '\ufeff' :: rest := by
    cases text with
    | nil => cases mark
    | cons first rest => exact ⟨rest, by rw [(List.cons.inj mark).1]⟩
  have read := reads.read 1 []
  have refused : ∀ fuel, statements (fuel + 1) ('\ufeff' :: (rest ++ [])) = none := fun _ => rfl
  rw [Nat.add_comm, List.cons_append, refused] at read
  cases read

/-- A document is read as what its lines say. -/
theorem parse?_readsAs {text : String} {list : List Statement} (reads : ReadsAs text.toList list) :
    parse? text =
      (list.foldlM Assembly.add ⟨[], []⟩).map fun assembly => .table (entrySettings assembly.root) := by
  have found : statements (text.toList.length + 1) text.toList = some list := by
    obtain ⟨rest, same⟩ := Nat.exists_eq_add_of_le' reads.short
    have read := reads.read (rest + 1) []
    have count : rest + 1 + list.length = text.toList.length + 1 := by omega
    have ending : statements (rest + 1) [] = some [] := rfl
    rw [List.append_nil, count, ending, Option.map_some, List.append_nil] at read
    exact read
  dsimp only [parse?]
  rw [if_neg reads.unmarked, found, Option.map_eq_bind]
  rfl

theorem valueLines?_isSome {entries : List (String × Setting)}
    (writable : ∀ entry ∈ entries, entry.2 = .absent ∨ (∃ inner, entry.2 = .table inner) ∨
      (valueText? entry.2).isSome) : (valueLines? entries).isSome := by
  fun_induction valueLines? entries with
  | case1 => rfl
  | case2 key rest ih => exact ih fun entry member => writable entry (List.mem_cons_of_mem _ member)
  | case3 key inner rest ih =>
      exact ih fun entry member => writable entry (List.mem_cons_of_mem _ member)
  | case4 key value rest absent table ih =>
      obtain ⟨lines, tail⟩ := Option.isSome_iff_exists.mp
        (ih fun entry member => writable entry (List.mem_cons_of_mem _ member))
      obtain none | ⟨inner, nested⟩ | some := writable _ List.mem_cons_self
      · exact absurd none absent
      · exact absurd nested (table inner)
      · obtain ⟨text, found⟩ := Option.isSome_iff_exists.mp some
        simp [tail, found]

def heading (path : List String) : String :=
  if path = [] then "" else "[" ++ ".".intercalate path ++ "]\n"

def headers (path : List String) : List Statement := if path = [] then [] else [.table path]

theorem readsAs_heading (bare : ∀ key ∈ path, IsBareKey key) (fits : path.length ≤ keyDepth) :
    ReadsAs (heading path).toList (headers path) := by
  unfold heading headers
  split
  · exact readsAs_nil
  · rename_i some
    exact readsAs_header bare some fits

theorem innerSections?_flat {path : List String} {entries : List (String × Setting)}
    (flat : ∀ entry ∈ entries, ∀ inner, entry.2 ≠ .table inner) :
    innerSections? path entries = some [] := by
  induction entries with
  | nil => rfl
  | cons entry rest ih =>
      obtain ⟨key, value⟩ := entry
      have none : sections? (path ++ [key]) value = some [] := by
        unfold sections?
        split
        · exact absurd rfl (flat _ List.mem_cons_self _)
        · rfl
      rw [innerSections?, none, ih fun entry member => flat entry (List.mem_cons_of_mem _ member)]
      rfl

/-- A table without tables in it is one section. -/
theorem sections?_flat {path : List String} {entries : List (String × Setting)} {lines : List String}
    (flat : ∀ entry ∈ entries, ∀ inner, entry.2 ≠ .table inner) (inner : path ≠ [])
    (written : valueLines? entries = some lines) :
    sections? path (.table entries) = some [heading path ++ String.join lines] := by
  rw [sections?, written, innerSections?_flat flat]
  simp [inner, heading]

end ClaimStore.Toml
