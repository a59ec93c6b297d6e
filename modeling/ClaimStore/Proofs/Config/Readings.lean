import ClaimStore.Config.Environment
import ClaimStore.Proofs.Config.Unions
import ClaimStore.Toml.Document

/-!
Settings as they are read.

Documents and variables give ordered settings. Each table in them is put together entry by entry, and
an entry is always put into its place.
-/
namespace ClaimStore

open Setting

/-- What holds at the start of a run that may fail, and is kept by each of its steps, holds at its
end. -/
theorem foldlM_keeps {σ α : Type} {step : σ → α → Option σ} (good : σ → Prop) {items : List α}
    {start last : σ} (done : items.foldlM step start = some last) (first : good start)
    (keeps : ∀ state, ∀ item ∈ items, ∀ next, good state → step state item = some next → good next) :
    good last := by
  induction items generalizing start with
  | nil =>
      cases done
      exact first
  | cons item rest ih =>
      rw [List.foldlM_cons] at done
      obtain ⟨next, stepped, further⟩ := Option.bind_eq_some_iff.mp done
      exact ih further (keeps start item List.mem_cons_self next first stepped)
        fun state later member => keeps state later (List.mem_cons_of_mem _ member)

namespace Toml

/-! ### Tables that are put together -/

/-- The values of a node are ordered. -/
inductive Node.Ordered : Node → Prop
  | value {setting : Setting} (ordered : setting.Ordered) : Node.Ordered (.value setting)
  | table {origin : Origin} {entries : List (String × Node)}
      (inner : ∀ entry ∈ entries, Node.Ordered entry.2) : Node.Ordered (.table origin entries)
  | tables {elements : List (List (String × Node))}
      (inner : ∀ entries ∈ elements, ∀ entry ∈ entries, Node.Ordered entry.2) :
      Node.Ordered (.tables elements)

def Entries.Ordered (entries : Entries) : Prop := ∀ entry ∈ entries, entry.2.Ordered

theorem ordered_entrySettings {entries : Entries}
    (all : ∀ entry ∈ entries, entry.2.setting.Ordered) :
    Setting.Ordered (.table (entrySettings entries)) := by
  induction entries with
  | nil => exact ordered_empty
  | cons entry rest ih =>
      rw [List.forall_mem_cons] at all
      exact (ih all.2).put all.1

theorem elementSettings_eq_map (elements : List (List (String × Node))) :
    elementSettings elements = elements.map fun entries => .table (entrySettings entries) := by
  induction elements with
  | nil => rfl
  | cons entries rest ih => rw [elementSettings, ih, List.map_cons]

theorem Node.Ordered.setting {node : Node} (ordered : node.Ordered) : node.setting.Ordered := by
  induction ordered with
  | value ordered => exact ordered
  | table inner ih => exact ordered_entrySettings ih
  | tables inner ih =>
      refine .list ?_
      intro item member
      rw [elementSettings_eq_map, List.mem_reverse] at member
      obtain ⟨entries, element, rfl⟩ := List.mem_map.mp member
      exact ordered_entrySettings (ih entries element)

namespace Entries

variable {key : String} {node : Node} {entries changed : Entries} {path : List String}
variable {origin : Origin} {value : Setting}

theorem Ordered.put (ordered : entries.Ordered) (own : node.Ordered) :
    (put key node entries).Ordered := by
  induction entries with
  | nil =>
      intro entry member
      rw [List.mem_singleton.mp member]
      exact own
  | cons first rest ih =>
      obtain ⟨head, tail⟩ := List.forall_mem_cons.mp ordered
      unfold Entries.put
      split
      · exact List.forall_mem_cons.mpr ⟨own, tail⟩
      · exact List.forall_mem_cons.mpr ⟨head, ih tail⟩

theorem Ordered.found (ordered : entries.Ordered) (found : find? key entries = some node) :
    node.Ordered := by
  induction entries with
  | nil => cases found
  | cons first rest ih =>
      obtain ⟨head, tail⟩ := List.forall_mem_cons.mp ordered
      rw [find?] at found
      split at found
      · cases found
        exact head
      · exact ih tail found

theorem ordered_nil : Entries.Ordered [] := nofun

/-- A change that keeps the entries of a table in order can be made at any path. -/
theorem Ordered.alter {dotted : Bool} {change : Origin → Entries → Option Entries}
    (keeps : ∀ origin entries changed, entries.Ordered → change origin entries = some changed →
      changed.Ordered)
    (ordered : entries.Ordered) (done : alter dotted change path origin entries = some changed) :
    changed.Ordered := by
  induction path generalizing origin entries changed with
  | nil => exact keeps origin entries changed ordered done
  | cons key rest ih =>
      rw [Entries.alter] at done
      split at done
      · obtain ⟨inner, reached, rfl⟩ := Option.map_eq_some_iff.mp done
        exact ordered.put (.table (ih ordered_nil reached))
      · cases done
      · cases done
      · rename_i found
        obtain ⟨inner, reached, rfl⟩ := Option.map_eq_some_iff.mp done
        cases ordered.found found with
        | tables within =>
            obtain ⟨last, earlier⟩ := List.forall_mem_cons.mp within
            exact ordered.put (.tables (List.forall_mem_cons.mpr ⟨ih last reached, earlier⟩))
      · rename_i found
        split at done
        · cases done
        · obtain ⟨inner, reached, rfl⟩ := Option.map_eq_some_iff.mp done
          cases ordered.found found with
          | table within => exact ordered.put (.table (ih within reached))

theorem Ordered.assign (ordered : entries.Ordered) (own : value.Ordered)
    (done : assign path key value origin entries = some changed) : changed.Ordered := by
  refine ordered.alter ?_ done
  intro origin entries changed ordered done
  split at done
  · cases done
  · split at done
    · cases done
      exact ordered.put (.value own)
    · cases done

theorem Ordered.openTable (ordered : entries.Ordered) (done : openTable key entries = some changed) :
    changed.Ordered := by
  unfold Entries.openTable at done
  split at done
  · cases done
    exact ordered.put (.table ordered_nil)
  · rename_i found
    cases done
    cases ordered.found found with
    | table within => exact ordered.put (.table within)
  · cases done

theorem Ordered.openElement (ordered : entries.Ordered)
    (done : openElement key entries = some changed) : changed.Ordered := by
  unfold Entries.openElement at done
  split at done
  · cases done
    exact ordered.put (.tables (List.forall_mem_singleton.mpr ordered_nil))
  · rename_i found
    cases done
    cases ordered.found found with
    | tables within => exact ordered.put (.tables (List.forall_mem_cons.mpr ⟨ordered_nil, within⟩))
  · cases done

end Entries

/-! ### Values -/

section

variable {word text rest : List Char} {setting : Setting}

theorem ordered_moment (word : List Char) : (moment word).Ordered := by
  refine .table (List.pairwise_singleton _ _) ?_
  intro entry member
  rw [List.mem_singleton.mp member]
  exact .plain nofun nofun

theorem ordered_signedWord? {negative : Bool} {magnitude : Nat}
    (found : signedWord? negative magnitude = some setting) : setting.Ordered := by
  obtain ⟨-, same⟩ := Option.ite_none_right_eq_some.mp found
  cases same
  exact .plain nofun nofun

theorem ordered_basedInteger? {base : Nat} (found : basedInteger? base word = some setting) :
    setting.Ordered := by
  obtain ⟨digits, -, found⟩ := Option.bind_eq_some_iff.mp found
  exact ordered_signedWord? found

theorem ordered_integer? (found : integer? word = some setting) : setting.Ordered := by
  unfold integer? at found
  split at found
  · exact ordered_basedInteger? found
  · exact ordered_basedInteger? found
  · exact ordered_basedInteger? found
  · obtain ⟨digits, -, found⟩ := Option.bind_eq_some_iff.mp found
    exact ordered_signedWord? found

theorem ordered_namedFloat? (found : namedFloat? word = some setting) : setting.Ordered := by
  unfold namedFloat? at found
  dsimp only at found
  split at found
  · cases found
    exact .plain nofun nofun
  · split at found
    · cases found
      exact .plain nofun nofun
    · cases found

theorem ordered_decimalFloat? (found : decimalFloat? word = some setting) : setting.Ordered := by
  unfold decimalFloat? at found
  dsimp only at found
  split at found
  · cases found
  · obtain ⟨whole, -, found⟩ := Option.bind_eq_some_iff.mp found
    -- the digits behind the point are there or not
    split at found
    all_goals
      obtain ⟨fraction, -, found⟩ := Option.bind_eq_some_iff.mp found
      obtain ⟨power, -, found⟩ := Option.bind_eq_some_iff.mp found
      split at found
      · cases found
      · cases found
        exact .plain nofun nofun

theorem ordered_word? (found : word? word = some setting) : setting.Ordered := by
  unfold word? at found
  split at found
  · cases found
    exact .plain nofun nofun
  · split at found
    · cases found
      exact .plain nofun nofun
    · split at found
      · cases found
        exact ordered_moment word
      · rcases Option.or_eq_some_iff.mp found with named | ⟨-, found⟩
        · exact ordered_namedFloat? named
        · rcases Option.or_eq_some_iff.mp found with whole | ⟨-, decimal⟩
          · exact ordered_integer? whole
          · exact ordered_decimalFloat? decimal

theorem ordered_scalar (found : scalar text = some (setting, rest)) : setting.Ordered := by
  unfold scalar at found
  dsimp only at found
  split at found
  · cases found
    exact ordered_moment _
  · obtain ⟨value, read, same⟩ := Option.map_eq_some_iff.mp found
    cases same
    exact ordered_word? read

/-! ### Inline tables and statements -/

/-- Everything that is read is ordered. -/
def Orderly (item : Reader Setting) : Prop :=
  ∀ text setting rest, item text = some (setting, rest) → setting.Ordered

theorem Orderly.assignment {item : Reader Setting} (orderly : Orderly item)
    {path : List String} (found : assignment item text = some ((path, setting), rest)) :
    setting.Ordered := by
  unfold Toml.assignment at found
  obtain ⟨⟨_, after⟩, -, found⟩ := Option.bind_eq_some_iff.mp found
  dsimp only at found
  split at found
  · obtain ⟨⟨value, more⟩, read, same⟩ := Option.bind_eq_some_iff.mp found
    cases same
    exact orderly _ _ _ read
  · cases found

theorem Orderly.inlineItems {item : Reader Setting} (orderly : Orderly item) {fuel : Nat}
    {items : List (List String × Setting)}
    (found : inlineItems (Toml.assignment item) fuel text = some (items, rest)) :
    ∀ entry ∈ items, entry.2.Ordered := by
  induction fuel generalizing text items rest with
  | zero => cases found
  | succ fuel ih =>
      unfold Toml.inlineItems at found
      obtain ⟨⟨⟨path, value⟩, after⟩, read, found⟩ := Option.bind_eq_some_iff.mp found
      have own := orderly.assignment read
      dsimp only at found
      split at found
      · obtain ⟨⟨more, last⟩, further, same⟩ := Option.bind_eq_some_iff.mp found
        cases same
        exact List.forall_mem_cons.mpr ⟨own, ih further⟩
      · cases found
        exact List.forall_mem_singleton.mpr own
      · cases found

theorem Orderly.arrayItems {item : Reader Setting} (orderly : Orderly item) {fuel : Nat}
    {list : List Setting} (found : arrayItems item fuel text = some (list, rest)) :
    ∀ setting ∈ list, setting.Ordered := by
  induction fuel generalizing text list rest with
  | zero => cases found
  | succ fuel ih =>
      unfold Toml.arrayItems at found
      split at found
      · cases found
        exact nofun
      · obtain ⟨⟨first, after⟩, read, found⟩ := Option.bind_eq_some_iff.mp found
        have own := orderly _ _ _ read
        dsimp only at found
        split at found
        · obtain ⟨⟨more, last⟩, further, same⟩ := Option.bind_eq_some_iff.mp found
          cases same
          exact List.forall_mem_cons.mpr ⟨own, ih further⟩
        · cases found
          exact List.forall_mem_singleton.mpr own
        · cases found

theorem ordered_tableOf? {items : List (List String × Setting)}
    (all : ∀ entry ∈ items, entry.2.Ordered) (found : tableOf? items = some setting) :
    setting.Ordered := by
  obtain ⟨entries, assigned, same⟩ := Option.bind_eq_some_iff.mp found
  cases same
  have ordered : entries.Ordered := by
    refine foldlM_keeps Entries.Ordered assigned Entries.ordered_nil ?_
    intro before item member after ordered assigned
    obtain ⟨⟨path, key⟩, -, assigned⟩ := Option.bind_eq_some_iff.mp assigned
    exact ordered.assign (all item member) assigned
  exact ordered_entrySettings fun entry member => (ordered entry member).setting

theorem orderly_value (depth : Nat) : Orderly (value depth) := by
  induction depth using Nat.strong_induction_on with
  | h depth ih =>
      intro text setting rest found
      unfold value at found
      split at found
      · obtain ⟨_, -, same⟩ := Option.map_eq_some_iff.mp found
        cases same
        exact .plain nofun nofun
      · obtain ⟨_, -, same⟩ := Option.map_eq_some_iff.mp found
        cases same
        exact .plain nofun nofun
      · cases found
      · cases found
      · rename_i depth _
        obtain ⟨⟨items, after⟩, read, same⟩ := Option.map_eq_some_iff.mp found
        cases same
        exact .list ((ih depth (Nat.lt_succ_self depth)).arrayItems read)
      · rename_i depth _
        split at found
        · cases found
          exact ordered_empty
        · obtain ⟨⟨items, after⟩, read, found⟩ := Option.bind_eq_some_iff.mp found
          obtain ⟨table, assembled, same⟩ := Option.bind_eq_some_iff.mp found
          cases same
          have inner := ih depth (Nat.lt_succ_self depth)
          exact ordered_tableOf? (inner.inlineItems read) assembled
      · exact ordered_scalar found

/-- What a statement assigns is ordered. -/
def Statement.Ordered : Statement → Prop
  | .assign _ value => value.Ordered
  | .table _ | .element _ => True

theorem ordered_header {first : Statement} (found : header text = some (first, rest)) :
    first.Ordered := by
  unfold header at found
  split at found
  · obtain ⟨⟨path, after⟩, -, found⟩ := Option.bind_eq_some_iff.mp found
    split at found <;> cases found
    trivial
  · obtain ⟨⟨path, after⟩, -, found⟩ := Option.bind_eq_some_iff.mp found
    split at found <;> cases found
    trivial
  · cases found

theorem ordered_statement {first : Statement} (found : statement text = some (first, rest)) :
    first.Ordered := by
  unfold statement at found
  split at found
  · exact ordered_header found
  · obtain ⟨⟨⟨path, value⟩, after⟩, read, same⟩ := Option.map_eq_some_iff.mp found
    cases same
    exact (orderly_value valueDepth).assignment read

theorem ordered_statements {fuel : Nat} {list : List Statement}
    (found : statements fuel text = some list) : ∀ statement ∈ list, statement.Ordered := by
  induction fuel generalizing text list with
  | zero => cases found
  | succ fuel ih =>
      unfold statements at found
      split at found
      · cases found
        exact nofun
      · obtain ⟨⟨first, after⟩, read, found⟩ := Option.bind_eq_some_iff.mp found
        obtain ⟨line, -, found⟩ := Option.bind_eq_some_iff.mp found
        obtain ⟨more, further, rfl⟩ := Option.map_eq_some_iff.mp found
        exact List.forall_mem_cons.mpr ⟨ordered_statement read, ih further⟩

theorem ordered_add {assembly next : Assembly} {statement : Statement}
    (ordered : assembly.root.Ordered) (own : statement.Ordered)
    (added : assembly.add statement = some next) : next.root.Ordered := by
  cases statement with
  | assign path value =>
      obtain ⟨⟨inner, key⟩, -, added⟩ := Option.bind_eq_some_iff.mp added
      obtain ⟨root, altered, same⟩ := Option.bind_eq_some_iff.mp added
      cases same
      exact ordered.alter (fun _ _ _ ordered assigned => ordered.assign own assigned) altered
  | table path =>
      obtain ⟨⟨parent, key⟩, -, added⟩ := Option.bind_eq_some_iff.mp added
      obtain ⟨root, altered, same⟩ := Option.bind_eq_some_iff.mp added
      cases same
      exact ordered.alter (fun _ _ _ ordered opened => ordered.openTable opened) altered
  | element path =>
      obtain ⟨⟨parent, key⟩, -, added⟩ := Option.bind_eq_some_iff.mp added
      obtain ⟨root, altered, same⟩ := Option.bind_eq_some_iff.mp added
      cases same
      exact ordered.alter (fun _ _ _ ordered opened => ordered.openElement opened) altered

/-- The settings of a document are an ordered table. -/
theorem ordered_parse? {document : String} (found : parse? document = some setting) :
    setting.Ordered ∧ setting.IsTable := by
  obtain ⟨list, read, found⟩ := Option.bind_eq_some_iff.mp found
  obtain ⟨assembly, assembled, same⟩ := Option.bind_eq_some_iff.mp found
  cases same
  have statements := ordered_statements read
  have ordered : assembly.root.Ordered := by
    refine foldlM_keeps (fun assembly => Entries.Ordered assembly.root) assembled
      Entries.ordered_nil ?_
    intro before statement member after ordered added
    exact ordered_add ordered (statements statement member) added
  exact ⟨ordered_entrySettings fun entry member => (ordered entry member).setting, ⟨_, rfl⟩⟩

end

end Toml

namespace Environment

variable {text rest : List Char} {setting : Setting}

/-! ### Variables -/

theorem ordered_wordSetting (word : List Char) : (wordSetting word).Ordered := by
  unfold wordSetting
  dsimp only
  split <;> exact .plain nofun nofun

/-- What holds of everything that is read as one item holds of all items of a list. -/
theorem items_all {α : Type} {good : α → Prop} {item : Reader α} {close : Char} {fuel : Nat}
    {list : List α} (each : ∀ text value rest, item text = some (value, rest) → good value)
    (found : items item close fuel text = some (list, rest)) : ∀ value ∈ list, good value := by
  induction fuel generalizing text list rest with
  | zero => cases found
  | succ fuel ih =>
      unfold items at found
      split at found
      · cases found
        exact nofun
      · obtain ⟨⟨first, after⟩, read, found⟩ := Option.bind_eq_some_iff.mp found
        have own := each _ _ _ read
        dsimp only at found
        split at found
        · obtain ⟨⟨more, last⟩, further, same⟩ := Option.bind_eq_some_iff.mp found
          cases same
          exact List.forall_mem_cons.mpr ⟨own, ih further⟩
        · split at found
          · cases found
            exact List.forall_mem_singleton.mpr own
          · cases found
        · cases found

theorem ordered_entry {value : Reader Setting}
    (orderly : ∀ text setting rest, value text = some (setting, rest) → setting.Ordered)
    {entry : String × Setting} (found : Environment.entry value text = some (entry, rest)) :
    entry.2.Ordered := by
  unfold Environment.entry at found
  dsimp only at found
  -- the key is quoted, missing or plain, and the value is what comes behind the sign
  split at found
  on_goal 2 => split at found
  all_goals
    obtain ⟨⟨key, after⟩, -, found⟩ := Option.bind_eq_some_iff.mp found
    dsimp only at found
    split at found
    · obtain ⟨⟨setting, more⟩, read, same⟩ := Option.map_eq_some_iff.mp found
      cases same
      exact orderly _ _ _ read
    · cases found

theorem ordered_tableOf {entries : List (String × Setting)}
    (all : ∀ entry ∈ entries, entry.2.Ordered) : (tableOf entries).Ordered := by
  have ordered : ∀ table, Setting.Ordered (.table table) → Setting.Ordered
      (.table (entries.foldl (fun table entry => putEntry entry.1 entry.2 table) table)) := by
    induction entries with
    | nil => exact fun _ ordered => ordered
    | cons entry rest ih =>
        obtain ⟨own, others⟩ := List.forall_mem_cons.mp all
        exact fun table ordered => ih others _ (ordered.put own)
  exact ordered [] ordered_empty

theorem ordered_value (depth : Nat) {text rest : List Char} {setting : Setting}
    (found : value depth text = some (setting, rest)) : setting.Ordered := by
  induction depth generalizing text setting rest with
  | zero => cases found
  | succ depth ih =>
      unfold value at found
      dsimp only at found
      split at found
      all_goals
        obtain ⟨⟨inner, after⟩, read, same⟩ := Option.bind_eq_some_iff.mp found
        cases same
      · cases read
        exact .plain nofun nofun
      · cases read
        exact .plain nofun nofun
      · obtain ⟨⟨entries, more⟩, listed, same⟩ := Option.map_eq_some_iff.mp read
        cases same
        exact ordered_tableOf (items_all (fun _ _ _ => ordered_entry fun _ _ _ => ih) listed)
      · obtain ⟨⟨list, more⟩, listed, same⟩ := Option.map_eq_some_iff.mp read
        cases same
        exact .list (items_all (fun _ _ _ => ih) listed)
      · obtain ⟨_, -, same⟩ := Option.map_eq_some_iff.mp read
        cases same
        exact .plain nofun nofun
      · cases read
        exact .plain nofun nofun
      · cases read
      · cases read
        exact ordered_wordSetting _

theorem ordered_parse (text : String) : (parse text).Ordered := by
  unfold parse
  split
  · rename_i found
    exact ordered_value _ found
  · exact .plain nofun nofun

theorem says?_nest (value : Setting) (path rest : List String) :
    (nest value path).says? (path ++ rest) = value.says? rest := by
  induction path with
  | nil => rfl
  | cons key path ih =>
      rw [nest, List.cons_append, says?_table, lookup, if_pos rfl, Option.bind_some]
      exact ih

theorem ordered_nest {value : Setting} (own : value.Ordered) (path : List String) :
    (nest value path).Ordered := by
  induction path with
  | nil => exact own
  | cons key rest ih =>
      refine .table (List.pairwise_singleton _ _) ?_
      intro entry member
      rw [List.mem_singleton.mp member]
      exact ih

end Environment

end ClaimStore
