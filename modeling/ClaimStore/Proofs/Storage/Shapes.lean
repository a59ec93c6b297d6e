import ClaimStore.Proofs.Flexbuffer.Trees
import ClaimStore.Proofs.Storage.Frames
import ClaimStore.Storage.Shape

/-!
Pool states are read back from their flexbuffers.
-/
namespace ClaimStore.Storage

open Flexbuffer

namespace Shape

variable {α : Type} {shape : Shape α}

/-- Every value is found where its tree is shown, and its tree can be read back. -/
structure Faithful (shape : Shape α) : Prop where
  formed : ∀ value, (shape.tree value).Formed
  found : ∀ {value cursor}, cursor.Shows (shape.tree value) → shape.find? cursor = some value

theorem faithful_claimId : claimId.Faithful where
  formed _ := trivial
  found {id cursor} shown := by
    change cursor.text? = some id.text at shown
    simp only [claimId, shown, Option.map_some]

theorem faithful_stateRef : stateRef.Faithful where
  formed _ := trivial
  found {ref cursor} shown := by
    change cursor.text? = some ref.text at shown
    simp only [stateRef, shown, Option.map_some]

theorem Faithful.itemsFormed (faithful : shape.Faithful) (values : List α) :
    Tree.ItemsFormed (values.map shape.tree) := by
  induction values with
  | nil => trivial
  | cons value rest ih => exact ⟨faithful.formed value, ih⟩

theorem Faithful.collectElements (faithful : shape.Faithful) {cursor : Cursor} {length : Nat}
    {values : List α} (shown : cursor.ShowsItems length (values.map shape.tree)) :
    cursor.collectElements shape.find? length values.length = some values := by
  induction values with
  | nil => rfl
  | cons value rest ih =>
      obtain ⟨first, others⟩ := shown
      rw [List.length_map] at first
      simp only [List.length_cons, Cursor.collectElements, faithful.found first, ih others,
        Option.bind_eq_bind, Option.bind_some]

theorem Faithful.list? (faithful : shape.Faithful) {cursor : Cursor} {values : List α}
    (shown : cursor.Shows (.list (values.map shape.tree))) :
    cursor.list? shape.find? = some values := by
  obtain ⟨counted, items⟩ := shown
  rw [List.length_map] at counted items
  simp only [Cursor.list?, counted, Option.bind_eq_bind, Option.bind_some]
  exact faithful.collectElements items

theorem showFields_cons {cursors : List Cursor} {name : String} {tree : Tree}
    {fields : List (String × Tree)} (shown : Cursor.ShowFields cursors ((name, tree) :: fields)) :
    ∃ cursor rest, cursors = cursor :: rest ∧ cursor.Shows tree ∧ Cursor.ShowFields rest fields := by
  cases cursors with
  | nil => exact shown.elim
  | cons cursor rest => exact ⟨cursor, rest, rfl, shown⟩

theorem showFields_nil {cursors : List Cursor} (shown : Cursor.ShowFields cursors []) :
    cursors = [] := by
  cases cursors with
  | nil => rfl
  | cons cursor rest => exact shown.elim

theorem faithful_token : token.Faithful where
  formed token :=
    ⟨show ["state_ref", "amount"].Nodup by decide, by decide +kernel, trivial, by decide +kernel,
      trivial, trivial⟩
  found {token cursor} shown := by
    obtain ⟨cursors, read, shown⟩ := shown
    obtain ⟨ref, rest, rfl, refShown, shown⟩ := showFields_cons shown
    obtain ⟨amount, rest, rfl, amountShown, shown⟩ := showFields_cons shown
    cases showFields_nil shown
    have refFound := faithful_stateRef.found refShown
    have amountFound : amount.number? = some token.amount := amountShown
    simp only [List.map_cons, List.map_nil] at read
    simp only [Shape.token, read, Option.bind_eq_bind, Option.bind_some, refFound, amountFound]

theorem faithful_claim : claim.Faithful where
  formed claim :=
    ⟨show ["claim_id", "tokens"].Nodup by decide, by decide +kernel, trivial, by decide +kernel,
      faithful_token.itemsFormed claim.tokens, trivial⟩
  found {claim cursor} shown := by
    obtain ⟨cursors, read, shown⟩ := shown
    obtain ⟨id, rest, rfl, idShown, shown⟩ := showFields_cons shown
    obtain ⟨tokens, rest, rfl, tokensShown, shown⟩ := showFields_cons shown
    cases showFields_nil shown
    have idFound := faithful_claimId.found idShown
    have tokensFound := faithful_token.list? tokensShown
    simp only [List.map_cons, List.map_nil] at read
    simp only [Shape.claim, read, Option.bind_eq_bind, Option.bind_some, idFound, tokensFound]

theorem mapM_text? {cursors : List Cursor} {names texts : List String}
    (same : names.length = texts.length)
    (shown : Cursor.ShowFields cursors (names.zip (texts.map Tree.text))) :
    cursors.mapM Cursor.text? = some texts := by
  induction texts generalizing names cursors with
  | nil =>
      rw [List.map_nil, List.zip_nil_right] at shown
      rw [showFields_nil shown]
      rfl
  | cons text rest ih =>
      cases names with
      | nil => contradiction
      | cons name names =>
          obtain ⟨cursor, others, rfl, first, shown⟩ := showFields_cons shown
          have read : cursor.text? = some text := first
          simp [read, ih (Nat.succ.inj same) shown]

theorem faithful_poolKey : poolKey.Faithful where
  formed key :=
    ⟨show (PoolKey.Component.all.map PoolKey.Component.name).Nodup by decide, by decide +kernel,
      trivial, by decide +kernel, trivial, by decide +kernel, trivial, by decide +kernel, trivial,
      by decide +kernel, trivial, trivial⟩
  found {key cursor} shown := by
    obtain ⟨cursors, read, shown⟩ := shown
    have texts := mapM_text?
      (show (PoolKey.Component.all.map PoolKey.Component.name).length = key.components.length
        from rfl) shown
    have names : ((PoolKey.Component.all.map PoolKey.Component.name).zip
        (key.components.map Tree.text)).map Prod.fst =
        PoolKey.Component.all.map PoolKey.Component.name := rfl
    rw [names] at read
    simp only [poolKey, read, Option.bind_eq_bind, Option.bind_some, texts, PoolKey.components]

theorem faithful_poolState : poolState.Faithful where
  formed pool :=
    ⟨show ["pool_key", "available_units", "claims"].Nodup by decide, by decide +kernel,
      faithful_poolKey.formed pool.key, by decide +kernel, trivial, by decide +kernel,
      faithful_claim.itemsFormed pool.claims, trivial⟩
  found {pool cursor} shown := by
    obtain ⟨cursors, read, shown⟩ := shown
    obtain ⟨key, rest, rfl, keyShown, shown⟩ := showFields_cons shown
    obtain ⟨available, rest, rfl, availableShown, shown⟩ := showFields_cons shown
    obtain ⟨claims, rest, rfl, claimsShown, shown⟩ := showFields_cons shown
    cases showFields_nil shown
    have keyFound := faithful_poolKey.found keyShown
    have availableFound : available.number? = some pool.available := availableShown
    have claimsFound := faithful_claim.list? claimsShown
    simp only [List.map_cons, List.map_nil] at read
    simp only [poolState, read, Option.bind_eq_bind, Option.bind_some, keyFound, availableFound,
      claimsFound]

/-- A payload is read from the end, so it is found behind other bytes as well. -/
theorem Faithful.read?_behind (faithful : shape.Faithful) {value : α}
    (storable : shape.format.isStorable value = true) (before : Bytes) :
    shape.format.read? (before ++ shape.format.write value) = some value := by
  have short : (shape.format.write value).length < UInt32.size := of_decide_eq_true storable
  obtain ⟨cursor, root, shown⟩ := Tree.root?_write before (faithful.formed value) short
  have found := faithful.found shown
  simp only [format] at root ⊢
  simp only [root, Option.bind_eq_bind, Option.bind_some, found]

theorem Faithful.read?_write (faithful : shape.Faithful) {value : α}
    (storable : shape.format.isStorable value = true) :
    shape.format.read? (shape.format.write value) = some value :=
  faithful.read?_behind storable []

theorem Faithful.write_ne_nil (faithful : shape.Faithful) {value : α}
    (storable : shape.format.isStorable value = true) : shape.format.write value ≠ [] := by
  intro empty
  have back := faithful.read?_write storable
  rw [empty] at back
  cases back

end Shape

/-- Every pool state that can be stored is read back from its frame. -/
theorem poolFormat_decode_encode {pool : PoolState} (storable : poolFormat.isStorable pool = true) :
    (poolFormat.decode (.ofChunks [poolFormat.encode pool])).1 = .ok pool := by
  have frame : [poolFormat.encode pool].flatten = poolFormat.encode pool := List.flatten_singleton
  have decoded := Format.decode_parts storable (Shape.faithful_poolState.write_ne_nil storable)
    frame (Shape.faithful_poolState.read?_write storable) []
  rw [List.append_nil] at decoded
  rw [decoded]

end ClaimStore.Storage
