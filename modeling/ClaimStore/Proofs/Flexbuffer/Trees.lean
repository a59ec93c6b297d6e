import ClaimStore.Proofs.Flexbuffer.Records

/-!
Trees are read back.

Writing a tree leaves a slot that stands for it, by induction on the tree: the parts of a list or a
record are in place before it is put together. The root of the finished buffer is the place of that
slot.
-/
namespace ClaimStore.Flexbuffer

mutual

/-- Whether a tree can be read back: the names in each record are distinct and hold no zero byte. -/
def Tree.Formed : Tree → Prop
  | .number _ | .text _ => True
  | .list items => Tree.ItemsFormed items
  | .record fields => (fields.map Prod.fst).Nodup ∧ Tree.FieldsFormed fields

def Tree.ItemsFormed : List Tree → Prop
  | [] => True
  | item :: rest => item.Formed ∧ Tree.ItemsFormed rest

def Tree.FieldsFormed : List (String × Tree) → Prop
  | [] => True
  | (name, value) :: rest => 0 ∉ Bytes.ofText name ∧ value.Formed ∧ Tree.FieldsFormed rest

end

theorem Tree.FieldsFormed.plain {fields : List (String × Tree)} (formed : Tree.FieldsFormed fields) :
    ∀ name ∈ fields.map Prod.fst, 0 ∉ Bytes.ofText name := by
  induction fields with
  | nil => simp
  | cons field rest ih =>
      intro name member
      rcases List.mem_cons.mp member with rfl | member
      · exact formed.1
      · exact ih formed.2.2 name member

namespace Writer

variable {writer after : Writer}

theorem front_putName (writer : Writer) (name : String) :
    IsFront writer.bytes (writer.putName name).1.bytes := by
  unfold putName
  split
  · exact IsFront.refl _
  · exact front_append _ _

theorem putName_named (named : writer.Named) (name : String) :
    (writer.putName name).1.Named ∧
      (writer.putName name).2 ≤ (writer.putName name).1.bytes.size ∧
      NameAt (writer.putName name).1.bytes (writer.putName name).2 name := by
  unfold putName
  split
  · rename_i address found
    obtain ⟨front, back, names, -⟩ := List.lookup_eq_some_iff.mp found
    have member : (name, address) ∈ writer.names := by
      rw [names]
      simp
    exact ⟨named, named name address member⟩
  · have grown := front_append writer (Bytes.ofText name ++ [0])
    have stands : NameAt (writer.append (Bytes.ofText name ++ [0])).bytes writer.bytes.size
        name := by
      unfold NameAt append
      rewrite [Array.toList_appendList, ← Array.length_toList, List.drop_left]
      exact List.prefix_rfl
    refine ⟨?_, grown.size_le, stands⟩
    intro other address member
    rcases List.mem_cons.mp member with same | member
    · cases same
      exact ⟨grown.size_le, stands⟩
    · obtain ⟨behind, stood⟩ := named other address member
      exact ⟨Nat.le_trans behind grown.size_le, stood.front grown⟩

theorem front_putText (writer : Writer) (text : String) :
    IsFront writer.bytes (writer.putText text).1.bytes :=
  (front_align _ _).trans ((front_putWord _ _ _).trans (front_append _ _))

theorem front_putList (writer : Writer) (slots : List Slot) :
    IsFront writer.bytes (writer.putList slots).1.bytes :=
  (front_align _ _).trans (stored_putVector _ .vector _ slots).front

theorem front_putRecord (writer : Writer) (fields : List (String × Nat × Slot)) :
    IsFront writer.bytes (writer.putRecord fields).1.bytes :=
  (front_putNames _ _).trans (putNames_front_putRecord _ _)

mutual

theorem front_put (writer : Writer) (tree : Tree) :
    IsFront writer.bytes (writer.put tree).1.bytes := by
  cases tree with
  | number value => exact IsFront.refl _
  | text value => exact front_putText writer value
  | list items =>
      rw [put]
      exact (front_putItems writer items).trans (front_putList _ _)
  | record fields =>
      rw [put]
      exact (front_putFields writer fields).trans (front_putRecord _ _)

theorem front_putItems (writer : Writer) (items : List Tree) :
    IsFront writer.bytes (writer.putItems items).1.bytes := by
  cases items with
  | nil => exact IsFront.refl _
  | cons item rest =>
      rw [putItems]
      exact (front_put writer item).trans (front_putItems _ rest)

theorem front_putFields (writer : Writer) (fields : List (String × Tree)) :
    IsFront writer.bytes (writer.putFields fields).1.bytes := by
  cases fields with
  | nil => exact IsFront.refl _
  | cons field rest =>
      obtain ⟨name, value⟩ := field
      rw [putFields]
      exact (front_putName writer name).trans ((front_put _ value).trans (front_putFields _ rest))

end

mutual

/-- Writing a tree leaves a slot that stands for it, as long as words of four bytes can tell all
addresses. -/
theorem put_puts {writer : Writer} {tree : Tree} (named : writer.Named) (formed : tree.Formed)
    (short : (writer.put tree).1.bytes.size < UInt32.size) :
    Puts writer (writer.put tree).1 (writer.put tree).2 tree := by
  cases tree with
  | number value =>
      refine ⟨IsFront.refl _, named, ?_, ?_⟩
      · exact value.toNat_lt
      · rw [UInt64.ofNat_toNat]
  | text value => exact putText_puts named value short
  | list items =>
      simp only [put] at short ⊢
      have last := front_putList (writer.putItems items).1 (writer.putItems items).2
      obtain ⟨front, kept, matched⟩ := putItems_puts named formed
        (Nat.lt_of_le_of_lt last.size_le short)
      have puts := putList_puts kept matched short
      exact ⟨front.trans puts.front, puts.named, puts.means⟩
  | record fields =>
      simp only [put] at short ⊢
      have last := front_putRecord (writer.putFields fields).1 (writer.putFields fields).2
      obtain ⟨front, kept, matched⟩ := putFields_puts named formed.2
        (Nat.lt_of_le_of_lt last.size_le short)
      have puts := putRecord_puts kept matched formed.1 formed.2.plain short
      exact ⟨front.trans puts.front, puts.named, puts.means⟩

theorem putItems_puts {writer : Writer} {items : List Tree} (named : writer.Named)
    (formed : Tree.ItemsFormed items) (short : (writer.putItems items).1.bytes.size < UInt32.size) :
    IsFront writer.bytes (writer.putItems items).1.bytes ∧ (writer.putItems items).1.Named ∧
      List.Forall₂ (fun slot item => Slot.Means (writer.putItems items).1.bytes item slot)
        (writer.putItems items).2 items := by
  cases items with
  | nil => exact ⟨IsFront.refl _, named, List.Forall₂.nil⟩
  | cons item rest =>
      simp only [putItems] at short ⊢
      have last := front_putItems (writer.put item).1 rest
      have first := put_puts named formed.1 (Nat.lt_of_le_of_lt last.size_le short)
      obtain ⟨front, kept, matched⟩ := putItems_puts first.named formed.2 short
      exact ⟨first.front.trans front, kept, .cons (first.means.grow front) matched⟩

theorem putFields_puts {writer : Writer} {fields : List (String × Tree)} (named : writer.Named)
    (formed : Tree.FieldsFormed fields)
    (short : (writer.putFields fields).1.bytes.size < UInt32.size) :
    IsFront writer.bytes (writer.putFields fields).1.bytes ∧ (writer.putFields fields).1.Named ∧
      List.Forall₂ (writer.putFields fields).1.FieldMeans (writer.putFields fields).2 fields := by
  cases fields with
  | nil => exact ⟨IsFront.refl _, named, List.Forall₂.nil⟩
  | cons field rest =>
      obtain ⟨name, value⟩ := field
      simp only [putFields] at short ⊢
      obtain ⟨recorded, behind, stands⟩ := putName_named named name
      have last := front_putFields ((writer.putName name).1.put value).1 rest
      have first := put_puts recorded formed.2.1 (Nat.lt_of_le_of_lt last.size_le short)
      obtain ⟨front, kept, matched⟩ := putFields_puts first.named formed.2.2 short
      have own : FieldMeans ((writer.putName name).1.put value).1
          (name, (writer.putName name).2, ((writer.putName name).1.put value).2) (name, value) :=
        ⟨rfl, Nat.le_trans behind first.front.size_le, stands.front first.front, first.means⟩
      exact ⟨(front_putName writer name).trans (first.front.trans front), kept,
        .cons (own.grow front) matched⟩

end

/-- The root is found in a buffer that ends with its place, its packed type and the width of the
place. -/
theorem root?_of_end {bytes : Bytes} {place : Nat} {width child : Width} {kind : Kind}
    {packed : UInt8} {cursor : Cursor} (size : bytes.length = place + width.bytes + 2)
    (type : bytes[place + width.bytes]? = some packed)
    (last : bytes[place + width.bytes + 1]? = some (UInt8.ofNat width.bytes))
    (unpacked : unpackType? packed = some (kind, child))
    (placed : Cursor.ofPlace? bytes.toArray place kind child width = some cursor) :
    Cursor.root? bytes = some cursor := by
  have small : (UInt8.ofNat width.bytes).toNat = width.bytes := by cases width <;> rfl
  have positive := width.bytes_pos
  have atEnd : bytes.length - 1 = place + width.bytes + 1 := by omega
  have before : bytes.length - 2 = place + width.bytes := by omega
  simp only [Cursor.root?, List.size_toArray, List.getElem?_toArray, Option.bind_eq_bind]
  rw [if_neg (by omega), atEnd, last, before, type]
  simp only [Option.bind_some, small, Width.ofBytes?_bytes, unpacked]
  rw [if_pos (by omega), Nat.add_sub_cancel]
  exact placed

/-- The root is found from the end, so a finished buffer may stand behind other bytes. -/
theorem root?_finish {tree : Tree} {root : Slot} (before : Bytes)
    (means : root.Means writer.bytes tree) (short : (writer.finish root).length < UInt32.size) :
    ∃ cursor, Cursor.root? (before ++ writer.finish root) = some cursor ∧ cursor.Shows tree := by
  unfold finish at short ⊢
  simp only at short ⊢
  generalize asked : root.widthAt writer.bytes.size 0 = width at short ⊢
  have place := writer.size_align width
  have size := size_putWord (writer.align width) width (root.word (writer.align width).bytes.size)
  rw [← putSlot] at size
  have ended := front_append (putSlot width (writer.align width) root)
    [root.packed width, UInt8.ofNat width.bytes]
  have total := size_append (putSlot width (writer.align width) root)
    [root.packed width, UInt8.ofNat width.bytes]
  have last : ∀ index, ((putSlot width (writer.align width) root).append
      [root.packed width, UInt8.ofNat width.bytes]).bytes.toList[
        (putSlot width (writer.align width) root).bytes.size + index]? =
      [root.packed width, UInt8.ofNat width.bytes][index]? := by
    intro index
    rw [append, Array.toList_appendList, ← Array.length_toList,
      List.getElem?_append_right (Nat.le_add_right _ _), Nat.add_sub_cancel_left]
  generalize (putSlot width (writer.align width) root).append
    [root.packed width, UInt8.ofNat width.bytes] = whole at *
  rw [size] at last
  have wide : (root.widthAt writer.bytes.size 0).code ≤ width.code := Nat.le_of_eq (by rw [asked])
  rw [Array.length_toList] at short
  simp only [List.length_cons, List.length_nil] at total
  have fits := means.bounded.word_fits wide (by omega)
  rw [Nat.zero_mul, Nat.add_zero, ← place] at fits
  have inside : IsInside before.length whole.bytes (before ++ whole.bytes.toList).toArray :=
    ⟨before, [], rfl, (List.append_nil _).symm⟩
  have word := wordAt?_inside (ended.trans_inside inside) (wordAt?_putWord fits)
  have front := ((writer.front_align width).trans (front_putWord _ width _)).trans ended
  obtain ⟨kind, child, cursor, unpacked, placed, shows⟩ :=
    means.read (front.trans_inside inside) (writer.front_align width).size_le wide word
  have shifted : ∀ index, (before ++ whole.bytes.toList)[before.length + index]? =
      whole.bytes.toList[index]? := by
    intro index
    rw [List.getElem?_append_right (Nat.le_add_right _ _), Nat.add_sub_cancel_left]
  refine ⟨cursor, root?_of_end ?_ ?_ ?_ unpacked placed, shows⟩
  · simp only [List.length_append, Array.length_toList]
    omega
  · rw [Nat.add_assoc, shifted]
    exact last 0
  · rw [Nat.add_assoc, Nat.add_assoc, ← Nat.add_assoc _ _ 1, shifted]
    exact last 1

end Writer

/-- The root of a written tree reads as the tree, also behind other bytes. -/
theorem Tree.root?_write {tree : Tree} (before : Bytes) (formed : tree.Formed)
    (short : tree.write.length < UInt32.size) :
    ∃ cursor, Cursor.root? (before ++ tree.write) = some cursor ∧ cursor.Shows tree := by
  have named : Writer.Named {} := by
    intro name address member
    cases member
  have grown : (Writer.put {} tree).1.bytes.size ≤ tree.write.length := by
    unfold Tree.write Writer.finish
    simp only [Array.length_toList]
    exact (((Writer.front_align _ _).trans (Writer.front_putWord _ _ _)).trans
      (Writer.front_append _ _)).size_le
  have puts := Writer.put_puts named formed (Nat.lt_of_le_of_lt grown short)
  exact Writer.root?_finish before puts.means short

end ClaimStore.Flexbuffer
