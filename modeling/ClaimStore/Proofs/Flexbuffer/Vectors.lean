import ClaimStore.Proofs.Flexbuffer.Writing
import Mathlib.Data.List.Forall2

/-!
Lists are read back.

A stored vector gives a cursor to each of its places, so a vector of slots reads as the list of the
trees that the slots stand for.
-/
namespace ClaimStore.Flexbuffer

open Writer

variable {bytes buffer : Array UInt8} {writer start after : Writer} {slots : List Slot}
variable {width : Width} {kind : Kind} {tree : Tree} {base index length : Nat}

/-- Whether the elements of a value of the kind have types of their own. -/
def Kind.isUntyped : Kind → Bool
  | .vector | .map => true
  | _ => false

theorem Cursor.element_untyped {cursor : Cursor} (untyped : cursor.kind.isUntyped = true) :
    cursor.element length index =
      (cursor.untypedElement? length index).getD { buffer := cursor.buffer } := by
  unfold Cursor.element
  cases same : cursor.kind <;> first | rfl | (rw [same] at untyped; contradiction)

theorem Writer.Stored.element_shows {slot : Slot} {place front : Nat}
    (stored : Stored width slots start after) (inside : IsInside base after.bytes buffer)
    (untyped : kind.isUntyped = true) (found : slots[index]? = some slot)
    (means : slot.Means bytes tree) (early : IsFront bytes start.bytes)
    (wide : (slot.widthAt front place).code ≤ width.code)
    (fits : slot.word (start.bytes.size + width.bytes + index * width.bytes) < width.limit) :
    (Cursor.element { buffer, kind, width, address := base + (start.bytes.size + width.bytes) }
      slots.length index).Shows tree := by
  have word := wordAt?_inside inside (stored.words index slot found fits)
  have within : start.bytes.size + width.bytes + slots.length * width.bytes + index <
      after.bytes.size := by
    have bound := (List.getElem?_eq_some_iff.mp found).1
    have size := stored.size
    omega
  have packed := (inside.getElem? within).trans (stored.types index slot found)
  have behind : bytes.size ≤ start.bytes.size + width.bytes + index * width.bytes := by
    have := early.size_le
    omega
  obtain ⟨elementKind, child, cursor, unpacked, placed, shows⟩ :=
    means.read ((early.trans stored.front).trans_inside inside) behind wide word
  have reached : Cursor.untypedElement?
      { buffer, kind, width, address := base + (start.bytes.size + width.bytes) } slots.length
      index = some cursor := by
    simp only [← Nat.add_assoc] at packed placed
    simp only [Cursor.untypedElement?, ← Nat.add_assoc, packed, Option.bind_eq_bind,
      Option.bind_some, unpacked, placed]
  rw [Cursor.element_untyped untyped, reached, Option.getD_some]
  exact shows

theorem storedLength?_of_word {bytes : Array UInt8} {address count : Nat}
    (inside : IsInside base bytes buffer) (word : wordAt? bytes address width = some count) :
    Cursor.storedLength? { buffer, kind, width, address := base + (address + width.bytes) } =
      some count := by
  unfold Cursor.storedLength?
  simp only [← Nat.add_assoc]
  rw [if_pos (Nat.le_add_left _ _), Nat.add_sub_cancel]
  exact wordAt?_inside inside word

theorem Writer.Stored.storedLength? (stored : Stored width slots start after)
    (inside : IsInside base after.bytes buffer) (fits : slots.length < width.limit) :
    Cursor.storedLength?
      { buffer, kind, width, address := base + (start.bytes.size + width.bytes) } =
      some slots.length :=
  storedLength?_of_word inside (stored.length fits)

/-- Elements that read as the items one by one make up the whole vector. -/
theorem Cursor.showsItems_of_elements {cursor : Cursor} {items : List Tree}
    (short : items.length ≤ length)
    (shows : ∀ index item, items[index]? = some item →
      (cursor.element length (length - items.length + index)).Shows item) :
    cursor.ShowsItems length items := by
  induction items with
  | nil => trivial
  | cons item rest ih =>
      rw [List.length_cons] at short
      refine ⟨by simpa using shows 0 item rfl, ih (by omega) ?_⟩
      intro index next found
      have place : length - (rest.length + 1) + (index + 1) = length - rest.length + index := by
        omega
      simpa only [List.length_cons, place] using shows (index + 1) next found

namespace Writer

/-- What is known of a slot and the buffer after something has been stored. -/
structure Puts (writer after : Writer) (slot : Slot) (tree : Tree) : Prop where
  front : IsFront writer.bytes after.bytes
  named : after.Named
  means : slot.Means after.bytes tree

theorem text?_stored {text : String} (fits : (Bytes.ofText text).length < width.limit)
    (inside : IsInside base ((start.putWord width (Bytes.ofText text).length).append
      (Bytes.ofText text ++ [0])).bytes buffer) :
    Cursor.text?
      { buffer, kind := .text, width, address := base + (start.bytes.size + width.bytes) } =
      some text := by
  have address := start.size_putWord width (Bytes.ofText text).length
  have ended := front_append (start.putWord width (Bytes.ofText text).length)
    (Bytes.ofText text ++ [0])
  have stored : Cursor.storedLength?
      { buffer, kind := .text, width, address := base + (start.bytes.size + width.bytes) } =
      some (Bytes.ofText text).length :=
    storedLength?_of_word (ended.trans_inside inside) (wordAt?_putWord fits)
  have size := size_append (start.putWord width (Bytes.ofText text).length)
    (Bytes.ofText text ++ [0])
  rw [address, List.length_append, List.length_singleton] at size
  have within : base + (start.bytes.size + width.bytes) + (Bytes.ofText text).length ≤
      buffer.size := by
    have := inside.size_le
    omega
  have content : (buffer.extract (base + (start.bytes.size + width.bytes))
      (base + (start.bytes.size + width.bytes) + (Bytes.ofText text).length)).toList =
      Bytes.ofText text := by
    rw [Nat.add_assoc base, inside.extract (by omega), Array.toList_extract,
      List.extract_eq_take_drop, append, Array.toList_appendList, ← address,
      ← Array.length_toList, List.drop_left, Nat.add_sub_cancel_left, List.take_left]
  simp only [Cursor.text?, Cursor.storedBytes?, stored, Option.bind_eq_bind, Option.bind_some,
    if_pos within, content, Bytes.toText?_ofText, Option.getD_some]

theorem putText_puts (named : writer.Named) (text : String)
    (short : (writer.putText text).1.bytes.size < UInt32.size) :
    Puts writer (writer.putText text).1 (writer.putText text).2 (.text text) := by
  have aligned := writer.front_align (Width.ofNumber (Bytes.ofText text).length)
  have started := front_putWord (writer.align (Width.ofNumber (Bytes.ofText text).length))
    (Width.ofNumber (Bytes.ofText text).length) (Bytes.ofText text).length
  have ended := front_append ((writer.align (Width.ofNumber (Bytes.ofText text).length)).putWord
    (Width.ofNumber (Bytes.ofText text).length) (Bytes.ofText text).length)
    (Bytes.ofText text ++ [0])
  have front := (aligned.trans started).trans ended
  have word : (Bytes.ofText text).length < UInt64.size := by
    apply Width.word_of_short
    simp only [putText, size_append, List.length_append] at short
    omega
  refine ⟨front, named.grow rfl front, rfl, ended.size_le, ?_⟩
  intro base buffer inside
  simp only [Cursor.Shows, size_putWord]
  exact text?_stored (Width.lt_limit_ofNumber word) inside

theorem exists_of_forall₂ {α β : Type} {related : α → β → Prop} {left : List α} {right : List β}
    {value : β} (matched : List.Forall₂ related left right) (found : right[index]? = some value) :
    ∃ other, left[index]? = some other ∧ related other value := by
  obtain ⟨within, rfl⟩ := List.getElem?_eq_some_iff.mp found
  have bound : index < left.length := matched.length_eq ▸ within
  exact ⟨left[index], List.getElem?_eq_getElem bound, matched.get bound within⟩

theorem putList_puts {items : List Tree} (named : writer.Named)
    (matched : List.Forall₂ (fun slot item => Slot.Means writer.bytes item slot) slots items)
    (short : (writer.putList slots).1.bytes.size < UInt32.size) :
    Puts writer (writer.putList slots).1 (writer.putList slots).2 (.list items) := by
  have wide := vectorWidth_wide writer.bytes.size 1 slots
  have aligned := writer.front_align (vectorWidth writer.bytes.size 1 slots)
  have start := writer.size_align (vectorWidth writer.bytes.size 1 slots)
  have stored := stored_putVector (writer.align (vectorWidth writer.bytes.size 1 slots)) .vector
    (vectorWidth writer.bytes.size 1 slots) slots
  have reference := putVector_reference (writer.align (vectorWidth writer.bytes.size 1 slots))
    .vector (vectorWidth writer.bytes.size 1 slots) slots
  have size := stored.size
  rw [← putList] at stored reference size
  have front := aligned.trans stored.front
  have fits : slots.length < (vectorWidth writer.bytes.size 1 slots).limit :=
    Width.ofNumber_fits (Width.word_of_short (by omega)) wide.1
  refine ⟨front, named.grow stored.names front, ?_⟩
  rw [reference]
  refine ⟨rfl, by omega, ?_⟩
  intro base buffer inside
  have same := matched.length_eq
  refine ⟨by rw [← same]; exact stored.storedLength? inside fits, ?_⟩
  refine Cursor.showsItems_of_elements (Nat.le_refl _) ?_
  intro index item found
  obtain ⟨slot, held, means⟩ := exists_of_forall₂ matched found
  have bound := (List.getElem?_eq_some_iff.mp held).1
  have needs := wide.2 index slot held
  have place : (writer.align (vectorWidth writer.bytes.size 1 slots)).bytes.size +
      (vectorWidth writer.bytes.size 1 slots).bytes +
      index * (vectorWidth writer.bytes.size 1 slots).bytes =
      writer.bytes.size +
        padding writer.bytes.size (vectorWidth writer.bytes.size 1 slots).bytes +
        (1 + index) * (vectorWidth writer.bytes.size 1 slots).bytes := by
    rw [start, Nat.add_mul, Nat.one_mul]
    omega
  have within : (1 + index) * (vectorWidth writer.bytes.size 1 slots).bytes ≤
      slots.length * (vectorWidth writer.bytes.size 1 slots).bytes :=
    Nat.mul_le_mul_right _ (by omega)
  have word := means.bounded.word_fits needs (by omega)
  rw [← place] at word
  have shows := stored.element_shows inside (show Kind.vector.isUntyped = true from rfl) held means
    aligned needs word
  rw [same] at shows
  simpa using shows

end Writer

end ClaimStore.Flexbuffer
