import ClaimStore.Proofs.Flexbuffer.Slots

/-!
What a writer leaves in its buffer.

Each operation of a writer is described by what can be read afterwards at the places that it has
filled. Whatever was written before stays in front.
-/
namespace ClaimStore.Flexbuffer

/-- The name stands at the address, with a zero byte at its end. -/
def NameAt (bytes : Array UInt8) (address : Nat) (name : String) : Prop :=
  Bytes.ofText name ++ [0] <+: bytes.toList.drop address

theorem NameAt.inside {bytes buffer : Array UInt8} {base address : Nat} {name : String}
    (stands : NameAt bytes address name) (inside : IsInside base bytes buffer) :
    NameAt buffer (base + address) name := by
  obtain ⟨rest, whole⟩ := inside.toList_drop
  unfold NameAt
  rw [← List.drop_drop, ← whole, List.drop_append]
  exact List.IsPrefix.trans stands (List.prefix_append _ _)

theorem NameAt.front {bytes buffer : Array UInt8} {address : Nat} {name : String}
    (stands : NameAt bytes address name) (front : IsFront bytes buffer) :
    NameAt buffer address name :=
  Nat.zero_add address ▸ stands.inside front.inside

theorem NameAt.keyName {cursor : Cursor} {name : String} (plain : 0 ∉ Bytes.ofText name)
    (stands : NameAt cursor.buffer cursor.address name) : cursor.keyName = name := by
  obtain ⟨rest, whole⟩ := stands
  have nonzero : ∀ byte ∈ Bytes.ofText name, (decide (byte ≠ 0)) = true := by
    intro byte member
    exact decide_eq_true fun zero => plain (zero ▸ member)
  have bytes : cursor.keyBytes = Bytes.ofText name := by
    unfold Cursor.keyBytes
    simp only [← whole, List.append_assoc, List.takeWhile_append_of_pos nonzero]
    simp
  rw [Cursor.keyName, bytes, Bytes.toText?_ofText, Option.getD_some]

namespace Writer

/-- The recorded field names stand where they are said to. -/
def Named (writer : Writer) : Prop :=
  ∀ name address, (name, address) ∈ writer.names →
    address ≤ writer.bytes.size ∧ NameAt writer.bytes address name

variable {writer : Writer} {width : Width}

theorem Named.grow {after : Writer} (named : writer.Named) (names : after.names = writer.names)
    (front : IsFront writer.bytes after.bytes) : after.Named := by
  intro name address member
  obtain ⟨behind, stands⟩ := named name address (names ▸ member)
  exact ⟨Nat.le_trans behind front.size_le, stands.front front⟩

theorem front_append (writer : Writer) (bytes : Bytes) :
    IsFront writer.bytes (writer.append bytes).bytes :=
  IsFront.append writer.bytes bytes

theorem size_append (writer : Writer) (bytes : Bytes) :
    (writer.append bytes).bytes.size = writer.bytes.size + bytes.length :=
  size_appendList writer.bytes bytes

theorem front_align (writer : Writer) (width : Width) :
    IsFront writer.bytes (writer.align width).bytes :=
  writer.front_append _

theorem size_align (writer : Writer) (width : Width) :
    (writer.align width).bytes.size =
      writer.bytes.size + padding writer.bytes.size width.bytes := by
  rw [align, size_append, List.length_replicate]

theorem front_putWord (writer : Writer) (width : Width) (word : Nat) :
    IsFront writer.bytes (writer.putWord width word).bytes :=
  writer.front_append _

theorem size_putWord (writer : Writer) (width : Width) (word : Nat) :
    (writer.putWord width word).bytes.size = writer.bytes.size + width.bytes := by
  rw [putWord, size_append, Bytes.littleEndian_length]

theorem wordAt?_putWord {word : Nat} (fits : word < width.limit) :
    wordAt? (writer.putWord width word).bytes writer.bytes.size width = some word :=
  wordAt?_append writer.bytes width word fits

/-- What stands in a buffer after slots have been written one after the other: each in its place. -/
structure Filled (width : Width) (slots : List Slot) (writer after : Writer) : Prop where
  front : IsFront writer.bytes after.bytes
  names : after.names = writer.names
  size : after.bytes.size = writer.bytes.size + slots.length * width.bytes
  words : ∀ index slot, slots[index]? = some slot →
    slot.word (writer.bytes.size + index * width.bytes) < width.limit →
    wordAt? after.bytes (writer.bytes.size + index * width.bytes) width =
      some (slot.word (writer.bytes.size + index * width.bytes))

theorem filled_putSlots (width : Width) (slots : List Slot) (writer : Writer) :
    Filled width slots writer (slots.foldl (putSlot width) writer) := by
  induction slots generalizing writer with
  | nil => exact ⟨IsFront.refl _, rfl, by simp, fun index slot found => by simp at found⟩
  | cons first rest ih =>
      have size := writer.size_putWord width (first.word writer.bytes.size)
      have tail := ih (putSlot width writer first)
      refine ⟨(writer.front_putWord width _).trans tail.front, tail.names, ?_, ?_⟩
      · rw [List.foldl_cons, tail.size, putSlot, size, List.length_cons, Nat.succ_mul]
        omega
      · intro index slot found fits
        cases index with
        | zero =>
            cases found
            simp only [Nat.zero_mul, Nat.add_zero] at fits ⊢
            exact wordAt?_front tail.front (wordAt?_putWord fits)
        | succ index =>
            have place : writer.bytes.size + (index + 1) * width.bytes =
                (putSlot width writer first).bytes.size + index * width.bytes := by
              rw [putSlot, size, Nat.succ_mul]
              omega
            rw [place] at fits ⊢
            exact tail.words index slot found fits

theorem code_le_foldl_max {α : Type} (needs : α → Width) (items : List α) (width : Width) :
    width.code ≤ (items.foldl (fun width item => width.max (needs item)) width).code ∧
      ∀ item ∈ items,
        (needs item).code ≤ (items.foldl (fun width item => width.max (needs item)) width).code := by
  induction items generalizing width with
  | nil => exact ⟨Nat.le_refl _, by simp⟩
  | cons first rest ih =>
      obtain ⟨start, members⟩ := ih (width.max (needs first))
      rw [Width.code_max] at start
      refine ⟨Nat.le_trans (Nat.le_max_left _ _) start, ?_⟩
      intro item member
      rcases List.mem_cons.mp member with rfl | member
      · exact Nat.le_trans (Nat.le_max_right _ _) start
      · exact members item member

theorem vectorWidth_wide (length lead : Nat) (slots : List Slot) :
    (Width.ofNumber slots.length).code ≤ (vectorWidth length lead slots).code ∧
      ∀ (index : Nat) (slot : Slot), slots[index]? = some slot →
        (slot.widthAt length (lead + index)).code ≤ (vectorWidth length lead slots).code := by
  have bound := code_le_foldl_max (fun item : Slot × Nat => item.1.widthAt length item.2)
    (slots.zipIdx lead) (Width.ofNumber slots.length)
  refine ⟨bound.1, ?_⟩
  intro index slot found
  refine bound.2 (slot, lead + index) ?_
  rw [List.mem_iff_getElem?]
  exact ⟨index, by rw [List.getElem?_zipIdx, found, Option.map_some]⟩

/-- What stands in a buffer after the vector of slots has been written: its length, the words of the
slots, and their packed types. -/
structure Stored (width : Width) (slots : List Slot) (writer after : Writer) : Prop where
  front : IsFront writer.bytes after.bytes
  names : after.names = writer.names
  size : after.bytes.size =
    writer.bytes.size + width.bytes + slots.length * width.bytes + slots.length
  length : slots.length < width.limit →
    wordAt? after.bytes writer.bytes.size width = some slots.length
  words : ∀ index slot, slots[index]? = some slot →
    slot.word (writer.bytes.size + width.bytes + index * width.bytes) < width.limit →
    wordAt? after.bytes (writer.bytes.size + width.bytes + index * width.bytes) width =
      some (slot.word (writer.bytes.size + width.bytes + index * width.bytes))
  types : ∀ index slot, slots[index]? = some slot →
    after.bytes[writer.bytes.size + width.bytes + slots.length * width.bytes + index]? =
      some (slot.packed width)

theorem putVector_reference (writer : Writer) (kind : Kind) (width : Width) (slots : List Slot) :
    (writer.putVector kind width slots).2 =
      .reference kind width (writer.bytes.size + width.bytes) := by
  simp only [putVector, size_putWord]

theorem stored_putVector (writer : Writer) (kind : Kind) (width : Width) (slots : List Slot) :
    Stored width slots writer (writer.putVector kind width slots).1 := by
  have started := writer.front_putWord width slots.length
  have start := writer.size_putWord width slots.length
  have filled := filled_putSlots width slots (writer.putWord width slots.length)
  have ended := front_append (slots.foldl (putSlot width) (writer.putWord width slots.length))
    (slots.map (Slot.packed width))
  refine ⟨(started.trans filled.front).trans ended, filled.names, ?_, ?_, ?_, ?_⟩
  · simp only [putVector, size_append, filled.size, start, List.length_map]
  · intro fits
    exact wordAt?_front (filled.front.trans ended) (wordAt?_putWord fits)
  · intro index slot found fits
    have word := filled.words index slot found
    rw [start] at word
    exact wordAt?_front ended (word fits)
  · intro index slot found
    have end' := filled.size
    rw [start] at end'
    have typed : (slots.map (Slot.packed width))[index]? = some (slot.packed width) := by
      rw [List.getElem?_map, found, Option.map_some]
    simp only [putVector, append]
    rw [← Array.getElem?_toList, Array.toList_appendList, ← end', ← Array.length_toList,
      List.getElem?_append_right (Nat.le_add_right _ _), Nat.add_sub_cancel_left, typed]

end Writer

end ClaimStore.Flexbuffer
