import ClaimStore.Flexbuffer.Cursor
import ClaimStore.Flexbuffer.Writer

/-!
Words in a buffer that grows.

A writer only appends. What is read at a place of its buffer is therefore also read there in every
buffer that starts with it, and this is all that later writes have to respect. A buffer that stands
behind other bytes reads the same as well, with all its places moved by as many bytes.
-/
namespace ClaimStore.Flexbuffer

/-- `buffer` starts with `bytes`. -/
def IsFront (bytes buffer : Array UInt8) : Prop := bytes.toList <+: buffer.toList

namespace IsFront

variable {bytes middle buffer : Array UInt8}

theorem refl (bytes : Array UInt8) : IsFront bytes bytes := List.prefix_rfl

theorem trans (first : IsFront bytes middle) (second : IsFront middle buffer) :
    IsFront bytes buffer :=
  List.IsPrefix.trans first second

theorem append (bytes : Array UInt8) (more : Bytes) : IsFront bytes (bytes ++ more) := by
  unfold IsFront
  rw [Array.toList_appendList]
  exact List.prefix_append _ _

theorem size_le (front : IsFront bytes buffer) : bytes.size ≤ buffer.size := by
  simpa using List.IsPrefix.length_le front

end IsFront

/-- `bytes` stand in `buffer` from the address `base` on. -/
def IsInside (base : Nat) (bytes buffer : Array UInt8) : Prop :=
  ∃ before after : Bytes, before.length = base ∧ buffer.toList = before ++ bytes.toList ++ after

namespace IsInside

variable {base : Nat} {bytes buffer : Array UInt8}

theorem toList_drop (inside : IsInside base bytes buffer) :
    bytes.toList <+: buffer.toList.drop base := by
  obtain ⟨before, after, rfl, whole⟩ := inside
  rw [whole, List.append_assoc, List.drop_left]
  exact List.prefix_append _ _

theorem size_le (inside : IsInside base bytes buffer) : base + bytes.size ≤ buffer.size := by
  obtain ⟨before, after, rfl, whole⟩ := inside
  rw [← Array.length_toList, ← Array.length_toList, whole, List.length_append, List.length_append]
  exact Nat.le_add_right _ _

theorem getElem? (inside : IsInside base bytes buffer) {index : Nat}
    (within : index < bytes.size) : buffer[base + index]? = bytes[index]? := by
  obtain ⟨rest, whole⟩ := inside.toList_drop
  rw [← Array.getElem?_toList, ← Array.getElem?_toList, ← List.getElem?_drop, ← whole]
  exact List.getElem?_append_left (by simpa using within)

theorem extract (inside : IsInside base bytes buffer) {start stop : Nat}
    (within : stop ≤ bytes.size) :
    (buffer.extract (base + start) (base + stop)).toList = (bytes.extract start stop).toList := by
  obtain ⟨rest, whole⟩ := inside.toList_drop
  simp only [Array.toList_extract, List.extract_eq_take_drop, ← List.drop_drop, ← whole,
    Nat.add_sub_add_left]
  by_cases ordered : start ≤ stop
  · rw [List.drop_append_of_le_length (by simp; omega),
      List.take_append_of_le_length (by simp; omega)]
  · have nothing : stop - start = 0 := by omega
    simp [nothing]

end IsInside

theorem IsFront.inside {bytes buffer : Array UInt8} (front : IsFront bytes buffer) :
    IsInside 0 bytes buffer := by
  obtain ⟨rest, whole⟩ := front
  exact ⟨[], rest, rfl, whole.symm⟩

theorem IsFront.trans_inside {base : Nat} {bytes middle buffer : Array UInt8}
    (front : IsFront bytes middle) (inside : IsInside base middle buffer) :
    IsInside base bytes buffer := by
  obtain ⟨more, middle'⟩ := front
  obtain ⟨before, after, length, whole⟩ := inside
  exact ⟨before, more ++ after, length, by simp only [whole, ← middle', List.append_assoc]⟩

theorem size_appendList (bytes : Array UInt8) (more : Bytes) :
    (bytes ++ more).size = bytes.size + more.length := by
  rw [← Array.length_toList, Array.toList_appendList, List.length_append, Array.length_toList]

theorem wordAt?_inside {base address number : Nat} {bytes buffer : Array UInt8} {width : Width}
    (inside : IsInside base bytes buffer) (found : wordAt? bytes address width = some number) :
    wordAt? buffer (base + address) width = some number := by
  unfold wordAt? at found ⊢
  split at found
  · rename_i within
    have size := inside.size_le
    rw [if_pos (by omega), Nat.add_assoc, inside.extract within]
    exact found
  · contradiction

theorem wordAt?_front {bytes buffer : Array UInt8} {address number : Nat} {width : Width}
    (front : IsFront bytes buffer) (found : wordAt? bytes address width = some number) :
    wordAt? buffer address width = some number :=
  Nat.zero_add address ▸ wordAt?_inside front.inside found

/-- The first number that is too great for a word of the width. -/
def Width.limit (width : Width) : Nat := Nat.pow 256 width.bytes

theorem wordAt?_append (bytes : Array UInt8) (width : Width) (number : Nat)
    (fits : number < width.limit) :
    wordAt? (bytes ++ Bytes.littleEndian width.bytes number) bytes.size width = some number := by
  have stored : ((bytes ++ Bytes.littleEndian width.bytes number).extract bytes.size
      (bytes.size + width.bytes)).toList = Bytes.littleEndian width.bytes number := by
    rw [Array.toList_extract, List.extract_eq_take_drop, Array.toList_appendList,
      ← Array.length_toList, List.drop_left, Nat.add_sub_cancel_left]
    exact List.take_of_length_le (Nat.le_of_eq (Bytes.littleEndian_length _ _))
  unfold wordAt?
  rw [if_pos (by simp [size_appendList]), stored, Bytes.toNat_littleEndian fits]

namespace Width

@[simp]
theorem limit_one : one.limit = 256 := rfl

@[simp]
theorem limit_two : two.limit = 65536 := rfl

theorem word_of_short {number : Nat} (short : number < UInt32.size) : number < UInt64.size :=
  Nat.lt_trans short (by decide)

theorem bytes_pos (width : Width) : 0 < width.bytes := by cases width <;> decide

theorem bytes_le_of_code_le {left right : Width} (smaller : left.code ≤ right.code) :
    left.bytes ≤ right.bytes := by
  cases left <;> cases right <;> revert smaller <;> decide

theorem code_max (left right : Width) : (left.max right).code = Nat.max left.code right.code := by
  cases left <;> cases right <;> rfl

theorem max_eq_left {left right : Width} (smaller : right.code ≤ left.code) :
    left.max right = left := by
  cases left <;> cases right <;> revert smaller <;> decide

theorem ofBytes?_bytes (width : Width) : ofBytes? width.bytes = some width := by
  cases width <;> rfl

theorem limit_le_of_code_le {left right : Width} (smaller : left.code ≤ right.code) :
    left.limit ≤ right.limit :=
  Nat.pow_le_pow_right (by decide) (bytes_le_of_code_le smaller)

theorem lt_limit_ofNumber {number : Nat} (word : number < UInt64.size) :
    number < (ofNumber number).limit := by
  unfold ofNumber
  split
  · assumption
  · split
    · assumption
    · split
      · assumption
      · exact word

theorem lt_of_ofNumber_eq_one {number : Nat} (narrow : ofNumber number = .one) :
    number < 256 := by
  unfold ofNumber at narrow
  split at narrow
  · assumption
  · repeat (split at narrow <;> try contradiction)

theorem lt_of_ofNumber_eq_two {number : Nat} (narrow : ofNumber number = .two) :
    number < 65536 := by
  unfold ofNumber at narrow
  split at narrow
  · contradiction
  · split at narrow
    · assumption
    · split at narrow <;> contradiction

theorem ofNumber_fits {number : Nat} {width : Width} (word : number < UInt64.size)
    (wide : (ofNumber number).code ≤ width.code) : number < width.limit :=
  Nat.lt_of_lt_of_le (lt_limit_ofNumber word) (limit_le_of_code_le wide)

end Width

end ClaimStore.Flexbuffer
