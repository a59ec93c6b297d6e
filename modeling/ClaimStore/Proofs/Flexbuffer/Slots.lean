import ClaimStore.Proofs.Flexbuffer.Words

/-!
Slots and the trees that they stand for.

A slot means a tree if, once its word and its packed type stand in a buffer, a cursor on its place
reads that tree. Slots keep their meaning while the buffer grows, and wherever it is put.
-/
namespace ClaimStore.Flexbuffer

mutual

/-- The cursor stands on a value that reads as the tree. -/
def Cursor.Shows (cursor : Cursor) : Tree → Prop
  | .number value => cursor.number? = some value
  | .text value => cursor.text? = some value
  | .list items => cursor.vectorLength? = some items.length ∧ cursor.ShowsItems items.length items
  | .record fields =>
      ∃ cursors, cursor.fields? (fields.map Prod.fst) = some cursors ∧
        Cursor.ShowFields cursors fields

/-- The last elements of the vector of the given length read as the items. -/
def Cursor.ShowsItems (cursor : Cursor) (length : Nat) : List Tree → Prop
  | [] => True
  | item :: rest =>
      (cursor.element length (length - (rest.length + 1))).Shows item ∧
        cursor.ShowsItems length rest

/-- The cursors read as the values of the fields, one by one. -/
def Cursor.ShowFields : List Cursor → List (String × Tree) → Prop
  | [], [] => True
  | cursor :: cursors, (_, value) :: fields =>
      cursor.Shows value ∧ Cursor.ShowFields cursors fields
  | _, _ => False

end

namespace Kind

def isStored : Kind → Bool
  | .text | .vector | .map => true
  | _ => false

variable {kind : Kind}

theorem isInline_of_isStored (stored : kind.isStored = true) : kind.isInline = false := by
  cases kind <;> first | rfl | contradiction

theorem direct_of_isStored (stored : kind.isStored = true) : kind.direct = kind := by
  cases kind <;> first | rfl | contradiction

end Kind

theorem unpackType?_stored {kind : Kind} (stored : kind.isStored = true) (width : Width) :
    unpackType? (packType kind width) = some (kind, width) := by
  cases kind <;> try contradiction
  all_goals cases width <;> decide

theorem unpackType?_uint (width : Width) : unpackType? (packType .uint width) = some (.uint, width) := by
  cases width <;> decide

namespace Slot

/-- The slot stands for the tree in every buffer that holds `bytes`. -/
def Means (bytes : Array UInt8) (tree : Tree) : Slot → Prop
  | .number value => value < UInt64.size ∧ tree = .number (UInt64.ofNat value)
  | .reference kind child address =>
      kind.isStored = true ∧ address ≤ bytes.size ∧
        ∀ base buffer, IsInside base bytes buffer →
          Cursor.Shows { buffer, kind, width := child, address := base + address } tree

def Bounded (length : Nat) : Slot → Prop
  | .number value => value < UInt64.size
  | .reference _ _ address => address ≤ length

variable {slot : Slot} {bytes middle buffer : Array UInt8} {tree : Tree}
variable {length index base position : Nat} {width : Width}

theorem Means.grow (means : slot.Means bytes tree) (front : IsFront bytes middle) :
    slot.Means middle tree := by
  cases slot with
  | number value => exact means
  | reference kind child address =>
      obtain ⟨stored, behind, shows⟩ := means
      exact ⟨stored, Nat.le_trans behind front.size_le,
        fun base buffer more => shows base buffer (front.trans_inside more)⟩

theorem Means.bounded (means : slot.Means bytes tree) : slot.Bounded bytes.size := by
  cases slot with
  | number value => exact means.1
  | reference kind child address => exact means.2.1

/-- A cursor on the place of a slot reads the tree that the slot stands for. -/
theorem Means.read (means : slot.Means bytes tree) (inside : IsInside base bytes buffer)
    (behind : bytes.size ≤ position) (wide : (slot.widthAt length index).code ≤ width.code)
    (placed : wordAt? buffer (base + position) width = some (slot.word position)) :
    ∃ kind child cursor, unpackType? (slot.packed width) = some (kind, child) ∧
      Cursor.ofPlace? buffer (base + position) kind child width = some cursor ∧
        cursor.Shows tree := by
  cases slot with
  | number value =>
      obtain ⟨word, rfl⟩ := means
      have own : width.max (Width.ofNumber value) = width := Width.max_eq_left wide
      refine ⟨.uint, width, { buffer, kind := .uint, width, address := base + position }, ?_, rfl,
        ?_⟩
      · rw [packed, own, unpackType?_uint]
      · simp only [Cursor.Shows, Cursor.number?, placed, Slot.word, Option.getD_some]
  | reference kind child address =>
      obtain ⟨stored, before, shows⟩ := means
      refine ⟨kind, child, { buffer, kind, width := child, address := base + address }, ?_, ?_,
        shows base buffer inside⟩
      · rw [packed, unpackType?_stored stored]
      · have distance : position - address ≤ base + position := by omega
        have back : base + position - (position - address) = base + address := by omega
        simp [Cursor.ofPlace?, Kind.isInline_of_isStored stored, Kind.direct_of_isStored stored,
          follow?, placed, Slot.word, distance, back]

/-- The width that a reference asks for, if not the greatest, is what its distance needs when that is
estimated with the step of the width. -/
theorem widthAt_reference {kind : Kind} {child : Width} {address : Nat}
    (asked : (reference kind child address).widthAt length index = width)
    (narrow : width ≠ .eight) :
    ∃ step, (step, width) ∈ distanceSteps ∧
      Width.ofNumber (length + padding length step + index * step - address) = width := by
  simp only [widthAt] at asked
  split at asked
  · rename_i step found search
    subst asked
    exact ⟨step, List.mem_of_find?_eq_some search, of_decide_eq_true (List.find?_some search :)⟩
  · exact absurd asked.symm narrow

theorem widthAt_reference_one {kind : Kind} {child : Width} {address : Nat}
    (asked : (reference kind child address).widthAt length index = .one) :
    length + padding length 1 + index * 1 - address < 256 := by
  obtain ⟨step, tried, needed⟩ := widthAt_reference asked (by decide)
  have one : step = 1 := by simpa [distanceSteps] using tried
  subst one
  exact Width.lt_of_ofNumber_eq_one needed

theorem widthAt_reference_two {kind : Kind} {child : Width} {address : Nat}
    (asked : (reference kind child address).widthAt length index = .two) :
    length + padding length 2 + index * 2 - address < 65536 := by
  obtain ⟨step, tried, needed⟩ := widthAt_reference asked (by decide)
  have two : step = 2 := by simpa [distanceSteps] using tried
  subst two
  exact Width.lt_of_ofNumber_eq_two needed

/-- The word of a slot fits into its place if the vector is as wide as the slot needs. The
estimated distance is exact for the narrow widths, and a wider place is always wide enough. -/
theorem Bounded.word_fits (bounded : slot.Bounded length)
    (wide : (slot.widthAt length index).code ≤ width.code)
    (short : length + padding length width.bytes + index * width.bytes < UInt32.size) :
    slot.word (length + padding length width.bytes + index * width.bytes) <
      width.limit := by
  cases slot with
  | number value => exact Width.ofNumber_fits bounded wide
  | reference kind child address =>
      have unpadded : padding length 1 = 0 := by simp [padding, Nat.mod_one]
      have padded : padding length 2 < 2 := Nat.mod_lt _ (by decide)
      cases width with
      | one =>
          have narrow : (reference kind child address).widthAt length index = .one := by
            cases needed : (reference kind child address).widthAt length index <;>
              simp_all [Width.code]
          simpa [Slot.word, Width.bytes] using widthAt_reference_one narrow
      | two =>
          simp only [Slot.word, Width.bytes, Width.limit_two]
          cases needed : (reference kind child address).widthAt length index with
          | one =>
              have estimate := widthAt_reference_one needed
              have behind : address ≤ length := bounded
              omega
          | two => exact widthAt_reference_two needed
          | four => simp [needed, Width.code] at wide
          | eight => simp [needed, Width.code] at wide
      | four => exact Nat.lt_of_le_of_lt (Nat.sub_le _ _) short
      | eight => exact Width.word_of_short (Nat.lt_of_le_of_lt (Nat.sub_le _ _) short)

end Slot

end ClaimStore.Flexbuffer
