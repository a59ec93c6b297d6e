/-!
Byte sequences: little-endian words and UTF-8 text.
-/
namespace ClaimStore

abbrev Bytes := List UInt8

namespace Bytes

/-- The lowest `width` bytes of a number, lowest first. -/
def littleEndian : (width : Nat) → Nat → Bytes
  | 0, _ => []
  | width + 1, number => UInt8.ofNat (number % 256) :: littleEndian width (number / 256)

def toNat : Bytes → Nat
  | [] => 0
  | byte :: rest => byte.toNat + 256 * toNat rest

def ofText (text : String) : Bytes := text.toUTF8.data.toList

def toText? (bytes : Bytes) : Option String := String.fromUTF8? (ByteArray.mk bytes.toArray)

@[simp]
theorem littleEndian_length (width number : Nat) : (littleEndian width number).length = width := by
  induction width generalizing number with
  | zero => rfl
  | succ width ih => simp [littleEndian, ih]

theorem toNat_littleEndian {width number : Nat} (fits : number < Nat.pow 256 width) :
    toNat (littleEndian width number) = number := by
  induction width generalizing number with
  | zero =>
      have none : number = 0 := Nat.lt_one_iff.mp fits
      simp [littleEndian, toNat, none]
  | succ width ih =>
      have rest : number / 256 < Nat.pow 256 width := by
        rw [Nat.div_lt_iff_lt_mul (by decide)]
        exact fits
      have low : (UInt8.ofNat (number % 256)).toNat = number % 256 := by
        simp [UInt8.toNat_ofNat']
      simp only [littleEndian, toNat, ih rest, low]
      omega

theorem toText?_ofText (text : String) : toText? (ofText text) = some text := by
  have whole : ByteArray.mk (ofText text).toArray = text.toByteArray := by
    simp [ofText]
  unfold toText? String.fromUTF8?
  rw [whole, dif_pos text.isValidUTF8]
  rfl

end Bytes

end ClaimStore
