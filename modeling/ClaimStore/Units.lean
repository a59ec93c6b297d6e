/-!
Amounts of units: 64-bit words, added with a check or with saturation.
-/
namespace ClaimStore.Units

/-- The sum of two amounts, if it is an amount. -/
def add? (left right : UInt64) : Option UInt64 :=
  if left.toNat + right.toNat < UInt64.size then some (left + right) else none

/-- The sum of two amounts, or the greatest amount if the sum is beyond it. -/
def addSaturating (left right : UInt64) : UInt64 :=
  if left.toNat + right.toNat < UInt64.size then left + right else 0xFFFFFFFFFFFFFFFF

def total (amounts : List UInt64) : UInt64 := amounts.foldl addSaturating 0

theorem add?_toNat {left right sum : UInt64} (added : add? left right = some sum) :
    sum.toNat = left.toNat + right.toNat := by
  unfold add? at added
  split at added
  · rename_i fits
    cases added
    rw [UInt64.toNat_add]
    exact Nat.mod_eq_of_lt fits
  · contradiction

theorem addSaturating_toNat (left right : UInt64) :
    (addSaturating left right).toNat = min (left.toNat + right.toNat) (UInt64.size - 1) := by
  unfold addSaturating
  split
  · rename_i fits
    rw [UInt64.toNat_add, Nat.mod_eq_of_lt fits]
    omega
  · rename_i beyond
    change UInt64.size - 1 = _
    omega

end ClaimStore.Units
