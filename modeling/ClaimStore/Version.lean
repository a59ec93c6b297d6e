/-!
Versions of stored records.

A stored record has a version of at least one and every update moves it to the next one. Version
zero is never stored, so a writer that does not know the stored version uses it and is refused.
-/
namespace ClaimStore

/-- The version of a record, a 32-bit word. -/
structure Version where
  val : UInt32
  deriving DecidableEq, Inhabited

namespace Version

/-- The version that no stored record has. -/
def invalid : Version := ⟨0⟩

def first : Version := ⟨1⟩

def isValid (version : Version) : Bool := version ≠ invalid

/-- The version after this one. The greatest word is followed by `first`, so `invalid` is never
reached. -/
def next (version : Version) : Version :=
  if version.val = 0xFFFFFFFF then first else ⟨version.val + 1⟩

def text (version : Version) : String :=
  if version.isValid then s!"v{version.val.toNat}" else "v<invalid>"

instance : Ord Version := ⟨fun left right => compare left.val right.val⟩

theorem next_isValid (version : Version) : version.next.isValid = true := by
  unfold next
  split
  · rfl
  · rename_i below
    have step : version.val + 1 ≠ 0 := by
      intro zero
      apply below
      apply UInt32.toNat_inj.mp
      have := congrArg UInt32.toNat zero
      have bound := version.val.toNat_lt
      simp only [UInt32.toNat_add, UInt32.reduceToNat] at *
      omega
    simp [isValid, invalid, step]

end Version

end ClaimStore
