import ClaimStore.Version
import Mathlib.Data.List.Chain
import Mathlib.Data.List.Nodup

/-!
Versions that follow each other.

The valid versions form a cycle, so a chain of them repeats none until it has gone all the way round.
-/
namespace ClaimStore.Version

/-- The number of valid versions. -/
def cycle : Nat := UInt32.size - 1

/-- The place of a valid version in the cycle. -/
def place (version : Version) : Nat := version.val.toNat - 1

theorem toNat_pos {version : Version} (valid : version.isValid = true) : 0 < version.val.toNat := by
  refine Nat.pos_of_ne_zero ?_
  intro zero
  have same : version = .invalid := by
    cases version
    exact congrArg Version.mk (UInt32.toNat_inj.mp zero)
  simp [isValid, same] at valid

theorem place_next {version : Version} (valid : version.isValid = true) :
    version.next.place = (version.place + 1) % cycle := by
  have positive := toNat_pos valid
  have bound := version.val.toNat_lt
  unfold next place cycle
  split
  · rename_i last
    rw [last]
    decide
  · rename_i below
    have less : version.val.toNat ≠ 4294967295 := fun same => below (UInt32.toNat_inj.mp same)
    have step : (version.val + 1).toNat = version.val.toNat + 1 := by
      rw [UInt32.toNat_add]
      exact Nat.mod_eq_of_lt (by simp only [UInt32.reduceToNat]; omega)
    rw [step]
    simp only [UInt32.size]
    omega

/-- In a chain every version tells how far it is from the first one. -/
theorem place_chain {versions : List Version} {first : Version}
    (chain : (first :: versions).IsChain fun version next => next = version.next)
    (valid : first.isValid = true) {index : Nat} {version : Version}
    (found : (first :: versions)[index]? = some version) :
    version.place % cycle = (first.place + index) % cycle := by
  induction versions generalizing first index with
  | nil =>
      cases index with
      | zero =>
          cases found
          rfl
      | succ index => contradiction
  | cons second rest ih =>
      cases index with
      | zero =>
          cases found
          rfl
      | succ index =>
          obtain ⟨rfl, chain⟩ := List.isChain_cons_cons.mp chain
          have later := ih chain first.next_isValid found
          rw [later, place_next valid, Nat.mod_add_mod]
          congr 1
          omega

/-- A chain that does not go all the way round repeats no version. -/
theorem nodup_of_chain {versions : List Version}
    (chain : versions.IsChain fun version next => next = version.next)
    (valid : ∀ version ∈ versions, version.isValid = true) (short : versions.length ≤ cycle) :
    versions.Nodup := by
  cases versions with
  | nil => exact List.nodup_nil
  | cons first rest =>
      rw [List.nodup_iff_getElem?_ne_getElem?]
      intro left right before within same
      obtain ⟨version, found⟩ : ∃ version, (first :: rest)[right]? = some version :=
        ⟨_, List.getElem?_eq_getElem within⟩
      have start := valid first List.mem_cons_self
      have early := place_chain chain start (same.trans found)
      have late := place_chain chain start found
      have apart : (first.place + left) % cycle ≠ (first.place + right) % cycle := by
        have size : cycle = 4294967295 := rfl
        rw [size] at short ⊢
        omega
      exact apart (early.symm.trans late)

theorem next_ne (version : Version) : version.next ≠ version := by
  intro same
  have valid : version.isValid = true := same ▸ version.next_isValid
  have step := place_next valid
  have size : cycle = 4294967295 := rfl
  rw [same, size] at step
  have positive := toNat_pos valid
  have bound := version.val.toNat_lt
  unfold place at step
  omega

end ClaimStore.Version
