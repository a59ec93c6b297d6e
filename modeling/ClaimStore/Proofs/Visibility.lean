import ClaimStore.Proofs.Visibility.Steps

/-!
In which order the end of a batch becomes visible.

The store has accepted a batch before its state is shown, and the cache has been emptied before
anything is shown that a rollback leads to. Until then the snapshot is the one before the batch, and
only then the requests are answered.
-/
namespace ClaimStore

namespace Course

variable {course : Course} {taken : Taken} {begun : Nat}

theorem Ends.counted {shown : Nat} (ends : course.Ends taken begun shown false) :
    (course.cache begun).invalidations < (course.cache shown).invalidations := by
  cases ends with
  | rolledBack emptied after before empties shows =>
      have earlier := course.invalidations_mono (Nat.le_of_lt after)
      have later := course.invalidations_mono (Nat.succ_le_of_lt before)
      rw [Nat.succ_eq_add_one, empties.counted] at later
      exact Nat.lt_of_le_of_lt earlier (Nat.lt_of_succ_le later)

/-- Whoever is told that a batch has been committed was told so while its state was shown at the new
version, after the store had accepted it. Whoever is told of a rollback, or is shown what it led to,
comes after the cache was emptied. Nothing else of a batch is ever shown. -/
theorem visible_in_order (course : Course) (now : Nat) :
    (∀ id isCommitted, (id, .ofCommit isCommitted) ∈ course.answers now →
      ∃ taken begun shown told, told < now ∧
        course.Resolved taken begun shown told id isCommitted) ∧
    (course.Stays 0 now ∨ ∃ taken begun shown isCommitted,
      course.Past taken begun shown isCommitted ∧ shown ≤ now ∧ course.Stays shown now) ∧
    (∀ taken begun, begun < now → course.Takes taken begun →
      (∀ time, begun ≤ time → time ≤ now → course.snapshot time = taken.before) ∨
        ∃ shown isCommitted, shown ≤ now ∧ course.Past taken begun shown isCommitted) ∧
    (∀ taken begun shown, course.Past taken begun shown false → shown ≤ now →
      (course.cache begun).invalidations < (course.cache now).invalidations) := by
  have kept := course.kept_at now
  refine ⟨kept.resolved, kept.shown, ?_, ?_⟩
  · intro taken begun early takes
    exact (kept.taken taken begun early takes).imp_left InHand.hidden
  · intro taken begun shown past late
    exact Nat.lt_of_lt_of_le past.ends.counted (course.invalidations_mono late)

/-- The first batch is committed, the second one is rolled back after an error, while somebody fills
the cache. -/
def sampleActs : List StageAct :=
  [StageAct.desk (.push (.ofTransition (.deposit 5))), .desk .notify] ++
  List.replicate 4 (StageAct.desk .work) ++ [StageAct.carryOut, .hear] ++
  List.replicate 4 (StageAct.desk .work) ++ [StageAct.desk (.push (.ofTransition (.deposit 7)))] ++
  List.replicate 3 (StageAct.desk .work) ++
  [StageAct.cache (.add ⟨"token"⟩ 5), .fail (.internal "lost")] ++
  List.replicate 3 (StageAct.desk .work)

theorem sampleActs_others (time : Nat) (client : Client) (clock : Option Timestamp) :
    (sampleActs[time]?).getD .hear ≠ .others client clock := by
  have own : ∀ act ∈ sampleActs, act ≠ .others client clock := by simp [sampleActs]
  cases found : sampleActs[time]? with
  | none => simp
  | some act => exact own act (List.mem_of_getElem? found)

def sample : Course where
  batchSize := 2
  first := Desk.sampleStart
  around := Desk.sampleAround
  acts time := (sampleActs[time]?).getD .hear
  unanswered := rfl
  faithful := by
    refine ⟨rfl, ?_⟩
    intro key record found
    change (Table.empty.insert _ _).find? key = some record at found
    rw [Table.find?_insert] at found
    split at found
    · rename_i own
      cases found
      exact own.symm
    · cases found
  others time client clock acted := absurd acted (sampleActs_others time client clock)

theorem visible_in_order_both :
    (0, .committed) ∈ sample.answers 21 ∧ (1, .rolledBack) ∈ sample.answers 21 ∧
      (∃ taken begun shown told, told < 21 ∧ sample.Resolved taken begun shown told 0 true) ∧
      (∃ taken begun shown told, told < 21 ∧ sample.Resolved taken begun shown told 1 false) := by
  have facts : (0, .committed) ∈ sample.answers 21 ∧ (1, .rolledBack) ∈ sample.answers 21 := by
    decide +kernel
  obtain ⟨first, second⟩ := facts
  obtain ⟨told, -⟩ := sample.visible_in_order 21
  exact ⟨first, second, told 0 true first, told 1 false second⟩

end Course

end ClaimStore
