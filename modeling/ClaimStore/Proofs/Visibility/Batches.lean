import ClaimStore.Proofs.Visibility.Courses

/-!
What becomes visible of a batch.

A batch is taken at one moment and its end is shown from another one on. As long as it is in hand,
the snapshot is the one before it. The requests are answered while the end of their batch is shown.
-/
namespace ClaimStore

namespace Course

/-- At this moment the worker takes a batch. -/
def Takes (course : Course) (taken : Taken) (time : Nat) : Prop :=
  (course.desk (time + 1)).log.batches = (course.desk time).log.batches ++ [taken]

/-- At this moment the store accepts a batch: the whole of it, in place of the version before it. -/
structure Accepts (course : Course) (taken : Taken) (time : Nat) : Prop where
  expected : (course.stored? time taken.before.key).map Record.version = some taken.before.version
  written : ∃ record, course.stored? (time + 1) taken.before.key = some record ∧
    record.Holds ⟨taken.before.version.next, taken.before.key, taken.batch.candidate⟩ ∧
    record.value = Storage.poolFormat.encode taken.batch.candidate

/-- At this moment the worker empties the cache. -/
structure Empties (course : Course) (time : Nat) : Prop where
  work : course.acts time = .desk .work
  emptied : (course.cache (time + 1)).tokens = .empty
  counted : (course.cache (time + 1)).invalidations = (course.cache time).invalidations + 1

/-- The store holds another version than the one before a batch, at some moment after the batch was
taken, and the snapshot tells what it holds. -/
def Meets (course : Course) (taken : Taken) (begun now : Nat) (snapshot : Snapshot) : Prop :=
  ∃ time record, begun < time ∧ time < now ∧
    course.stored? time taken.before.key = some record ∧ record.version ≠ taken.before.version ∧
    snapshot.key = taken.before.key ∧ record.Holds snapshot

/-- What had happened to a batch before its end was shown, and what is shown then. -/
inductive Ends (course : Course) (taken : Taken) (begun shown : Nat) : Bool → Prop
  | committed (accepted : Nat) (after : begun < accepted) (before : accepted < shown)
      (accepts : course.Accepts taken accepted)
      (shows : course.snapshot shown =
        ⟨taken.before.version.next, taken.before.key, taken.batch.candidate⟩) :
      Ends course taken begun shown true
  | rolledBack (emptied : Nat) (after : begun < emptied) (before : emptied < shown)
      (empties : course.Empties emptied)
      (shows : course.snapshot shown = ⟨.invalid, taken.before.key, taken.before.state⟩ ∨
        course.Meets taken begun shown (course.snapshot shown)) : Ends course taken begun shown false

/-- A batch was taken at one moment, and its end is shown from another one on. In between the
snapshot is the one before the batch. -/
structure Past (course : Course) (taken : Taken) (begun shown : Nat) (isCommitted : Bool) :
    Prop where
  takes : course.Takes taken begun
  hidden : ∀ time, begun ≤ time → time < shown → course.snapshot time = taken.before
  ends : course.Ends taken begun shown isCommitted

/-- The snapshot is the same from one moment to another. -/
def Stays (course : Course) (first last : Nat) : Prop :=
  ∀ time, first ≤ time → time ≤ last → course.snapshot time = course.snapshot first

/-- At the moment `told` a request is told how its batch has ended. This is what is shown then. -/
structure Resolved (course : Course) (taken : Taken) (begun shown told id : Nat)
    (isCommitted : Bool) : Prop where
  own : id ∈ taken.batch.pending
  past : course.Past taken begun shown isCommitted
  late : shown ≤ told
  stays : course.Stays shown (told + 1)
  silent : id ∉ (course.answers told).map Prod.fst
  told : (id, .ofCommit isCommitted) ∈ course.answers (told + 1)

/-- What makes a conclusion right. -/
def Reached (course : Course) (taken : Taken) (begun now : Nat) : Conclusion → Prop
  | .committed snapshot =>
      snapshot = taken.batch.committed ∧
        ∃ accepted, begun < accepted ∧ accepted < now ∧ course.Accepts taken accepted
  | .conflict snapshot => course.Meets taken begun now snapshot
  | .storeFailure snapshot => snapshot = taken.before.forgetVersion

/-- How far the worker has come with a batch whose end is not shown yet. -/
def Stands (course : Course) (taken : Taken) (begun now : Nat) : Phase → Prop
  | .applying batch rest =>
      ∃ done, taken.requests = done ++ rest ∧ batch = taken.after done
  | .awaiting batch change _ =>
      batch = taken.batch ∧ (∃ sent, change = taken.batch.change sent) ∧
        Storage.poolFormat.isStorable taken.batch.candidate = true ∧
        ∀ reply, (course.stage now).reply? = some reply →
          course.Reached taken begun now (taken.batch.conclude reply)
  | .concluding batch conclusion =>
      batch = taken.batch ∧ course.Reached taken begun now conclusion
  | .adopting batch conclusion =>
      batch = taken.batch ∧ course.Reached taken begun now conclusion ∧
        (conclusion.isCommitted = false →
          ∃ emptied, begun < emptied ∧ emptied < now ∧ course.Empties emptied)
  | .died => True
  | .idle | .taking | .resolving _ _ | .stopped => False

structure InHand (course : Course) (taken : Taken) (begun now : Nat) : Prop where
  early : begun < now
  takes : course.Takes taken begun
  hidden : ∀ time, begun ≤ time → time ≤ now → course.snapshot time = taken.before
  stands : course.Stands taken begun now (course.phase now)

/-- All that is shown and told up to some moment has come about in order. -/
structure Kept (course : Course) (now : Nat) : Prop where
  heard : (∀ batch change delay, course.phase now ≠ .awaiting batch change delay) →
    (course.stage now).reply? = none
  inHand : (course.phase now).isPending = true → ∃ taken begun, course.InHand taken begun now
  resolving : ∀ answer pending, course.phase now = .resolving answer pending →
    ∃ taken begun shown isCommitted, course.Past taken begun shown isCommitted ∧ shown ≤ now ∧
      course.Stays shown now ∧ answer = .ofCommit isCommitted ∧ pending ⊆ taken.batch.pending
  taken : ∀ taken begun, begun < now → course.Takes taken begun →
    course.InHand taken begun now ∨
      ∃ shown isCommitted, shown ≤ now ∧ course.Past taken begun shown isCommitted
  shown : course.Stays 0 now ∨ ∃ taken begun shown isCommitted,
    course.Past taken begun shown isCommitted ∧ shown ≤ now ∧ course.Stays shown now
  resolved : ∀ id isCommitted, (id, .ofCommit isCommitted) ∈ course.answers now →
    ∃ taken begun shown told, told < now ∧
      course.Resolved taken begun shown told id isCommitted

variable {course : Course} {taken : Taken} {begun now : Nat}

theorem Stays.next {first : Nat} (stays : course.Stays first now)
    (same : course.snapshot (now + 1) = course.snapshot now) : course.Stays first (now + 1) := by
  intro time early late
  rcases Nat.lt_or_eq_of_le late with before | rfl
  · exact stays time early (Nat.le_of_lt_succ before)
  · rcases Nat.lt_or_eq_of_le early with before | rfl
    · exact same.trans (stays now (Nat.le_of_lt_succ before) (Nat.le_refl now))
    · rfl

theorem Reached.next {conclusion : Conclusion}
    (reached : course.Reached taken begun now conclusion) :
    course.Reached taken begun (now + 1) conclusion := by
  cases conclusion with
  | committed snapshot =>
      obtain ⟨own, accepted, after, before, accepts⟩ := reached
      exact ⟨own, accepted, after, Nat.lt_succ_of_lt before, accepts⟩
  | conflict snapshot =>
      obtain ⟨time, record, after, before, holds⟩ := reached
      exact ⟨time, record, after, Nat.lt_succ_of_lt before, holds⟩
  | storeFailure snapshot => exact reached

theorem Reached.ends {conclusion : Conclusion}
    (reached : course.Reached taken begun now conclusion)
    (emptied : conclusion.isCommitted = false →
      ∃ time, begun < time ∧ time < now ∧ course.Empties time)
    (shows : course.snapshot now = conclusion.snapshot) :
    course.Ends taken begun now conclusion.isCommitted := by
  cases conclusion with
  | committed snapshot =>
      obtain ⟨own, accepted, after, before, accepts⟩ := reached
      exact .committed accepted after before accepts (shows.trans own)
  | conflict snapshot =>
      obtain ⟨time, after, before, empties⟩ := emptied rfl
      exact .rolledBack time after before empties (.inr (shows ▸ reached))
  | storeFailure snapshot =>
      obtain ⟨time, after, before, empties⟩ := emptied rfl
      exact .rolledBack time after before empties (.inl (shows.trans reached))

theorem Stands.next {phase : Phase} (stands : course.Stands taken begun now phase)
    (same : (course.stage (now + 1)).reply? = (course.stage now).reply?) :
    course.Stands taken begun (now + 1) phase := by
  cases phase with
  | awaiting batch change delay =>
      obtain ⟨own, sent, storable, replied⟩ := stands
      exact ⟨own, sent, storable, fun reply given => (replied reply (same ▸ given)).next⟩
  | concluding batch conclusion => exact ⟨stands.1, stands.2.next⟩
  | adopting batch conclusion =>
      obtain ⟨own, reached, emptied⟩ := stands
      refine ⟨own, reached.next, fun rolledBack => ?_⟩
      obtain ⟨time, after, before, empties⟩ := emptied rolledBack
      exact ⟨time, after, Nat.lt_succ_of_lt before, empties⟩
  | applying | died | idle | taking | resolving | stopped => exact stands

theorem InHand.next (inHand : course.InHand taken begun now)
    (same : course.snapshot (now + 1) = course.snapshot now)
    (stands : course.Stands taken begun (now + 1) (course.phase (now + 1))) :
    course.InHand taken begun (now + 1) := by
  refine ⟨Nat.lt_succ_of_lt inHand.early, inHand.takes, ?_, stands⟩
  intro time early late
  rcases Nat.lt_or_eq_of_le late with before | rfl
  · exact inHand.hidden time early (Nat.le_of_lt_succ before)
  · exact same.trans (inHand.hidden now (Nat.le_of_lt inHand.early) (Nat.le_refl now))

theorem Kept.shown_next (kept : course.Kept now)
    (same : course.snapshot (now + 1) = course.snapshot now) :
    course.Stays 0 (now + 1) ∨ ∃ taken begun shown isCommitted,
      course.Past taken begun shown isCommitted ∧ shown ≤ now + 1 ∧ course.Stays shown (now + 1) := by
  rcases kept.shown with first | ⟨taken, begun, shown, isCommitted, past, late, stays⟩
  · exact .inl (first.next same)
  · exact .inr ⟨taken, begun, shown, isCommitted, past, Nat.le_succ_of_le late, stays.next same⟩

theorem Kept.resolved_next (kept : course.Kept now) {id : Nat} {isCommitted : Bool}
    (given : (id, .ofCommit isCommitted) ∈ course.answers now) :
    ∃ taken begun shown told, told < now + 1 ∧
      course.Resolved taken begun shown told id isCommitted := by
  obtain ⟨taken, begun, shown, told, before, resolved⟩ := kept.resolved id isCommitted given
  exact ⟨taken, begun, shown, told, Nat.lt_succ_of_lt before, resolved⟩

/-- What the worker does between taking a batch and showing its end, and while it answers the
requests. -/
theorem Kept.next (kept : course.Kept now)
    (heard : (∀ batch change delay, course.phase (now + 1) ≠ .awaiting batch change delay) →
      (course.stage (now + 1)).reply? = none)
    (batches : (course.desk (now + 1)).log.batches = (course.desk now).log.batches)
    (same : course.snapshot (now + 1) = course.snapshot now)
    (pending : (course.phase (now + 1)).isPending = true → (course.phase now).isPending = true)
    (stands : ∀ taken begun, course.InHand taken begun now →
      course.Stands taken begun (now + 1) (course.phase (now + 1)))
    (resolving : ∀ answer pending, course.phase (now + 1) = .resolving answer pending →
      ∃ more, course.phase now = .resolving answer more ∧ pending ⊆ more)
    (told : ∀ id isCommitted, (id, .ofCommit isCommitted) ∈ course.answers (now + 1) →
      (id, .ofCommit isCommitted) ∈ course.answers now ∨
        ∃ pending, course.phase now = .resolving (.ofCommit isCommitted) pending ∧ id ∈ pending) :
    course.Kept (now + 1) := by
  have advance : ∀ {taken begun}, course.InHand taken begun now →
      course.InHand taken begun (now + 1) :=
    fun inHand => inHand.next same (stands _ _ inHand)
  refine ⟨heard, ?_, ?_, ?_, kept.shown_next same, ?_⟩
  · intro onward
    obtain ⟨taken, begun, inHand⟩ := kept.inHand (pending onward)
    exact ⟨taken, begun, advance inHand⟩
  · intro answer rest here
    obtain ⟨more, before, fewer⟩ := resolving answer rest here
    obtain ⟨taken, begun, shown, isCommitted, past, late, stays, own, within⟩ :=
      kept.resolving answer more before
    exact ⟨taken, begun, shown, isCommitted, past, Nat.le_succ_of_le late, stays.next same, own,
      List.Subset.trans fewer within⟩
  · intro taken begun early takes
    rcases Nat.lt_or_eq_of_le (Nat.le_of_lt_succ early) with before | rfl
    · rcases kept.taken taken begun before takes with inHand | ⟨shown, isCommitted, late, past⟩
      · exact .inl (advance inHand)
      · exact .inr ⟨shown, isCommitted, Nat.le_succ_of_le late, past⟩
    · rw [Takes, batches] at takes
      simp at takes
  · intro id isCommitted given
    rcases told id isCommitted given with early | ⟨rest, here, member⟩
    · exact kept.resolved_next early
    · obtain ⟨taken, begun, shown, verdict, past, late, stays, own, within⟩ :=
        kept.resolving _ rest here
      have verdict : isCommitted = verdict := by
        cases isCommitted <;> cases verdict <;> first | rfl | cases own
      subst verdict
      have held : id ∈ (course.desk now).store.held := by
        rw [PoolStore.held_eq, PoolStore.inHand, show (course.desk now).store.phase = _ from here]
        exact List.mem_append_left _ member
      have silent : id ∉ (course.answers now).map Prod.fst :=
        fun answered => (course.accounts_at now).apart.2.2 id answered held
      exact ⟨taken, begun, shown, now, Nat.lt_succ_self now, within member, past, late,
        stays.next same, silent, given⟩

theorem Kept.aside (kept : course.Kept now)
    (phase : course.phase (now + 1) = course.phase now)
    (same : course.snapshot (now + 1) = course.snapshot now)
    (batches : (course.desk (now + 1)).log.batches = (course.desk now).log.batches)
    (reply : (course.stage (now + 1)).reply? = (course.stage now).reply?)
    (told : ∀ id isCommitted, (id, .ofCommit isCommitted) ∈ course.answers (now + 1) →
      (id, .ofCommit isCommitted) ∈ course.answers now) : course.Kept (now + 1) := by
  apply kept.next _ batches same
  · rw [phase]
    exact id
  · intro taken begun inHand
    rw [phase]
    exact inHand.stands.next reply
  · intro answer pending here
    exact ⟨pending, phase ▸ here, List.Subset.refl _⟩
  · exact fun id isCommitted given => .inl (told id isCommitted given)
  · rw [phase, reply]
    exact kept.heard

end Course

end ClaimStore
