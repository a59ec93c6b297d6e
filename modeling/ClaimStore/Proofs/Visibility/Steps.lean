import ClaimStore.Proofs.Visibility.Batches

/-!
How the end of a batch becomes visible, step by step.
-/
namespace ClaimStore

theorem Phase.isWorking_of_isPending {phase : Phase} (pending : phase.isPending = true) :
    phase.isWorking = true := by
  cases phase with
  | applying | awaiting | concluding | adopting => rfl
  | idle | taking | resolving | stopped | died => cases pending

theorem Log.note_of_idle (log : Log) (store : PoolStore) {next : PoolStore}
    (idle : next.phase.isWorking = false) : log.note store next = log := by
  unfold note
  split
  · rename_i applying
    rw [applying] at idle
    cases idle
  · rfl

namespace Course

variable {course : Course} {taken : Taken} {begun now : Nat}

/-- Only a worker that has died keeps a batch that it does not go on with. -/
theorem InHand.absent (inHand : course.InHand taken begun now)
    (rests : (course.phase now).isPending = false) : course.phase now = .died := by
  have stands := inHand.stands
  generalize course.phase now = phase at stands rests ⊢
  cases phase with
  | died => rfl
  | idle | taking | resolving | stopped => exact stands.elim
  | applying | awaiting | concluding | adopting => cases rests

section Work

variable {store : PoolStore} {around : Surroundings}

/-- What a step of the worker has to show for itself, unless it takes a batch or shows the end of
one. -/
theorem Kept.work (kept : course.Kept now)
    (worked : course.stage (now + 1) = (course.stage now).update store around)
    (busy : ∀ batch change delay, course.phase now ≠ .awaiting batch change delay)
    (log : (course.desk now).log.note (course.desk now).store store = (course.desk now).log)
    (same : store.snapshot = course.snapshot now)
    (pending : store.phase.isPending = true → (course.phase now).isPending = true)
    (stands : ∀ taken begun, course.InHand taken begun now →
      course.Stands taken begun (now + 1) store.phase)
    (resolving : ∀ answer pending, store.phase = .resolving answer pending →
      ∃ more, course.phase now = .resolving answer more ∧ pending ⊆ more)
    (told : ∃ more, around.answers = course.answers now ++ more ∧
      ∀ id isCommitted, (id, .ofCommit isCommitted) ∈ more →
        ∃ pending, course.phase now = .resolving (.ofCommit isCommitted) pending ∧ id ∈ pending) :
    course.Kept (now + 1) := by
  have desk : course.desk (now + 1) = (course.desk now).update (some (store, around)) :=
    congrArg Stage.desk worked
  have phase : course.phase (now + 1) = store.phase := by rw [Course.phase, desk]; rfl
  have reply : (course.stage (now + 1)).reply? = (course.stage now).reply? := by rw [worked]; rfl
  apply kept.next
  · intro _
    exact reply.trans (kept.heard busy)
  · rw [desk]
    exact congrArg Log.batches log
  · rw [snapshot, desk]
    exact same
  · rw [phase]
    exact pending
  · intro taken begun inHand
    rw [phase]
    exact stands taken begun inHand
  · intro answer pending here
    exact resolving answer pending (phase ▸ here)
  · obtain ⟨more, whole, own⟩ := told
    intro id isCommitted given
    have given : (id, .ofCommit isCommitted) ∈ around.answers := by
      rw [answers, desk] at given
      exact given
    rw [whole] at given
    exact (List.mem_append.mp given).imp_right (own id isCommitted)

/-- The next batch is in hand, and its requests see the snapshot that is shown. -/
theorem Kept.take (kept : course.Kept now) {requests waiting : List Request}
    (worked : course.stage (now + 1) = (course.stage now).update
      { (course.desk now).store with
        queue := { (course.desk now).store.queue with waiting }
        phase := .applying (.start (course.desk now).store.snapshot) requests }
      ((course.desk now).around.countBatch requests.length))
    (taking : course.phase now = .taking) : course.Kept (now + 1) := by
  have desk := congrArg Stage.desk worked
  have phase : course.phase (now + 1) = .applying (.start (course.snapshot now)) requests := by
    rw [Course.phase, Course.desk, desk]
    rfl
  have same : course.snapshot (now + 1) = course.snapshot now := by
    rw [snapshot, Course.desk, desk]
    rfl
  have takes : course.Takes ⟨course.snapshot now, requests⟩ now := by
    have before : (course.stage now).desk.store.phase = .taking := taking
    rw [Takes, Course.desk, desk]
    simp only [Stage.update, Desk.update, Log.note, before]
    rfl
  have inHand : course.InHand ⟨course.snapshot now, requests⟩ now (now + 1) := by
    refine ⟨Nat.lt_succ_self now, takes, ?_, ?_⟩
    · intro time early late
      rcases Nat.lt_or_eq_of_le late with before | rfl
      · rw [Nat.le_antisymm (Nat.le_of_lt_succ before) early]
      · exact same
    · rw [phase]
      exact ⟨[], rfl, rfl⟩
  refine ⟨?_, fun _ => ⟨_, now, inHand⟩, ?_, ?_, kept.shown_next same, ?_⟩
  · intro _
    rw [worked]
    exact kept.heard (by rw [taking]; simp)
  · intro answer pending resolving
    rw [phase] at resolving
    cases resolving
  · intro taken begun early other
    rcases Nat.lt_or_eq_of_le (Nat.le_of_lt_succ early) with before | rfl
    · rcases kept.taken taken begun before other with inHand | ⟨shown, isCommitted, late, past⟩
      · have stands := inHand.stands
        rw [taking] at stands
        exact stands.elim
      · exact .inr ⟨shown, isCommitted, Nat.le_succ_of_le late, past⟩
    · have last := List.append_cancel_left (other.symm.trans takes)
      cases last
      exact .inl inHand
  · intro id isCommitted given
    rw [answers, Course.desk, desk] at given
    exact kept.resolved_next given

/-- The end of the batch in hand is shown. -/
theorem Kept.adopt (kept : course.Kept now) {batch : Batch} {conclusion : Conclusion}
    (worked : course.stage (now + 1) = (course.stage now).update
      { (course.desk now).store with
        snapshot := conclusion.snapshot
        phase := .resolving (.ofCommit conclusion.isCommitted) batch.pending }
      (course.desk now).around)
    (adopting : course.phase now = .adopting batch conclusion) : course.Kept (now + 1) := by
  have desk := congrArg Stage.desk worked
  have phase : course.phase (now + 1) =
      .resolving (.ofCommit conclusion.isCommitted) batch.pending := by
    rw [Course.phase, Course.desk, desk]
    rfl
  have shows : course.snapshot (now + 1) = conclusion.snapshot := by
    rw [snapshot, Course.desk, desk]
    rfl
  have batches : (course.desk (now + 1)).log.batches = (course.desk now).log.batches := by
    have other : (course.stage now).desk.store.phase ≠ .taking := by
      rw [show (course.stage now).desk.store.phase = _ from adopting]
      simp
    rw [Course.desk, desk, Stage.update, Desk.update, Log.note_of_ne _ _ other]
    rfl
  have past : ∀ {taken begun}, course.InHand taken begun now →
      batch = taken.batch ∧ course.Past taken begun (now + 1) conclusion.isCommitted := by
    intro taken begun inHand
    have stands := inHand.stands
    rw [adopting] at stands
    obtain ⟨own, reached, emptied⟩ := stands
    refine ⟨own, inHand.takes, ?_, reached.next.ends ?_ shows⟩
    · intro time early late
      exact inHand.hidden time early (Nat.le_of_lt_succ late)
    · intro rolledBack
      obtain ⟨time, after, before, empties⟩ := emptied rolledBack
      exact ⟨time, after, Nat.lt_succ_of_lt before, empties⟩
  have stays : course.Stays (now + 1) (now + 1) := by
    intro time early late
    rw [Nat.le_antisymm late early]
  obtain ⟨taken, begun, inHand⟩ := kept.inHand (by rw [adopting]; rfl)
  obtain ⟨rfl, ended⟩ := past inHand
  refine ⟨?_, ?_, ?_, ?_, .inr ⟨taken, begun, now + 1, _, ended, Nat.le_refl _, stays⟩, ?_⟩
  · intro _
    rw [worked]
    exact kept.heard (by rw [adopting]; simp)
  · intro pending
    rw [phase] at pending
    cases pending
  · intro answer pending resolving
    rw [phase] at resolving
    cases resolving
    exact ⟨taken, begun, now + 1, _, ended, Nat.le_refl _, stays, rfl, List.Subset.refl _⟩
  · intro taken begun early takes
    rcases Nat.lt_or_eq_of_le (Nat.le_of_lt_succ early) with before | rfl
    · rcases kept.taken taken begun before takes with inHand | ⟨shown, isCommitted, late, other⟩
      · exact .inr ⟨now + 1, _, Nat.le_refl _, (past inHand).2⟩
      · exact .inr ⟨shown, isCommitted, Nat.le_succ_of_le late, other⟩
    · rw [Takes, batches] at takes
      simp at takes
  · intro id isCommitted given
    rw [answers, Course.desk, desk] at given
    exact kept.resolved_next given

/-- The worker turns to something else than a batch, or goes on without one. -/
theorem Kept.leave (kept : course.Kept now)
    (worked : course.stage (now + 1) = (course.stage now).update store around) {phase : Phase}
    (here : course.phase now = phase) (rests : phase.isPending = false) (lives : phase ≠ .died)
    (idle : store.phase.isWorking = false) (same : store.snapshot = course.snapshot now)
    (silent : around.answers = course.answers now) : course.Kept (now + 1) := by
  subst here
  have none : ∀ {taken begun}, ¬ course.InHand taken begun now :=
    fun inHand => lives (inHand.absent rests)
  refine kept.work worked ?_ ?_ same ?_ (fun _ _ inHand => (none inHand).elim) ?_
    ⟨[], silent.trans (List.append_nil _).symm, by rintro _ _ ⟨⟩⟩
  · intro batch change delay awaiting
    rw [awaiting] at rests
    cases rests
  · exact Log.note_of_idle _ _ idle
  · intro pending
    rw [Phase.isWorking_of_isPending pending] at idle
    cases idle
  · intro answer pending resolving
    rw [resolving] at idle
    cases idle

/-- The worker goes on with the batch in hand, and only requests that have failed are answered. -/
theorem Kept.proceed (kept : course.Kept now)
    (worked : course.stage (now + 1) = (course.stage now).update store around) {phase : Phase}
    (here : course.phase now = phase) (pending : phase.isPending = true)
    (busy : ∀ batch change delay, phase ≠ .awaiting batch change delay)
    (onward : store.phase.isPending = true) (same : store.snapshot = course.snapshot now)
    (told : ∃ more, around.answers = course.answers now ++ more ∧
      ∀ answer ∈ more, answer.2.isOutcome = false)
    (stands : ∀ taken begun, begun < now → course.Stands taken begun now phase →
      course.Stands taken begun (now + 1) store.phase) : course.Kept (now + 1) := by
  subst here
  refine kept.work worked busy (Log.note_of_ne _ _ ?_) same (fun _ => pending) ?_ ?_ ?_
  · intro taking
    rw [show course.phase now = _ from taking] at pending
    cases pending
  · exact fun taken begun inHand => stands taken begun inHand.early inHand.stands
  · intro answer rest resolving
    rw [resolving] at onward
    cases onward
  · obtain ⟨more, whole, failed⟩ := told
    refine ⟨more, whole, ?_⟩
    intro id isCommitted given
    have outcome := failed _ given
    rw [Answer.isOutcome_ofCommit] at outcome
    cases outcome

theorem Kept.step (kept : course.Kept now) {moment : Timestamp}
    (acted : course.acts now = .desk .work)
    (step : PoolStore.Step moment ((course.desk now).store, (course.desk now).around)
      (store, around))
    (worked : course.stage (now + 1) = (course.stage now).update store around) :
    course.Kept (now + 1) := by
  have silent : ∃ more, course.answers now = course.answers now ++ more ∧
      ∀ answer ∈ more, answer.2.isOutcome = false := ⟨[], (List.append_nil _).symm, by simp⟩
  cases step with
  | wake idle same => exact kept.leave worked idle rfl (by simp) rfl rfl rfl
  | rest taking passed =>
      rcases passed with rfl | rfl <;> exact kept.leave worked taking rfl (by simp) rfl rfl rfl
  | take requests waiting taking split some => exact kept.take worked taking
  | accept applying accepted =>
      apply kept.proceed worked applying rfl (by simp) rfl rfl silent
      rintro taken begun - ⟨done, split, rfl⟩
      refine ⟨done ++ [_], ?_, (Taken.after_accept accepted).1.symm⟩
      rw [split, List.append_assoc]
      rfl
  | @refuse _ _ batch request rest failure applying refused =>
      apply kept.proceed worked applying rfl (by simp) rfl rfl
      · refine ⟨[(request.id, .failed failure)], rfl, ?_⟩
        intro answer given
        rw [List.mem_singleton.mp given]
        rfl
      · rintro taken begun - ⟨done, split, rfl⟩
        refine ⟨done ++ [_], ?_, (Taken.after_refuse refused).1.symm⟩
        rw [split, List.append_assoc]
        rfl
  | abandon applying quiet =>
      apply kept.proceed worked applying rfl (by simp) rfl rfl silent
      rintro taken begun - ⟨done, split, rfl⟩
      rw [List.append_nil] at split
      subst split
      exact ⟨rfl, rfl⟩
  | send applying storable quiet =>
      apply kept.proceed worked applying rfl (by simp) rfl rfl silent
      rintro taken begun - ⟨done, split, rfl⟩
      rw [List.append_nil] at split
      subst split
      refine ⟨rfl, ⟨moment, rfl⟩, storable, ?_⟩
      intro reply given
      have unheard := kept.heard (by rw [show course.phase now = _ from applying]; simp)
      rw [worked] at given
      cases unheard.symm.trans given
  | @conclude _ _ batch conclusion concluding =>
      have same : ((course.desk now).around.conclude conclusion).answers = course.answers now :=
        (Surroundings.conclude_frame _ conclusion).1
      apply kept.proceed worked concluding rfl (by simp) rfl rfl (same ▸ silent)
      rintro taken begun early ⟨own, reached⟩
      have emptied (rolledBack : conclusion.isCommitted = false) : course.Empties now := by
        refine ⟨acted, ?_, ?_⟩ <;> rw [cache, desk, worked] <;>
          simp only [Stage.update, Desk.update, Surroundings.conclude, rolledBack] <;> rfl
      exact ⟨own, reached.next, fun rolledBack =>
        ⟨now, early, Nat.lt_succ_self now, emptied rolledBack⟩⟩
  | adopt adopting => exact kept.adopt worked adopting
  | finish resolving => exact kept.leave worked resolving rfl (by simp) rfl rfl rfl
  | @resolve _ _ answer request rest resolving =>
      have here : course.phase now = .resolving answer (request :: rest) := resolving
      refine kept.work worked (by simp [here]) (Log.note_of_ne _ _ (by simp [resolving])) rfl
        (by rintro ⟨⟩) ?_ ?_ ⟨[(request, answer)], rfl, ?_⟩
      · intro taken begun inHand
        have died := inHand.absent (by rw [here]; rfl)
        rw [here] at died
        cases died
      · rintro _ _ ⟨⟩
        exact ⟨request :: rest, here, List.subset_cons_self _ _⟩
      · intro id isCommitted given
        cases List.mem_singleton.mp given
        exact ⟨request :: rest, here, List.mem_cons_self⟩

end Work

theorem Kept.die (kept : course.Kept now) {batch : Batch}
    (applying : course.phase now = .applying batch [])
    (worked : course.stage (now + 1) = (course.stage now).update
      { (course.desk now).store with phase := .died }
      { (course.desk now).around with
        answers := (course.desk now).around.answers ++
          batch.pending.map fun request => (request, .shutDown) }) : course.Kept (now + 1) := by
  refine kept.work worked (by simp [applying]) (Log.note_of_ne _ _ ?_) rfl ?_ ?_ ?_ ?_
  · rw [show (course.desk now).store.phase = _ from applying]
    simp
  · rintro ⟨⟩
  · exact fun _ _ _ => trivial
  · rintro _ _ ⟨⟩
  · refine ⟨_, rfl, ?_⟩
    intro id isCommitted given
    obtain ⟨request, -, same⟩ := List.mem_map.mp given
    cases isCommitted <;> cases same

/-- What the store answers to the update of a batch is right. -/
theorem reached_of_end (course : Course) {taken : Taken} {begun now : Nat} {sent : Timestamp}
    {reply : Except StoreError (List Record)} {client : Client} (early : begun < now)
    (storable : Storage.poolFormat.isStorable taken.batch.candidate = true)
    (next : course.stored? (now + 1) taken.before.key =
      client.backend.records.find? taken.before.key.text)
    (ends : UpdateEnd (taken.batch.change sent) (course.desk now).around.client.backend.records
      reply client.backend.records) :
    course.Reached taken begun (now + 1) (taken.batch.conclude reply) := by
  have late := Nat.lt_succ_self now
  generalize client.backend.records = records at ends next
  cases ends with
  | failed error => exact rfl
  | refused stored found other =>
      have keyed : stored.key = taken.batch.before.key.text :=
        (course.faithful_at now).keyed _ stored found
      cases read : Snapshot.ofRecord taken.batch.before.key stored with
      | error fault =>
          rw [Batch.conclude_unread keyed read]
          exact rfl
      | ok snapshot =>
          rw [Batch.conclude_read keyed read]
          exact ⟨now, stored, early, late, found, other, (Snapshot.ofRecord_eq_ok read).1,
            Snapshot.holds_of_read read keyed⟩
  | written stored found same =>
      have holds := taken.batch.committed.holds_record sent storable
      refine ⟨rfl, now, early, late, ?_, _, ?_, holds, rfl⟩
      · rw [stored?, show (course.desk now).around.client.backend.records.find?
          taken.before.key.text = some stored from found, Option.map_some, same]
        rfl
      · rw [next, Records.find?_write]
        exact if_pos rfl

theorem Kept.carryOut (kept : course.Kept now) {batch : Batch} {change : Record} {delay : Nat}
    {reply : Except StoreError (List Record)} {client : Client}
    (awaiting : course.phase now = .awaiting batch change delay)
    (ends : UpdateEnd change (course.desk now).around.client.backend.records reply
      client.backend.records)
    (acted : course.stage (now + 1) =
      { (course.stage now).withClient client with reply? := some reply }) :
    course.Kept (now + 1) := by
  have desk : course.desk (now + 1) = ((course.stage now).withClient client).desk := by
    rw [Course.desk, acted]
  have phase : course.phase (now + 1) = .awaiting batch change delay := by
    rw [Course.phase, desk]
    exact awaiting
  apply kept.next
  · intro other
    exact absurd phase (other _ _ _)
  · rw [desk]
    rfl
  · rw [snapshot, desk]
    rfl
  · rw [phase, awaiting]
    exact id
  · intro taken begun inHand
    have stands := inHand.stands
    rw [awaiting] at stands
    rw [phase]
    obtain ⟨own, ⟨sent, rfl⟩, storable, -⟩ := stands
    refine ⟨own, ⟨sent, rfl⟩, storable, ?_⟩
    intro given same
    rw [acted] at same
    cases same
    refine course.reached_of_end inHand.early storable ?_ ends
    rw [stored?, desk]
    rfl
  · intro answer pending resolving
    rw [phase] at resolving
    cases resolving
  · intro id isCommitted given
    rw [answers, desk] at given
    exact .inl given

theorem Kept.conclude (kept : course.Kept now) {batch : Batch} {change : Record} {delay : Nat}
    {client : Client} {conclusion : Conclusion}
    (awaiting : course.phase now = .awaiting batch change delay)
    (known : conclusion = batch.abandoned ∨
      ∃ reply, (course.stage now).reply? = some reply ∧ conclusion = batch.conclude reply)
    (acted : course.stage (now + 1) =
      ⟨{ course.desk now with
          store := { (course.desk now).store with phase := .concluding batch conclusion }
          around := { (course.desk now).around with client } }, none⟩) :
    course.Kept (now + 1) := by
  have desk := congrArg Stage.desk acted
  have phase : course.phase (now + 1) = .concluding batch conclusion := by
    rw [Course.phase, Course.desk, desk]
  apply kept.next
  · intro _
    rw [acted]
  · rw [Course.desk, desk]
  · rw [snapshot, Course.desk, desk]
    rfl
  · rw [awaiting]
    exact fun _ => rfl
  · intro taken begun inHand
    have stands := inHand.stands
    rw [awaiting] at stands
    rw [phase]
    obtain ⟨rfl, -, -, replied⟩ := stands
    refine ⟨rfl, ?_⟩
    rcases known with rfl | ⟨reply, given, rfl⟩
    · exact rfl
    · exact (replied reply given).next
  · intro answer pending resolving
    rw [phase] at resolving
    cases resolving
  · intro id isCommitted given
    rw [answers, Course.desk, desk] at given
    exact .inl given

theorem Kept.succ (kept : course.Kept now) : course.Kept (now + 1) := by
  have move := course.move now
  generalize acted : course.acts now = act at move
  generalize worked : course.stage (now + 1) = after at move
  cases move with
  | aside phase same batches reply told =>
      subst worked
      exact kept.aside phase same batches reply told
  | step step => exact kept.step acted step worked
  | die applying => exact kept.die applying worked
  | carryOut awaiting silent ends => exact kept.carryOut awaiting ends worked
  | conclude awaiting known => exact kept.conclude awaiting known worked

theorem kept_zero (course : Course) : course.Kept 0 := by
  refine ⟨fun _ => rfl, ?_, ?_, ?_, .inl ?_, ?_⟩
  · rintro ⟨⟩
  · rintro _ _ ⟨⟩
  · rintro _ _ ⟨⟩
  · intro time _ late
    rw [Nat.le_zero.mp late]
  · intro id isCommitted given
    have none : course.answers 0 = [] := course.unanswered
    rw [none] at given
    cases given

theorem kept_at (course : Course) (now : Nat) : course.Kept now := by
  induction now with
  | zero => exact course.kept_zero
  | succ now ih => exact ih.succ

end Course

end ClaimStore
