import ClaimStore.Proofs.Resolving

/-!
A pool that others look at.

The store carries out the update of a batch before the worker hears of it, and between any two steps
others use the record store and the cache of the pool. They see the snapshot, the stored record, the
cache and the answers as they are at that moment.
-/
namespace ClaimStore

/-- What others do with the cache of a pool. -/
inductive CacheAct
  | add (ref : StateRef) (amount : UInt64)
  | remove (ref : StateRef)
  | invalidate

namespace TokenCache

def act (cache : TokenCache) : CacheAct → TokenCache
  | .add ref amount => cache.add ref amount
  | .remove ref => cache.remove ref
  | .invalidate => cache.invalidate

theorem invalidations_act (cache : TokenCache) (cacheAct : CacheAct) :
    cache.invalidations ≤ (cache.act cacheAct).invalidations := by
  cases cacheAct with
  | add ref amount | remove ref => exact Nat.le_refl _
  | invalidate => exact Nat.le_succ _

end TokenCache

/-- What a record store keeps to: an update that is answered without an error or a mismatch of its
own record is carried out, and a record is stored under its own key. -/
structure Client.Faithful (client : Client) : Prop where
  honest : client.Honest
  keyed : ∀ key record, client.backend.records.find? key = some record → record.key = key

theorem Client.Faithful.quiet {client after : Client} (faithful : client.Faithful)
    (quiet : Client.Quiet client after) : after.Faithful := by
  refine ⟨quiet.honest faithful.honest, ?_⟩
  rw [quiet.records]
  exact faithful.keyed

theorem Client.Faithful.update {client after : Client} {change : Record}
    {result : Except StoreError (List Record)} (faithful : client.Faithful)
    (ends : UpdateEnd change client.backend.records result after.backend.records)
    (honest : client.Honest → after.Honest) : after.Faithful := by
  refine ⟨honest faithful.honest, ?_⟩
  intro key record found
  generalize after.backend.records = records at ends found
  cases ends with
  | failed error | refused stored expected other => exact faithful.keyed key record found
  | written stored expected same =>
      rw [Records.find?_write] at found
      split at found
      · rename_i own
        cases found
        exact own.symm
      · exact faithful.keyed key record found

namespace PoolStore

/-- The steps of a worker whose store is honest: without a clock it dies when it comes to a
commit. -/
theorem step_or_death {batchSize : Nat} {isShutDown : Bool} {store next : PoolStore}
    {around after : Surroundings} (honest : around.client.Honest)
    (stepped : step? batchSize isShutDown (store, around) = some (next, after)) :
    (∃ now, Step now (store, around) (next, after)) ∨
      ∃ batch, store.phase = .applying batch [] ∧ next = { store with phase := .died } ∧
        after = { around with
          answers := around.answers ++ batch.pending.map fun request => (request, .shutDown) } := by
  rcases step_or_commit default stepped with step | ⟨batch, applying, committed⟩
  · exact .inl ⟨default, step⟩
  · cases clock : around.clock with
    | some now =>
        rw [committed]
        exact .inl ⟨now, step_commit clock honest applying⟩
    | none =>
        simp only [commit, clock, foldl_answer] at committed
        split at committed
        · cases committed
          exact .inl ⟨default, .abandon applying (Client.Quiet.refl _)⟩
        · cases committed
          exact .inr ⟨batch, applying, rfl, rfl⟩

end PoolStore

theorem PoolStore.Turn.invalidations {store next : PoolStore} {around after : Surroundings}
    (turn : Turn (store, around) (next, after)) :
    around.cache.invalidations ≤ after.cache.invalidations := by
  cases turn with
  | step now step =>
      cases step with
      | @conclude _ _ batch conclusion concluding =>
          unfold Surroundings.conclude
          split
          · exact Nat.le_refl _
          · exact Nat.le_succ _
      | wake | rest | take | accept | refuse | abandon | send | adopt | finish | resolve =>
          exact Nat.le_refl _
  | answered | die => exact Nat.le_refl _

/-- A pool with its worker, and the reply of the store that the worker has not heard yet. -/
structure Stage where
  desk : Desk
  reply? : Option (Except StoreError (List Record))

/-- What happens at a pool: besides what happens at the desk, the store carries out the update that
is under way, the worker hears of that, hears of an error or gives up, and others use the cache, the
record store and the clock. -/
inductive StageAct
  | desk (act : DeskAct)
  | carryOut
  | hear
  | fail (error : StoreError)
  | giveUp
  | cache (act : CacheAct)
  | others (client : Client) (clock : Option Timestamp)

namespace Stage

def update (stage : Stage) (store : PoolStore) (around : Surroundings) : Stage :=
  { stage with desk := stage.desk.update (some (store, around)) }

def withClient (stage : Stage) (client : Client) : Stage :=
  { stage with desk := { stage.desk with around := { stage.desk.around with client } } }

/-- The worker stops waiting for its update. -/
def conclude (stage : Stage) (conclusion : Batch → Conclusion) : Stage :=
  match stage.desk.store.phase with
  | .awaiting batch _ _ =>
      let store := { stage.desk.store with phase := .concluding batch (conclusion batch) }
      ⟨{ stage.desk with store }, none⟩
  | _ => stage

def carryOut (stage : Stage) : Stage :=
  match stage.desk.store.phase, stage.reply? with
  | .awaiting _ change _, none =>
      let (reply, client) := stage.desk.around.client.finishUpdate [change]
      { stage.withClient client with reply? := some reply }
  | _, _ => stage

def hear (stage : Stage) : Stage :=
  match stage.reply? with
  | none => stage
  | some reply => stage.conclude fun batch => batch.conclude reply

def act (batchSize : Nat) (stage : Stage) : StageAct → Stage
  | .desk act => { stage with desk := stage.desk.act batchSize act }
  | .carryOut => stage.carryOut
  | .hear => stage.hear
  | .fail error => stage.conclude fun batch => batch.conclude (.error error)
  | .giveUp =>
      match PoolStore.abandonUpdate? (stage.desk.store, stage.desk.around) with
      | none => stage
      | some result => ⟨stage.desk.update (some result), none⟩
  | .cache act =>
      let around := { stage.desk.around with cache := stage.desk.around.cache.act act }
      { stage with desk := { stage.desk with around } }
  | .others client clock =>
      { stage with desk := { stage.desk with around := { stage.desk.around with client, clock } } }

variable {stage : Stage} {batchSize : Nat}

/-- An update that ends at once is carried out and heard of with nothing in between. -/
theorem hear_carryOut {batch : Batch} {change : Record} {delay : Nat}
    (awaiting : stage.desk.store.phase = .awaiting batch change delay)
    (silent : stage.reply? = none) :
    stage.carryOut.hear =
      ⟨stage.desk.update (PoolStore.finishUpdate? (stage.desk.store, stage.desk.around)), none⟩ := by
  have log : ∀ next, stage.desk.log.note stage.desk.store next = stage.desk.log :=
    fun next => stage.desk.log.note_of_ne next (by rw [awaiting]; simp)
  simp [carryOut, hear, conclude, withClient, Desk.update, PoolStore.finishUpdate?, awaiting, silent,
    log]

/-- What one act does to a pool. Most acts leave the worker where it is and tell nobody how a batch
has ended. -/
inductive Move (stage : Stage) : StageAct → Stage → Prop
  | aside {act after} (phase : after.desk.store.phase = stage.desk.store.phase)
      (snapshot : after.desk.store.snapshot = stage.desk.store.snapshot)
      (batches : after.desk.log.batches = stage.desk.log.batches)
      (reply : after.reply? = stage.reply?)
      (told : ∀ id isCommitted, (id, .ofCommit isCommitted) ∈ after.desk.around.answers →
        (id, .ofCommit isCommitted) ∈ stage.desk.around.answers) :
      Move stage act after
  | step {now next after}
      (step : PoolStore.Step now (stage.desk.store, stage.desk.around) (next, after)) :
      Move stage (.desk .work) (stage.update next after)
  | die {batch} (applying : stage.desk.store.phase = .applying batch []) :
      Move stage (.desk .work)
        (stage.update { stage.desk.store with phase := .died }
          { stage.desk.around with
            answers := stage.desk.around.answers ++
              batch.pending.map fun request => (request, .shutDown) })
  | carryOut {batch change delay reply client}
      (awaiting : stage.desk.store.phase = .awaiting batch change delay)
      (silent : stage.reply? = none)
      (ends : UpdateEnd change stage.desk.around.client.backend.records reply
        client.backend.records) :
      Move stage .carryOut { stage.withClient client with reply? := some reply }
  | conclude {act batch change delay client conclusion}
      (awaiting : stage.desk.store.phase = .awaiting batch change delay)
      (known : conclusion = batch.abandoned ∨
        ∃ reply, stage.reply? = some reply ∧ conclusion = batch.conclude reply) :
      Move stage act
        ⟨{ stage.desk with
            store := { stage.desk.store with phase := .concluding batch conclusion }
            around := { stage.desk.around with client } }, none⟩

theorem Move.same (stage : Stage) (act : StageAct) : Move stage act stage :=
  .aside rfl rfl rfl rfl fun _ _ told => told

theorem move_push (stage : Stage) (mutation : Mutation) :
    Move stage (.desk (.push mutation)) { stage with desk := stage.desk.push mutation } := by
  cases closed : stage.desk.store.queue.isClosed with
  | true =>
      rw [Desk.push_closed closed]
      refine .aside rfl rfl rfl rfl ?_
      intro id isCommitted told
      rcases List.mem_append.mp told with early | late
      · exact early
      · cases isCommitted <;> cases List.mem_singleton.mp late
  | false =>
      rw [Desk.push_opened closed]
      exact .aside rfl rfl rfl rfl fun _ _ told => told

theorem move_work (honest : stage.desk.around.client.Honest) :
    Move stage (.desk .work) { stage with desk := stage.desk.act batchSize .work } := by
  simp only [Desk.act]
  cases worked : PoolStore.step? batchSize stage.desk.isShutDown
      (stage.desk.store, stage.desk.around) with
  | none => exact Move.same _ _
  | some result =>
      obtain ⟨next, after⟩ := result
      rcases PoolStore.step_or_death honest worked with ⟨now, step⟩ | ⟨batch, applying, rfl, rfl⟩
      · exact .step step
      · exact .die applying

theorem move_conclude {act : StageAct} {conclusion : Batch → Conclusion}
    (known : ∀ batch, conclusion batch = batch.abandoned ∨
      ∃ reply, stage.reply? = some reply ∧ conclusion batch = batch.conclude reply) :
    Move stage act (stage.conclude conclusion) := by
  unfold Stage.conclude
  split
  · rename_i batch change delay awaiting
    exact .conclude awaiting (known batch)
  · exact Move.same _ _

theorem move_carryOut (stage : Stage) : Move stage .carryOut stage.carryOut := by
  unfold Stage.carryOut
  split
  · rename_i batch change delay awaiting silent
    obtain ⟨reply, client, ended, ends, -⟩ :=
      stage.desk.around.client.finishUpdate_single change
    rw [ended]
    exact .carryOut awaiting silent ends
  · exact Move.same _ _

theorem move_act (honest : stage.desk.around.client.Honest) (stageAct : StageAct) :
    Move stage stageAct (stage.act batchSize stageAct) := by
  cases stageAct with
  | desk deskAct =>
      cases deskAct with
      | push mutation => exact stage.move_push mutation
      | work => exact move_work honest
      | notify | shutDown | tick now => exact .aside rfl rfl rfl rfl fun _ _ told => told
  | carryOut => exact stage.move_carryOut
  | hear =>
      simp only [Stage.act, hear]
      split
      · exact Move.same _ _
      · rename_i reply given
        exact move_conclude fun batch => .inr ⟨reply, given, rfl⟩
  | fail error => exact move_conclude fun batch => .inl rfl
  | giveUp =>
      simp only [Stage.act]
      cases abandoned : PoolStore.abandonUpdate? (stage.desk.store, stage.desk.around) with
      | none => exact Move.same _ _
      | some result =>
          obtain ⟨next, after⟩ := result
          obtain ⟨batch, change, delay, client, awaiting, rfl, rfl, -⟩ :=
            PoolStore.end_of_abandonUpdate? abandoned
          simp only [Desk.update_concluding awaiting]
          exact .conclude awaiting (.inl rfl)
  | cache cacheAct | others client clock => exact .aside rfl rfl rfl rfl fun _ _ told => told

end Stage

/-- A course of events at a pool: what is there at first, and what is done at every moment. -/
structure Course where
  batchSize : Nat
  first : Snapshot
  around : Surroundings
  acts : Nat → StageAct
  unanswered : around.answers = []
  faithful : around.client.Faithful
  others : ∀ time client clock, acts time = .others client clock → client.Faithful

namespace Course

def stage (course : Course) : (time : Nat) → Stage
  | 0 => ⟨.start course.first course.around, none⟩
  | time + 1 => (course.stage time).act course.batchSize (course.acts time)

def desk (course : Course) (time : Nat) : Desk := (course.stage time).desk

def phase (course : Course) (time : Nat) : Phase := (course.desk time).store.phase

def snapshot (course : Course) (time : Nat) : Snapshot := (course.desk time).store.snapshot

def stored? (course : Course) (time : Nat) (key : PoolKey) : Option Record :=
  (course.desk time).around.client.backend.records.find? key.text

def cache (course : Course) (time : Nat) : TokenCache := (course.desk time).around.cache

def answers (course : Course) (time : Nat) : List (Nat × Answer) := (course.desk time).around.answers

variable {course : Course}

theorem faithful_act {stage : Stage} {batchSize : Nat} {stageAct : StageAct}
    (faithful : stage.desk.around.client.Faithful)
    (others : ∀ client clock, stageAct = .others client clock → client.Faithful) :
    (stage.act batchSize stageAct).desk.around.client.Faithful := by
  cases stageAct with
  | desk deskAct =>
      cases deskAct with
      | push mutation =>
          simp only [Stage.act, Desk.act, Desk.push]
          split <;> exact faithful
      | work =>
          simp only [Stage.act, Desk.act]
          cases worked : PoolStore.step? batchSize stage.desk.isShutDown
              (stage.desk.store, stage.desk.around) with
          | none => exact faithful
          | some result =>
              obtain ⟨next, after⟩ := result
              rcases PoolStore.step_or_death faithful.honest worked with
                ⟨now, step⟩ | ⟨batch, applying, rfl, rfl⟩
              · exact faithful.quiet step.frame.1
              · exact faithful
      | notify | shutDown | tick now => exact faithful
  | carryOut =>
      simp only [Stage.act, Stage.carryOut]
      split
      · rename_i batch change delay awaiting silent
        obtain ⟨reply, client, ended, ends, honest⟩ :=
          stage.desk.around.client.finishUpdate_single change
        rw [ended]
        exact faithful.update ends honest
      · exact faithful
  | hear =>
      simp only [Stage.act, Stage.hear, Stage.conclude]
      split
      · exact faithful
      · split <;> exact faithful
  | fail error =>
      simp only [Stage.act, Stage.conclude]
      split <;> exact faithful
  | giveUp =>
      simp only [Stage.act]
      cases abandoned : PoolStore.abandonUpdate? (stage.desk.store, stage.desk.around) with
      | none => exact faithful
      | some result =>
          obtain ⟨next, after⟩ := result
          obtain ⟨batch, change, delay, client, awaiting, rfl, rfl, quiet⟩ :=
            PoolStore.end_of_abandonUpdate? abandoned
          exact faithful.quiet quiet
  | cache cacheAct => exact faithful
  | others client clock => exact others client clock rfl

theorem faithful_at (course : Course) (time : Nat) :
    (course.desk time).around.client.Faithful := by
  induction time with
  | zero => exact course.faithful
  | succ time ih => exact faithful_act ih (course.others time)

theorem move (course : Course) (time : Nat) :
    (course.stage time).Move (course.acts time) (course.stage (time + 1)) :=
  Stage.move_act (course.faithful_at time).honest (course.acts time)

/-- The worker keeps count of the requests whatever happens around it. -/
theorem accounts_act {stage : Stage} {batchSize : Nat} (accounts : stage.desk.Accounts)
    (stageAct : StageAct) : (stage.act batchSize stageAct).desk.Accounts := by
  have around : ∀ after : Surroundings, after.answers = stage.desk.around.answers →
      Desk.Accounts { stage.desk with around := after } := by
    intro after same
    refine ⟨?_, ?_, accounts.queued, ?_⟩
    · simp only [same]
      exact accounts.whole
    · simp only [same]
      exact accounts.ordered
    · intro id early foreign
      obtain ⟨-, closed, told⟩ := accounts.rejected id early foreign
      exact ⟨foreign, closed, same ▸ told⟩
  have conclude : ∀ conclusion, (stage.conclude conclusion).desk.Accounts := by
    intro conclusion
    unfold Stage.conclude
    split
    · rename_i batch change delay awaiting
      have kept : (stage.desk.update
          (some ({ stage.desk.store with phase := .concluding batch (conclusion batch) },
            { stage.desk.around with client := stage.desk.around.client }))).Accounts := by
        apply accounts.update (List.append_nil _).symm
        · rw [PoolStore.held, PoolStore.held, awaiting]
          exact PoolStore.Serves.refl _
        · exact fun closed => closed
      rw [Desk.update_concluding awaiting] at kept
      exact kept
    · exact accounts
  cases stageAct with
  | desk deskAct => exact accounts.shared (.solo (.desk deskAct))
  | carryOut =>
      simp only [Stage.act, Stage.carryOut]
      split
      · exact around _ rfl
      · exact accounts
  | hear =>
      simp only [Stage.act, Stage.hear]
      split
      · exact accounts
      · exact conclude _
  | fail error => exact conclude _
  | giveUp =>
      simp only [Stage.act]
      split
      · exact accounts
      · rename_i result abandoned
        have kept : (stage.desk.shared batchSize (.solo .abandonUpdate)).Accounts :=
          accounts.shared _
        simpa only [Desk.shared, Desk.solo, abandoned] using kept
  | cache cacheAct | others client clock => exact around _ rfl

theorem accounts_at (course : Course) (time : Nat) : (course.desk time).Accounts := by
  induction time with
  | zero => exact Desk.accounts_start course.unanswered
  | succ time ih => exact accounts_act ih (course.acts time)

theorem invalidations_act (stage : Stage) (batchSize : Nat) (stageAct : StageAct) :
    stage.desk.around.cache.invalidations ≤
      (stage.act batchSize stageAct).desk.around.cache.invalidations := by
  have conclude : ∀ conclusion, stage.desk.around.cache.invalidations ≤
      (stage.conclude conclusion).desk.around.cache.invalidations := by
    intro conclusion
    unfold Stage.conclude
    split <;> exact Nat.le_refl _
  cases stageAct with
  | desk deskAct =>
      cases deskAct with
      | push mutation =>
          simp only [Stage.act, Desk.act, Desk.push]
          split <;> exact Nat.le_refl _
      | work =>
          simp only [Stage.act, Desk.act]
          cases worked : PoolStore.step? batchSize stage.desk.isShutDown
              (stage.desk.store, stage.desk.around) with
          | none => exact Nat.le_refl _
          | some result =>
              obtain ⟨next, after⟩ := result
              exact (PoolStore.turn_of_step? worked).invalidations
      | notify | shutDown | tick now => exact Nat.le_refl _
  | carryOut =>
      simp only [Stage.act, Stage.carryOut]
      split <;> exact Nat.le_refl _
  | hear =>
      simp only [Stage.act, Stage.hear]
      split
      · exact Nat.le_refl _
      · exact conclude _
  | fail error => exact conclude _
  | giveUp =>
      simp only [Stage.act]
      cases abandoned : PoolStore.abandonUpdate? (stage.desk.store, stage.desk.around) with
      | none => exact Nat.le_refl _
      | some result =>
          obtain ⟨next, after⟩ := result
          obtain ⟨batch, change, delay, client, awaiting, rfl, rfl, -⟩ :=
            PoolStore.end_of_abandonUpdate? abandoned
          exact Nat.le_refl _
  | cache cacheAct => exact TokenCache.invalidations_act _ cacheAct
  | others client clock => exact Nat.le_refl _

/-- Nobody takes back that the cache has been emptied. -/
theorem invalidations_mono (course : Course) {earlier later : Nat} (ordered : earlier ≤ later) :
    (course.cache earlier).invalidations ≤ (course.cache later).invalidations := by
  induction ordered with
  | refl => exact Nat.le_refl _
  | step _ ih => exact Nat.le_trans ih (invalidations_act _ course.batchSize (course.acts _))

end Course

end ClaimStore
