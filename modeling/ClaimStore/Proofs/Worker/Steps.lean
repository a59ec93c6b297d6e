import ClaimStore.Proofs.Records.Updates
import ClaimStore.Worker
import Mathlib.Tactic.Tauto

/-!
What a worker can do in one step.

All that follows about workers rests on this list of their steps, and on what the update of a single
record does to the record store.
-/
namespace ClaimStore

namespace Client

/-- Every update that is answered without an error or a mismatch of its own record is carried
out. -/
def Honest (client : Client) : Prop := client.backend.faults.foreignMismatches = 0

/-- What happens to a client leaves the stored records alone. -/
structure Quiet (before after : Client) : Prop where
  records : after.backend.records = before.backend.records
  honest : before.Honest → after.Honest

theorem Quiet.refl (client : Client) : Quiet client client := ⟨rfl, fun honest => honest⟩

variable {client : Client} {changes : List Record}

/-- Only an error can be the answer to an update that has not been on its way. -/
theorem startUpdate_quiet (honest : client.Honest) (changes : List Record) :
    (∃ delay after, client.startUpdate changes = (.started delay, after) ∧ Quiet client after) ∨
      ∃ error after, client.startUpdate changes = (.answered (.error error), after) ∧
        Quiet client after := by
  unfold Honest at honest
  unfold startUpdate Backend.startUpdate
  by_cases broken : 0 < client.backend.faults.internalUpdates
  · simp only [if_pos broken]
    exact .inr ⟨_, _, rfl, rfl, fun honest => honest⟩
  · simp only [if_neg broken, honest, Nat.lt_irrefl, if_false]
    exact .inl ⟨_, _, rfl, rfl, fun honest => honest⟩

theorem abandonUpdate_quiet (client : Client) : Quiet client client.abandonUpdate :=
  ⟨rfl, fun honest => honest⟩

end Client

theorem Client.finishUpdate_single (client : Client) (change : Record) :
    ∃ result after, client.finishUpdate [change] = (result, after) ∧
      UpdateEnd change client.backend.records result after.backend.records ∧
      (client.Honest → after.Honest) := by
  unfold Client.finishUpdate Client.record Backend.finishUpdate
  by_cases broken : 0 < client.backend.faults.failedUpdates
  · simp only [if_pos broken]
    exact ⟨_, _, rfl, .failed _, fun honest => honest⟩
  · simp only [if_neg broken]
    rcases client.backend.records.update_single change with ⟨missing, -⟩ | ⟨_, _, updated, ends⟩
    · simp only [missing]
      exact ⟨_, _, rfl, .failed _, fun honest => honest⟩
    · simp only [updated]
      exact ⟨_, _, rfl, ends, fun honest => honest⟩

theorem Surroundings.conclude_frame (around : Surroundings) (conclusion : Conclusion) :
    (around.conclude conclusion).answers = around.answers ∧
      (around.conclude conclusion).client = around.client ∧
      (around.conclude conclusion).clock = around.clock := by
  unfold conclude
  split <;> exact ⟨rfl, rfl, rfl⟩

namespace PoolStore

variable {batchSize : Nat} {isShutDown : Bool} {now : Timestamp}

/-- The steps of a worker whose clock works. -/
inductive Step (now : Timestamp) : PoolStore × Surroundings → PoolStore × Surroundings → Prop
  | wake {store around queue isTriggered} (idle : store.phase = .idle)
      (same : queue.waiting = store.queue.waiting) :
      Step now (store, around) ({ store with queue, isTriggered, phase := .taking }, around)
  | rest {store around phase} (taking : store.phase = .taking)
      (passed : phase = .idle ∨ phase = .stopped) :
      Step now (store, around) ({ store with phase }, around)
  | take {store around} (requests waiting : List Request) (taking : store.phase = .taking)
      (split : store.queue.waiting = requests ++ waiting) (some : requests ≠ []) :
      Step now (store, around)
        ({ store with
            queue := { store.queue with waiting }
            phase := .applying (.start store.snapshot) requests },
          around.countBatch requests.length)
  | accept {store around batch request rest candidate}
      (applying : store.phase = .applying batch (request :: rest))
      (accepted : request.mutation batch.candidate = .ok candidate) :
      Step now (store, around)
        ({ store with
            phase :=
              .applying { batch with candidate, pending := batch.pending ++ [request.id] } rest },
          around)
  | refuse {store around batch request rest failure}
      (applying : store.phase = .applying batch (request :: rest))
      (refused : request.mutation batch.candidate = .error failure) :
      Step now (store, around)
        ({ store with phase := .applying batch rest }, around.fail request.id failure)
  | abandon {store around batch client} (applying : store.phase = .applying batch [])
      (quiet : Client.Quiet around.client client) :
      Step now (store, around)
        ({ store with phase := .concluding batch batch.abandoned }, { around with client })
  | send {store around batch delay client} (applying : store.phase = .applying batch [])
      (storable : Storage.poolFormat.isStorable batch.candidate = true)
      (quiet : Client.Quiet around.client client) :
      Step now (store, around)
        ({ store with phase := .awaiting batch (batch.change now) delay }, { around with client })
  | conclude {store around batch conclusion} (concluding : store.phase = .concluding batch conclusion) :
      Step now (store, around)
        ({ store with phase := .adopting batch conclusion }, around.conclude conclusion)
  | adopt {store around batch conclusion} (adopting : store.phase = .adopting batch conclusion) :
      Step now (store, around)
        ({ store with
            snapshot := conclusion.snapshot
            phase := .resolving (.ofCommit conclusion.isCommitted) batch.pending },
          around)
  | finish {store around answer} (resolving : store.phase = .resolving answer []) :
      Step now (store, around) ({ store with phase := .taking }, around)
  | resolve {store around answer request rest}
      (resolving : store.phase = .resolving answer (request :: rest)) :
      Step now (store, around)
        ({ store with phase := .resolving answer rest }, around.answer request answer)

theorem step_take {store : PoolStore} {around : Surroundings} (taking : store.phase = .taking) :
    Step now (store, around) (store.take batchSize around) := by
  have whole := store.queue.takeBatch_append batchSize
  unfold take
  cases taken : store.queue.takeBatch batchSize with
  | mk requests queue =>
    rw [taken] at whole
    have closed : queue = { store.queue with waiting := queue.waiting } := by
      have rest : queue = (store.queue.takeBatch batchSize).2 := (congrArg Prod.snd taken).symm
      rw [rest]
      rfl
    cases requests with
    | nil =>
        refine .rest taking ?_
        cases store.queue.isClosed
        · exact .inl rfl
        · exact .inr rfl
    | cons request rest =>
        have step : Step now (store, around) _ :=
          .take (request :: rest) queue.waiting taking whole.symm (List.cons_ne_nil _ _)
        rw [← closed] at step
        exact step

theorem step_send {store : PoolStore} {around : Surroundings} {batch : Batch}
    (honest : around.client.Honest) (applying : store.phase = .applying batch [])
    (storable : Storage.poolFormat.isStorable batch.candidate = true) :
    Step now (store, around) (store.send batch (batch.change now) around) := by
  unfold send
  rcases Client.startUpdate_quiet honest [batch.change now] with
    ⟨delay, after, started, quiet⟩ | ⟨error, after, started, quiet⟩
  · rw [started]
    exact .send applying storable quiet
  · rw [started]
    exact .abandon applying quiet

theorem step_commit {store : PoolStore} {around : Surroundings} {batch : Batch}
    (clock : around.clock = some now) (honest : around.client.Honest)
    (applying : store.phase = .applying batch []) :
    Step now (store, around) (store.commit batch around) := by
  cases storable : Storage.poolFormat.isStorable batch.candidate with
  | false =>
      have refused : store.commit batch around =
          ({ store with phase := .concluding batch batch.abandoned }, around) := by
        simp [commit, storable]
      rw [refused]
      exact .abandon applying (Client.Quiet.refl around.client)
  | true =>
      have sent : store.commit batch around = store.send batch (batch.change now) around := by
        simp [commit, storable, clock]
      rw [sent]
      exact step_send honest applying storable

/-- Only the start of a commit depends on the clock and on the record store. -/
theorem step_or_commit (now : Timestamp) {before after : PoolStore × Surroundings}
    (stepped : step? batchSize isShutDown before = some after) :
    Step now before after ∨
      ∃ batch, before.1.phase = .applying batch [] ∧ after = before.1.commit batch before.2 := by
  obtain ⟨store, around⟩ := before
  cases phase : store.phase with
  | idle =>
      simp only [step?, phase] at stepped
      split at stepped
      · cases stepped
        exact .inl (.wake phase rfl)
      · split at stepped
        · cases stepped
          exact .inl (.wake phase rfl)
        · contradiction
  | taking =>
      simp only [step?, phase, Option.some.injEq] at stepped
      subst stepped
      exact .inl (step_take phase)
  | applying batch rest =>
      cases rest with
      | nil =>
          simp only [step?, phase, Option.some.injEq] at stepped
          subst stepped
          exact .inr ⟨batch, rfl, rfl⟩
      | cons request rest =>
          simp only [step?, phase, Batch.add] at stepped
          cases result : request.mutation batch.candidate with
          | ok candidate =>
              simp only [result, Option.some.injEq] at stepped
              subst stepped
              exact .inl (.accept phase result)
          | error failure =>
              simp only [result, Option.some.injEq] at stepped
              subst stepped
              exact .inl (.refuse phase result)
  | awaiting batch change delay => simp [step?, phase] at stepped
  | concluding batch conclusion =>
      simp only [step?, phase, Option.some.injEq] at stepped
      subst stepped
      exact .inl (.conclude phase)
  | adopting batch conclusion =>
      simp only [step?, phase, Option.some.injEq] at stepped
      subst stepped
      exact .inl (.adopt phase)
  | resolving answer pending =>
      cases pending with
      | nil =>
          simp only [step?, phase, Option.some.injEq] at stepped
          subst stepped
          exact .inl (.finish phase)
      | cons request rest =>
          simp only [step?, phase, Option.some.injEq] at stepped
          subst stepped
          exact .inl (.resolve phase)
  | stopped => simp [step?, phase] at stepped
  | died => simp [step?, phase] at stepped

theorem step_of_step? {before after : PoolStore × Surroundings}
    (clock : before.2.clock = some now) (honest : before.2.client.Honest)
    (stepped : step? batchSize isShutDown before = some after) : Step now before after := by
  obtain ⟨store, around⟩ := before
  rcases step_or_commit now stepped with step | ⟨batch, applying, committed⟩
  · exact step
  · rw [committed]
    exact step_commit clock honest applying

variable {store next : PoolStore} {around after : Surroundings}

theorem end_of_finishUpdate? (finished : finishUpdate? (store, around) = some (next, after)) :
    ∃ batch change delay result client, store.phase = .awaiting batch change delay ∧
      next = { store with phase := .concluding batch (batch.conclude result) } ∧
      after = { around with client } ∧
      UpdateEnd change around.client.backend.records result client.backend.records ∧
      (around.client.Honest → client.Honest) := by
  cases phase : store.phase with
  | awaiting batch change delay =>
      obtain ⟨result, client, ended, ends, honest⟩ := around.client.finishUpdate_single change
      simp only [finishUpdate?, phase, ended, Option.some.injEq, Prod.mk.injEq] at finished
      obtain ⟨rfl, rfl⟩ := finished
      exact ⟨batch, change, delay, result, client, rfl, rfl, rfl, ends, honest⟩
  | idle | taking | applying | concluding | adopting | resolving | stopped | died =>
      simp [finishUpdate?, phase] at finished

theorem end_of_abandonUpdate? (abandoned : abandonUpdate? (store, around) = some (next, after)) :
    ∃ batch change delay client, store.phase = .awaiting batch change delay ∧
      next = { store with phase := .concluding batch batch.abandoned } ∧
      after = { around with client } ∧ Client.Quiet around.client client := by
  cases phase : store.phase with
  | awaiting batch change delay =>
      simp only [abandonUpdate?, phase, Option.some.injEq, Prod.mk.injEq] at abandoned
      obtain ⟨rfl, rfl⟩ := abandoned
      exact ⟨batch, change, delay, _, rfl, rfl, rfl, around.client.abandonUpdate_quiet⟩
  | idle | taking | applying | concluding | adopting | resolving | stopped | died =>
      simp [abandonUpdate?, phase] at abandoned

def held (store : PoolStore) : List Nat :=
  (match store.phase with
    | .applying batch rest => batch.pending ++ rest.map Request.id
    | .awaiting batch _ _ | .concluding batch _ | .adopting batch _ => batch.pending
    | .resolving _ pending => pending
    | .idle | .taking | .stopped | .died => []) ++ store.queue.waiting.map Request.id

/-- No step changes the stored records, and all but the requests that a worker holds is left
alone. -/
theorem Step.frame (step : Step now (store, around) (next, after)) :
    Client.Quiet around.client after.client ∧ after.clock = around.clock ∧ next.key = store.key ∧
      next.held ⊆ store.held ∧
      ∃ more, after.answers = around.answers ++ more ∧ ∀ answer ∈ more, answer.1 ∈ store.held := by
  have none : ∃ more, around.answers = around.answers ++ more ∧
      ∀ answer ∈ more, answer.1 ∈ store.held :=
    ⟨[], (List.append_nil _).symm, by simp⟩
  cases step with
  | wake idle same =>
      refine ⟨Client.Quiet.refl _, rfl, rfl, ?_, none⟩
      simp [held, same]
  | rest taking passed =>
      refine ⟨Client.Quiet.refl _, rfl, rfl, ?_, none⟩
      rcases passed with rfl | rfl <;> simp [held]
  | take requests waiting taking split some =>
      refine ⟨Client.Quiet.refl _, rfl, rfl, ?_, none⟩
      simp [held, taking, split, Batch.start]
  | accept applying accepted =>
      refine ⟨Client.Quiet.refl _, rfl, rfl, ?_, none⟩
      simp [held, applying]
  | @refuse _ _ batch request rest failure applying refused =>
      refine ⟨Client.Quiet.refl _, rfl, rfl, ?_, [(request.id, .failed failure)], rfl, ?_⟩
      · rw [held, held, applying]
        intro id member
        simp only [List.map_cons, List.mem_append, List.mem_cons] at member ⊢
        tauto
      · simp [held, applying]
  | abandon applying quiet =>
      refine ⟨quiet, rfl, rfl, ?_, none⟩
      simp [held, applying]
  | send applying storable quiet =>
      refine ⟨quiet, rfl, rfl, ?_, none⟩
      simp [held, applying]
  | @conclude _ _ batch conclusion concluding =>
      have silent := around.conclude_frame conclusion
      refine ⟨?_, silent.2.2, rfl, ?_, ?_⟩
      · rw [silent.2.1]
        exact Client.Quiet.refl _
      · simp [held, concluding]
      · rw [silent.1]
        exact none
  | adopt adopting =>
      refine ⟨Client.Quiet.refl _, rfl, rfl, ?_, none⟩
      simp [held, adopting]
  | finish resolving =>
      refine ⟨Client.Quiet.refl _, rfl, rfl, ?_, none⟩
      simp [held, resolving]
  | @resolve _ _ answer request rest resolving =>
      refine ⟨Client.Quiet.refl _, rfl, rfl, ?_, [(request, answer)], rfl, ?_⟩
      · rw [held, held, resolving]
        intro id member
        exact List.mem_cons_of_mem _ member
      · simp [held, resolving]

/-- A queue is closed for good, and only after a shutdown. -/
theorem step?_isClosed {before after : PoolStore × Surroundings}
    (stepped : step? batchSize isShutDown before = some after) :
    after.1.queue.isClosed = before.1.queue.isClosed ∨
      isShutDown = true ∧ after.1.queue.isClosed = true := by
  obtain ⟨store, around⟩ := before
  cases phase : store.phase with
  | idle =>
      simp only [step?, phase] at stepped
      split at stepped
      · rename_i shutDown
        cases stepped
        exact .inr ⟨shutDown, rfl⟩
      · split at stepped
        · cases stepped
          exact .inl rfl
        · contradiction
  | taking =>
      simp only [step?, phase, Option.some.injEq] at stepped
      subst stepped
      left
      unfold take
      split
      · rfl
      · rename_i requests queue _ taken
        have rest : queue = (store.queue.takeBatch batchSize).2 := (congrArg Prod.snd taken).symm
        rw [rest]
        rfl
  | applying batch rest =>
      left
      cases rest with
      | nil =>
          simp only [step?, phase, Option.some.injEq] at stepped
          subst stepped
          unfold commit send
          split
          · rfl
          · split
            · rfl
            · split <;> rfl
      | cons request rest =>
          simp only [step?, phase] at stepped
          split at stepped <;> cases stepped <;> rfl
  | awaiting batch change delay => simp [step?, phase] at stepped
  | concluding batch conclusion | adopting batch conclusion =>
      simp only [step?, phase, Option.some.injEq] at stepped
      subst stepped
      exact .inl rfl
  | resolving answer pending =>
      left
      cases pending <;> simp only [step?, phase, Option.some.injEq] at stepped <;> subst stepped <;>
        rfl
  | stopped | died => simp [step?, phase] at stepped

end PoolStore

end ClaimStore
