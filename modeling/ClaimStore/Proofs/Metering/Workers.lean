import ClaimStore.Proofs.Metering.System

/-!
What a worker counts in one step.

Batches are counted when they are taken, commits when they have ended, failed mutations in between, and
updates by the client as they end. What has been counted on one side and not yet on the other can be
told from the phase of the worker.
-/
namespace ClaimStore

def Answer.isShutDown : Answer → Bool
  | .shutDown => true
  | _ => false

def Answer.isFailed : Answer → Bool
  | .failed _ => true
  | _ => false

/-- The answers that are one of those. -/
def countAnswers (among : Answer → Bool) (answers : List (Nat × Answer)) : Nat :=
  answers.countP fun answer => among answer.2

theorem countAnswers_append (among : Answer → Bool) (answers more : List (Nat × Answer)) :
    countAnswers among (answers ++ more) = countAnswers among answers + countAnswers among more :=
  List.countP_append

theorem countAnswers_single (among : Answer → Bool) (request : Nat) (answer : Answer) :
    countAnswers among [(request, answer)] = if among answer then 1 else 0 := by
  cases told : among answer <;> simp [countAnswers, told]

/-- Whether a request has been served, be it in vain: the batch has ended or the mutation failed. -/
def Answer.isServed (answer : Answer) : Bool := !answer.isShutDown

namespace Phase

/-- The batches that have been counted and whose commits have not. Who dies leaves one behind. -/
def uncommitted : Phase → Nat
  | .applying _ _ | .awaiting _ _ _ | .concluding _ _ | .died => 1
  | .idle | .taking | .adopting _ _ | .resolving _ _ | .stopped => 0

/-- The updates that have been started and have not ended. -/
def inFlight : Phase → Nat
  | .awaiting _ _ _ => 1
  | .idle | .taking | .applying _ _ | .concluding _ _ | .adopting _ _ | .resolving _ _ | .stopped
  | .died => 0

/-- Whether no batch is in progress. That of a worker that has died never ends. -/
def isBetween : Phase → Bool
  | .idle | .taking | .stopped => true
  | .applying _ _ | .awaiting _ _ _ | .concluding _ _ | .adopting _ _ | .resolving _ _
  | .died => false

/-- Requests are told nothing but how their batch has ended. -/
def TellsOutcome : Phase → Prop
  | .resolving answer _ => answer.isOutcome = true
  | _ => True

end Phase

theorem Answer.isServed_of_isOutcome {answer : Answer} (outcome : answer.isOutcome = true) :
    answer.isServed = true ∧ answer.isFailed = false := by
  cases answer with
  | committed | rolledBack => exact ⟨rfl, rfl⟩
  | failed | shutDown => cases outcome

def StoreMeters.rollbacks (meters : StoreMeters) : Nat := meters.conflicts + meters.storeFailures

namespace PoolStore

/-- A worker that is not in the middle of a batch owes nothing. -/
theorem owes_nothing {store : PoolStore} (between : store.phase.isBetween = true) :
    store.phase.uncommitted = 0 ∧ store.inHand.length = 0 ∧ store.phase.inFlight = 0 ∧
      store.phase ≠ .died := by
  unfold inHand
  cases phase : store.phase with
  | idle | taking | stopped => exact ⟨rfl, rfl, rfl, nofun⟩
  | applying | awaiting | concluding | adopting | resolving | died =>
      rw [phase] at between
      cases between

/-- Nothing is counted on one side alone: what a step adds to a count it adds to the one beside it, or
the phase tells what is missing. A worker that has died takes no step. -/
structure Tally (store next : PoolStore) (around after : Surroundings) : Prop where
  sampled : after.meters.batches + around.meters.batchSizes.length =
    around.meters.batches + after.meters.batchSizes.length
  timed : after.meters.timedCommits + around.meters.commits =
    around.meters.timedCommits + after.meters.commits
  committed : after.meters.batches + around.meters.commits + store.phase.uncommitted =
    around.meters.batches + after.meters.commits + next.phase.uncommitted
  served : next.phase ≠ .died →
    after.meters.batchSizes.sum + countAnswers Answer.isServed around.answers +
        store.inHand.length =
      around.meters.batchSizes.sum + countAnswers Answer.isServed after.answers +
        next.inHand.length
  failed : after.meters.mutationFailures + countAnswers Answer.isFailed around.answers =
    around.meters.mutationFailures + countAnswers Answer.isFailed after.answers
  rolledBack : after.meters.invalidations + around.meters.rollbacks =
    around.meters.invalidations + after.meters.rollbacks
  emptied : after.cache.invalidations + around.meters.invalidations =
    around.cache.invalidations + after.meters.invalidations
  alive : store.phase ≠ .died
  outcome : next.phase.TellsOutcome

variable {store next : PoolStore} {around after : Surroundings} {batchSize : Nat} {isShutDown : Bool}

/-- A step that counts nothing. -/
theorem Tally.silent (meters : after.meters = around.meters) (answers : after.answers = around.answers)
    (cache : after.cache = around.cache)
    (uncommitted : next.phase.uncommitted = store.phase.uncommitted)
    (inHand : next.inHand.length = store.inHand.length)
    (alive : store.phase ≠ .died) (outcome : next.phase.TellsOutcome) :
    Tally store next around after := by
  refine ⟨?_, ?_, ?_, ?_, ?_, ?_, ?_, alive, outcome⟩ <;>
    simp only [meters, answers, cache, uncommitted, inHand, Nat.add_comm, implies_true]

theorem tally_take {requests : List Request} {waiting : List Request}
    (taking : store.phase = .taking) :
    Tally store
      { store with
        queue := { store.queue with waiting }
        phase := .applying (.start store.snapshot) requests }
      around (around.countBatch requests.length) := by
  refine ⟨?_, ?_, ?_, ?_, ?_, ?_, ?_, ?_, trivial⟩ <;>
    simp [Surroundings.countBatch, StoreMeters.addBatch, StoreMeters.commits, StoreMeters.rollbacks,
      Phase.uncommitted, inHand, taking, Batch.start] <;>
    omega

theorem tally_refuse {batch : Batch} {request : Request} {rest : List Request}
    {failure : MutationFailure} (applying : store.phase = .applying batch (request :: rest)) :
    Tally store { store with phase := .applying batch rest } around
      (around.fail request.id failure) := by
  refine ⟨?_, ?_, ?_, ?_, ?_, ?_, ?_, ?_, trivial⟩ <;>
    simp [Surroundings.fail, Surroundings.answer, StoreMeters.commits, StoreMeters.rollbacks,
      countAnswers_append, countAnswers_single, Answer.isServed, Answer.isShutDown, Answer.isFailed,
      Phase.uncommitted, inHand, applying] <;>
    omega

theorem tally_conclude {batch : Batch} {conclusion : Conclusion}
    (concluding : store.phase = .concluding batch conclusion) :
    Tally store { store with phase := .adopting batch conclusion } around
      (around.conclude conclusion) := by
  refine ⟨?_, ?_, ?_, ?_, ?_, ?_, ?_, ?_, trivial⟩ <;> cases conclusion <;>
    simp [Surroundings.conclude, Surroundings.countCommit, Surroundings.invalidate,
      TokenCache.invalidate, Conclusion.isCommitted, Conclusion.outcome, StoreMeters.timeCommit,
      StoreMeters.addCommit, StoreMeters.commits, StoreMeters.rollbacks, Phase.uncommitted, inHand,
      concluding] <;>
    omega

theorem tally_resolve {answer : Answer} {request : Nat} {rest : List Nat}
    (resolving : store.phase = .resolving answer (request :: rest))
    (outcome : answer.isOutcome = true) :
    Tally store { store with phase := .resolving answer rest } around
      (around.answer request answer) := by
  obtain ⟨served, failed⟩ := Answer.isServed_of_isOutcome outcome
  refine ⟨?_, ?_, ?_, ?_, ?_, ?_, ?_, ?_, outcome⟩ <;>
    simp [Surroundings.answer, countAnswers_append, countAnswers_single, served, failed,
      Phase.uncommitted, inHand, resolving]
  omega

theorem tally_die {batch : Batch} (applying : store.phase = .applying batch []) :
    Tally store { store with phase := .died } around
      { around with
        answers := around.answers ++ batch.pending.map fun request => (request, .shutDown) } := by
  have unserved : countAnswers Answer.isFailed
      (batch.pending.map fun request => (request, Answer.shutDown)) = 0 := by
    simp [countAnswers, Answer.isFailed]
  refine ⟨?_, ?_, ?_, ?_, ?_, ?_, ?_, ?_, trivial⟩ <;>
    simp [countAnswers_append, unserved, Phase.uncommitted, applying]

theorem Turn.tally (turn : Turn (store, around) (next, after)) (outcome : store.phase.TellsOutcome) :
    Tally store next around after := by
  cases turn with
  | step now step =>
      cases step with
      | wake idle same =>
          exact .silent rfl rfl rfl (by simp [idle, Phase.uncommitted]) (by simp [inHand, idle])
            (by simp [idle]) trivial
      | rest taking passed =>
          rcases passed with rfl | rfl <;>
            exact .silent rfl rfl rfl (by simp [taking, Phase.uncommitted])
              (by simp [inHand, taking]) (by simp [taking]) trivial
      | take requests waiting taking split some => exact tally_take taking
      | accept applying accepted =>
          refine .silent rfl rfl rfl (by simp [applying, Phase.uncommitted]) ?_
            (by simp [applying]) trivial
          simp [inHand, applying]
      | refuse applying refused => exact tally_refuse applying
      | abandon applying quiet | send applying storable quiet =>
          exact .silent rfl rfl rfl (by simp [applying, Phase.uncommitted])
            (by simp [inHand, applying]) (by simp [applying]) trivial
      | conclude concluding => exact tally_conclude concluding
      | @adopt _ _ _ conclusion adopting =>
          exact .silent rfl rfl rfl (by simp [adopting, Phase.uncommitted])
            (by simp [inHand, adopting]) (by simp [adopting])
            (Answer.isOutcome_ofCommit conclusion.isCommitted)
      | finish resolving =>
          exact .silent rfl rfl rfl (by simp [resolving, Phase.uncommitted])
            (by simp [inHand, resolving]) (by simp [resolving]) trivial
      | resolve resolving =>
          rw [resolving] at outcome
          exact tally_resolve resolving outcome
  | answered applying storable records reply =>
      exact .silent rfl rfl rfl (by simp [applying, Phase.uncommitted])
        (by simp [inHand, applying]) (by simp [applying]) trivial
  | die applying => exact tally_die applying

/-- The end of an update, however it comes, is counted by nobody but the client. -/
theorem tally_concluding {batch : Batch} {conclusion : Conclusion} {change : Record} {delay : Nat}
    {client : Client} (awaiting : store.phase = .awaiting batch change delay) :
    Tally store { store with phase := .concluding batch conclusion } around
      { around with client } :=
  .silent rfl rfl rfl (by simp [awaiting, Phase.uncommitted]) (by simp [inHand, awaiting])
    (by simp [awaiting]) trivial

end PoolStore

/-! ### Updates -/

theorem CallCount.total_add (count : CallCount) (succeeded : Bool) :
    (count.add succeeded).total = count.total + 1 := by
  cases succeeded <;> simp only [add, total, Bool.false_eq_true, if_true, if_false] <;> omega

namespace Client

variable {client : Client}

theorem Direct.startUpdate (direct : client.Direct) (changes : List Record) :
    ∃ delay later, client.startUpdate changes = (.started delay, later) ∧ later.Direct ∧
      later.meters = client.meters ∧
      later.backend.updateCalls = client.backend.updateCalls + 1 := by
  unfold Client.startUpdate Backend.startUpdate
  simp only [direct.internal, direct.foreign, Nat.lt_irrefl, if_false]
  exact ⟨_, _, rfl, ⟨direct.internal, direct.foreign⟩, rfl, rfl⟩

theorem Direct.finishUpdate (direct : client.Direct) (changes : List Record) :
    ∃ result later, client.finishUpdate changes = (result, later) ∧ later.Direct ∧
      later.meters.update.total = client.meters.update.total + 1 ∧
      later.backend.updateCalls = client.backend.updateCalls := by
  have counted : ∀ succeeded,
      (client.meters.add .update succeeded).update.total = client.meters.update.total + 1 :=
    fun succeeded => client.meters.update.total_add succeeded
  unfold Client.finishUpdate record Backend.finishUpdate
  dsimp only
  split
  · exact ⟨_, _, rfl, ⟨direct.internal, direct.foreign⟩, counted _, rfl⟩
  · split <;> exact ⟨_, _, rfl, ⟨direct.internal, direct.foreign⟩, counted _, rfl⟩

end Client

namespace PoolStore

/-- Every update is counted by the client when it ends, is given up, or is told by the phase. -/
structure Dues (store next : PoolStore) (client later : Client) (givenUp : Nat) : Prop where
  direct : later.Direct
  settled : later.meters.update.total + givenUp + next.phase.inFlight +
      client.backend.updateCalls =
    client.meters.update.total + store.phase.inFlight + later.backend.updateCalls

variable {store next : PoolStore} {around after : Surroundings} {batchSize : Nat} {isShutDown : Bool}

theorem Dues.same (direct : around.client.Direct) (client : after.client = around.client)
    (inFlight : next.phase.inFlight = store.phase.inFlight) :
    Dues store next around.client after.client 0 := by
  refine ⟨client ▸ direct, ?_⟩
  rw [client, inFlight, Nat.add_zero]

theorem dues_commit {batch : Batch} (direct : around.client.Direct)
    (applying : store.phase = .applying batch []) :
    Dues store (store.commit batch around).1 around.client (store.commit batch around).2.client
      0 := by
  unfold commit
  split
  · exact .same direct rfl (by simp [applying, Phase.inFlight])
  · split
    · rw [foldl_answer]
      exact ⟨direct, by simp [applying, Phase.inFlight]⟩
    · rename_i now _
      obtain ⟨delay, later, started, kept, meters, calls⟩ := direct.startUpdate [batch.change now]
      simp only [send, started]
      refine ⟨kept, ?_⟩
      simp only [meters, calls, applying, Phase.inFlight]
      omega

/-- No update is started or ended before all requests of a batch have been applied. -/
theorem Step.inFlight {now : Timestamp} (step : Step now (store, around) (next, after))
    (other : ∀ batch, store.phase ≠ .applying batch []) :
    after.client = around.client ∧ next.phase.inFlight = store.phase.inFlight := by
  cases step with
  | abandon applying | send applying => exact absurd applying (other _)
  | wake here | accept here | refuse here | adopt here | finish here | resolve here =>
      exact ⟨rfl, by simp [here, Phase.inFlight]⟩
  | take requests waiting taking => exact ⟨rfl, by simp [taking, Phase.inFlight]⟩
  | rest taking passed =>
      rcases passed with rfl | rfl <;> exact ⟨rfl, by simp [taking, Phase.inFlight]⟩
  | @conclude _ _ _ conclusion concluding =>
      exact ⟨(around.conclude_frame conclusion).2.1, by simp [concluding, Phase.inFlight]⟩

theorem dues_step (direct : around.client.Direct)
    (stepped : step? batchSize isShutDown (store, around) = some (next, after)) :
    Dues store next around.client after.client 0 := by
  by_cases committing : ∃ batch, store.phase = .applying batch []
  · obtain ⟨batch, applying⟩ := committing
    have dues := dues_commit direct applying
    simp only [step?, applying, Option.some.injEq] at stepped
    rwa [stepped] at dues
  · rcases step_or_commit default stepped with step | ⟨batch, applying, -⟩
    · obtain ⟨client, inFlight⟩ := step.inFlight fun batch applying => committing ⟨batch, applying⟩
      exact .same direct client inFlight
    · exact absurd ⟨batch, applying⟩ committing

theorem dues_finishUpdate (direct : around.client.Direct)
    (finished : finishUpdate? (store, around) = some (next, after)) :
    Dues store next around.client after.client 0 := by
  obtain ⟨batch, change, delay, -, -, awaiting, -⟩ := end_of_finishUpdate? finished
  obtain ⟨result, later, ended, kept, counted, calls⟩ := direct.finishUpdate [change]
  simp only [finishUpdate?, awaiting, ended, Option.some.injEq, Prod.mk.injEq] at finished
  obtain ⟨rfl, rfl⟩ := finished
  refine ⟨kept, ?_⟩
  simp only [counted, calls, awaiting, Phase.inFlight]

theorem dues_abandonUpdate (direct : around.client.Direct)
    (abandoned : abandonUpdate? (store, around) = some (next, after)) :
    Dues store next around.client after.client 1 := by
  obtain ⟨batch, change, delay, -, awaiting, -⟩ := end_of_abandonUpdate? abandoned
  simp only [abandonUpdate?, awaiting, Option.some.injEq, Prod.mk.injEq] at abandoned
  obtain ⟨rfl, rfl⟩ := abandoned
  refine ⟨⟨direct.internal, direct.foreign⟩, ?_⟩
  simp only [Client.abandonUpdate, Backend.abandonUpdate, awaiting, Phase.inFlight]

end PoolStore

end ClaimStore
