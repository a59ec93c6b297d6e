import ClaimStore.Cache
import ClaimStore.Client
import ClaimStore.PoolStore

/-!
The worker of a pool, step by step.

Each step is one that others can see: between any two steps requests may be queued, and other
workers may use the record store. A worker that waits takes no step by itself; the end of an update
that it waits for comes from outside.
-/
namespace ClaimStore

/-- What a worker uses besides its own store: the client of the record store, the clock, which may
have failed, the pool's cache, the meters, and the answers given so far, in order. -/
structure Surroundings where
  client : Client
  clock : Option Timestamp
  cache : TokenCache
  meters : StoreMeters
  answers : List (Nat × Answer)

namespace Surroundings

def answer (around : Surroundings) (request : Nat) (answer : Answer) : Surroundings :=
  { around with answers := around.answers ++ [(request, answer)] }

def countBatch (around : Surroundings) (size : Nat) : Surroundings :=
  { around with meters := around.meters.addBatch size }

def fail (around : Surroundings) (request : Nat) (failure : MutationFailure) : Surroundings :=
  let counted :=
    { around.meters with mutationFailures := around.meters.mutationFailures + 1 }
  { around with meters := counted }.answer request (.failed failure)

def countCommit (around : Surroundings) (outcome : CommitOutcome) : Surroundings :=
  { around with meters := around.meters.timeCommit.addCommit outcome }

/-- Empties the cache, since its tokens may have been taken by others. -/
def invalidate (around : Surroundings) : Surroundings :=
  { around with
    cache := around.cache.invalidate
    meters := { around.meters with invalidations := around.meters.invalidations + 1 } }

/-- Records how a batch ended. Nothing is served from the cache any more when the batch was rolled
back. -/
def conclude (around : Surroundings) (conclusion : Conclusion) : Surroundings :=
  let counted := around.countCommit conclusion.outcome
  if conclusion.isCommitted then counted else counted.invalidate

end Surroundings

namespace PoolStore

def send (store : PoolStore) (batch : Batch) (change : Record) (around : Surroundings) :
    PoolStore × Surroundings :=
  match around.client.startUpdate [change] with
  | (.answered result, client) =>
      ({ store with phase := .concluding batch (batch.conclude result) }, { around with client })
  | (.started delay, client) =>
      ({ store with phase := .awaiting batch change (delay.getD 0) }, { around with client })

/-- Starts the commit of a batch. A state that is too long to be stored is not sent. The change
bears the time of now, so without a clock the worker dies, and the requests of the batch are
lost. -/
def commit (store : PoolStore) (batch : Batch) (around : Surroundings) :
    PoolStore × Surroundings :=
  if !Storage.poolFormat.isStorable batch.candidate then
    ({ store with phase := .concluding batch batch.abandoned }, around)
  else
    match around.clock with
    | none =>
        ({ store with phase := .died },
          batch.pending.foldl (fun around request => around.answer request .shutDown) around)
    | some now => store.send batch (batch.change now) around

/-- Takes the next batch. If there is none, the worker waits, or stops if the queue is closed. -/
def take (store : PoolStore) (batchSize : Nat) (around : Surroundings) :
    PoolStore × Surroundings :=
  match store.queue.takeBatch batchSize with
  | ([], _) =>
      ({ store with phase := if store.queue.isClosed then .stopped else .idle }, around)
  | (requests, queue) =>
      ({ store with queue, phase := .applying (.start store.snapshot) requests },
        around.countBatch requests.length)

/-- The next step of the worker, if it does not wait. It waits for a trigger or a shutdown, of
which the shutdown is noticed first, and for the end of an update. -/
def step? (batchSize : Nat) (isShutDown : Bool) :
    PoolStore × Surroundings → Option (PoolStore × Surroundings)
  | (store, around) =>
      match store.phase with
      | .idle =>
          if isShutDown then
            some ({ store with queue := store.queue.close, phase := .taking }, around)
          else if store.isTriggered then
            some ({ store with isTriggered := false, phase := .taking }, around)
          else none
      | .taking => some (store.take batchSize around)
      | .applying batch [] => some (store.commit batch around)
      | .applying batch (request :: rest) =>
          match batch.add request with
          | .ok next => some ({ store with phase := .applying next rest }, around)
          | .error failure =>
              some ({ store with phase := .applying batch rest }, around.fail request.id failure)
      | .awaiting _ _ _ => none
      | .concluding batch conclusion =>
          some ({ store with phase := .adopting batch conclusion }, around.conclude conclusion)
      | .adopting batch conclusion =>
          some
            ({ store with
                snapshot := conclusion.snapshot
                phase := .resolving (.ofCommit conclusion.isCommitted) batch.pending },
              around)
      | .resolving _ [] => some ({ store with phase := .taking }, around)
      | .resolving answer (request :: rest) =>
          some ({ store with phase := .resolving answer rest }, around.answer request answer)
      | .stopped | .died => none

def finishUpdate? : PoolStore × Surroundings → Option (PoolStore × Surroundings)
  | (store, around) =>
      match store.phase with
      | .awaiting batch change _ =>
          let (result, client) := around.client.finishUpdate [change]
          some ({ store with phase := .concluding batch (batch.conclude result) },
            { around with client })
      | _ => none

def abandonUpdate? : PoolStore × Surroundings → Option (PoolStore × Surroundings)
  | (store, around) =>
      match store.phase with
      | .awaiting batch _ _ =>
          some ({ store with phase := .concluding batch batch.abandoned },
            { around with client := around.client.abandonUpdate })
      | _ => none

/-- The next step of the worker, where updates that take no time are finished at once. -/
def promptStep? (batchSize : Nat) (isShutDown : Bool) (state : PoolStore × Surroundings) :
    Option (PoolStore × Surroundings) :=
  match state.1.phase with
  | .awaiting _ _ 0 => finishUpdate? state
  | _ => step? batchSize isShutDown state

/-- A bound on the steps until the worker waits, if nothing is queued meanwhile. -/
def workAhead (store : PoolStore) : Nat :=
  10 * store.queue.size + (if store.isTriggered then 2 else 0) +
    match store.phase with
    | .stopped | .died => 0
    | .idle => 3
    | .taking => if store.queue.isClosed then 2 else 4
    | .applying batch rest => 9 + 2 * rest.length + batch.pending.length
    | .awaiting batch _ _ => 8 + batch.pending.length
    | .concluding batch _ => 7 + batch.pending.length
    | .adopting batch _ => 6 + batch.pending.length
    | .resolving _ pending => 5 + pending.length

/-- Steps until the worker waits, at most `fuel` of them. -/
def runFor (batchSize : Nat) (isShutDown : Bool) :
    (fuel : Nat) → PoolStore × Surroundings → PoolStore × Surroundings
  | 0, state => state
  | fuel + 1, state =>
      match promptStep? batchSize isShutDown state with
      | none => state
      | some next => runFor batchSize isShutDown fuel next

def run (batchSize : Nat) (isShutDown : Bool) (state : PoolStore × Surroundings) :
    PoolStore × Surroundings :=
  runFor batchSize isShutDown state.1.workAhead state

theorem commit_workAhead (store : PoolStore) (batch : Batch) (around : Surroundings)
    (committing : store.phase = .applying batch []) :
    (store.commit batch around).1.workAhead < store.workAhead := by
  unfold commit
  split
  · simp [workAhead, committing]
  · cases around.clock with
    | none => simp only [workAhead, committing]; omega
    | some now =>
        simp only [send]
        split <;> simp [workAhead, committing]

theorem take_workAhead (store : PoolStore) (batchSize : Nat) (around : Surroundings)
    (taking : store.phase = .taking) :
    (store.take batchSize around).1.workAhead < store.workAhead := by
  unfold take
  cases taken : store.queue.takeBatch batchSize with
  | mk requests queue =>
    have parts : (requests ++ queue.waiting).length = store.queue.waiting.length := by
      rw [← store.queue.takeBatch_append batchSize, taken]
    have same : queue.isClosed = store.queue.isClosed := by
      rw [← congrArg (fun result => result.2.isClosed) taken]; rfl
    cases requests with
    | nil => cases closed : store.queue.isClosed <;> simp [workAhead, taking, closed]
    | cons request rest =>
        simp only [List.length_append, List.length_cons] at parts
        simp only [workAhead, taking, RequestQueue.size, Batch.start, List.length_cons,
          List.length_nil]
        cases store.queue.isClosed <;> simp <;> omega

theorem step?_workAhead {batchSize : Nat} {isShutDown : Bool}
    {before after : PoolStore × Surroundings}
    (stepped : step? batchSize isShutDown before = some after) :
    after.1.workAhead < before.1.workAhead := by
  obtain ⟨store, around⟩ := before
  cases phase : store.phase with
  | idle =>
      simp only [step?, phase] at stepped
      split at stepped
      · cases stepped
        simp [workAhead, phase, RequestQueue.close, RequestQueue.size]
      · split at stepped
        · rename_i triggered
          cases stepped
          cases closed : store.queue.isClosed <;> simp [workAhead, phase, triggered, closed]
        · contradiction
  | taking =>
      simp only [step?, phase, Option.some.injEq] at stepped
      subst stepped
      exact take_workAhead store batchSize around phase
  | applying batch rest =>
      cases rest with
      | nil =>
          simp only [step?, phase, Option.some.injEq] at stepped
          subst stepped
          exact commit_workAhead store batch around phase
      | cons request rest =>
          simp only [step?, phase, Batch.add] at stepped
          cases result : request.mutation batch.candidate with
          | error failure =>
              simp only [result, Option.some.injEq] at stepped
              subst stepped
              simp [workAhead, phase]
          | ok candidate =>
              simp only [result, Option.some.injEq] at stepped
              subst stepped
              simp only [workAhead, phase, List.length_cons, List.length_append, List.length_nil]
              omega
  | awaiting batch change delay => simp [step?, phase] at stepped
  | concluding batch conclusion =>
      simp only [step?, phase, Option.some.injEq] at stepped
      subst stepped
      simp [workAhead, phase]
  | adopting batch conclusion =>
      simp only [step?, phase, Option.some.injEq] at stepped
      subst stepped
      simp [workAhead, phase]
  | resolving answer pending =>
      cases pending with
      | nil =>
          simp only [step?, phase, Option.some.injEq] at stepped
          subst stepped
          simp only [workAhead, phase, List.length_nil]
          cases store.queue.isClosed <;> simp
      | cons request rest =>
          simp only [step?, phase, Option.some.injEq] at stepped
          subst stepped
          simp [workAhead, phase]
  | stopped => simp [step?, phase] at stepped
  | died => simp [step?, phase] at stepped

theorem promptStep?_workAhead {batchSize : Nat} {isShutDown : Bool}
    {before after : PoolStore × Surroundings}
    (stepped : promptStep? batchSize isShutDown before = some after) :
    after.1.workAhead < before.1.workAhead := by
  unfold promptStep? at stepped
  split at stepped
  · rename_i batch change phase
    simp only [finishUpdate?, phase, Option.some.injEq] at stepped
    subst stepped
    simp [workAhead, phase]
  · exact step?_workAhead stepped

theorem promptStep?_runFor (batchSize : Nat) (isShutDown : Bool) (fuel : Nat)
    (state : PoolStore × Surroundings) (enough : state.1.workAhead ≤ fuel) :
    promptStep? batchSize isShutDown (runFor batchSize isShutDown fuel state) = none := by
  induction fuel generalizing state with
  | zero =>
      cases step : promptStep? batchSize isShutDown state with
      | none => exact step
      | some next => have := promptStep?_workAhead step; omega
  | succ fuel ih =>
      unfold runFor
      cases step : promptStep? batchSize isShutDown state with
      | none => exact step
      | some next =>
          have := promptStep?_workAhead step
          exact ih next (by omega)

theorem promptStep?_run (batchSize : Nat) (isShutDown : Bool) (state : PoolStore × Surroundings) :
    promptStep? batchSize isShutDown (run batchSize isShutDown state) = none :=
  promptStep?_runFor batchSize isShutDown _ state (Nat.le_refl _)

end PoolStore

end ClaimStore
