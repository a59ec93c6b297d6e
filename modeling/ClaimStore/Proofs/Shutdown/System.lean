import ClaimStore.Proofs.Reception

/-!
The shutdown of a registry.

In one step the workers are told to stop and loads are refused. The call then waits for the workers
that there are, and returns when the last of them has come to an end. Meanwhile callers go on asking
for stores and queueing requests.

Of one pool it is kept for the record what has become of its requests; nothing that happens depends
on it.
-/
namespace ClaimStore

/-- The requests of a pool that were queued, the numbers of those that found the queue closed, the
runs of mutations with the states that they were given, and the batches whose commit has been
concluded: the requests that waited for the outcome, and whether it was committed. -/
structure History where
  queued : List Request
  rejected : List Nat
  applied : List (Request × PoolState)
  ended : List (List Nat × Bool)

namespace History

def empty : History := ⟨[], [], [], []⟩

/-- Somebody who has been given the store queues a request. -/
def push (history : History) (request : Request) : Option PoolStore → History
  | none => history
  | some store =>
      if store.queue.isClosed then { history with rejected := history.rejected ++ [request.id] }
      else { history with queued := history.queued ++ [request] }

/-- The worker takes its next step. -/
def work (history : History) (store : PoolStore) : History :=
  match store.phase with
  | .applying batch (request :: _) =>
      { history with applied := history.applied ++ [(request, batch.candidate)] }
  | .concluding batch conclusion =>
      { history with ended := history.ended ++ [(batch.pending, conclusion.isCommitted)] }
  | _ => history

/-- The requests whose mutations have succeeded, in the order in which they were run. -/
def accepted (history : History) : List Nat :=
  (history.applied.filter fun run => (run.1.mutation run.2).isOk).map fun run => run.1.id

end History

/-- The call that shuts a registry down, with the pools for whose workers it waits. -/
inductive ShutdownCall
  | absent
  | waiting (pools : List PoolKey)
  | returned
  deriving DecidableEq

/-- A registry with its callers, the call that shuts it down, and the history of a pool. -/
structure Closing where
  reception : Reception
  call : ShutdownCall
  history : History

/-- What happens at a registry, where the shutdown is that of the call, and the return of the
call. -/
inductive ClosingAct
  | reception (act : ReceptionAct)
  | finish

namespace Closing

def start (registry : Registry) (client : Client) : Closing :=
  ⟨.start registry client, .absent, .empty⟩

def registry (closing : Closing) : Registry := closing.reception.registry

/-- The workers that have been created are those that the call waits for. -/
def callAfter (closing : Closing) : ReceptionAct → ShutdownCall
  | .shutDown =>
      match closing.call with
      | .absent => .waiting (closing.reception.created.map Prod.fst)
      | call => call
  | _ => closing.call

def note (watched : PoolKey) (closing : Closing) : ReceptionAct → History
  | .push index mutation =>
      if closing.reception.handle? index = some watched then
        closing.history.push ⟨closing.reception.requests, mutation⟩
          (closing.registry.find? watched)
      else closing.history
  | .work key =>
      if key = watched then
        ((closing.registry.find? watched).map closing.history.work).getD closing.history
      else closing.history
  | _ => closing.history

/-- Whether the workers of the pools have come to an end. -/
def areOver (closing : Closing) (pools : List PoolKey) : Bool :=
  pools.all fun pool => (closing.registry.find? pool).any fun store => store.phase.isOver

def finish (closing : Closing) : Closing :=
  match closing.call with
  | .waiting pools =>
      if closing.areOver pools then
        { closing with
          reception := { closing.reception with registry := closing.registry.concludeShutdown }
          call := .returned }
      else closing
  | .absent | .returned => closing

def act (watched : PoolKey) (closing : Closing) : ClosingAct → Closing
  | .reception act => ⟨closing.reception.act act, closing.callAfter act, closing.note watched act⟩
  | .finish => closing.finish

def run (watched : PoolKey) (acts : List ClosingAct) (closing : Closing) : Closing :=
  acts.foldl (act watched) closing

end Closing

end ClaimStore
