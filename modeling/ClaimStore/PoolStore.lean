import ClaimStore.Batch
import ClaimStore.Queue

/-!
The store of one pool: its queue, its last known state, and how far its worker has come.

Requests may be queued at any time. The worker alone takes them from the queue, and it alone
changes the snapshot.
-/
namespace ClaimStore

/-- What the worker of a pool does next. It waits for a trigger, takes a batch, applies the
mutations of a batch, waits for the update that commits it, records the conclusion, adopts the new
snapshot, and answers the requests. A worker has `stopped` once its queue is closed and empty. It
has `died` if it could not tell the time of a commit. -/
inductive Phase
  | idle
  | taking
  | applying (batch : Batch) (rest : List Request)
  | awaiting (batch : Batch) (change : Record) (delay : Nat)
  | concluding (batch : Batch) (conclusion : Conclusion)
  | adopting (batch : Batch) (conclusion : Conclusion)
  | resolving (answer : Answer) (pending : List Nat)
  | stopped
  | died

namespace Phase

/-- Whether the worker is at work on the queue. A worker that has died never gets out of it. -/
def isDraining : Phase → Bool
  | .idle | .stopped => false
  | _ => true

/-- Whether the worker will do nothing any more. -/
def isOver : Phase → Bool
  | .stopped | .died => true
  | _ => false

end Phase

/-- What the handles of a pool and its worker share. A trigger that comes while the worker is busy
is kept until it waits again, and several of them count as one. -/
structure PoolStore where
  key : PoolKey
  queue : RequestQueue
  isTriggered : Bool
  snapshot : Snapshot
  phase : Phase

namespace PoolStore

def start (snapshot : Snapshot) : PoolStore :=
  { key := snapshot.key, queue := .empty, isTriggered := false, snapshot, phase := .idle }

def isDraining (store : PoolStore) : Bool := store.phase.isDraining

/-- Puts a request into the queue, unless it is closed. -/
def push? (store : PoolStore) (request : Request) : Option PoolStore :=
  (store.queue.push? request).map fun queue => { store with queue }

def trigger (store : PoolStore) : PoolStore := { store with isTriggered := true }

/-- Puts a request into the queue and triggers the worker. The queue may be closed. -/
def enqueue? (store : PoolStore) (request : Request) : Option PoolStore :=
  (store.push? request).map trigger

end PoolStore

end ClaimStore
