import ClaimStore.Backend
import ClaimStore.Meter
import ClaimStore.Request
import ClaimStore.Snapshot

/-!
Batches of requests, committed together.

The mutations of a batch are applied one after the other, and the state that they lead to is stored
in place of the one before the batch. The commit is conditional on the version before the batch, so
it either stores the new state or changes nothing.
-/
namespace ClaimStore

/-- A batch on its way: the snapshot before it, the state after the mutations so far, and the
requests that await the outcome, in order. -/
structure Batch where
  before : Snapshot
  candidate : PoolState
  pending : List Nat
  deriving DecidableEq

/-- How the commit of a batch ended, with the snapshot that is true afterwards. In a conflict it is
the one that the store holds. After a failure of the store it is not known what the store holds, so
the state before the batch is kept without its version. -/
inductive Conclusion
  | committed (snapshot : Snapshot)
  | conflict (snapshot : Snapshot)
  | storeFailure (snapshot : Snapshot)
  deriving DecidableEq

namespace Conclusion

def snapshot : Conclusion → Snapshot
  | .committed snapshot | .conflict snapshot | .storeFailure snapshot => snapshot

def outcome : Conclusion → CommitOutcome
  | .committed _ => .committed
  | .conflict _ => .conflict
  | .storeFailure _ => .storeFailure

def isCommitted (conclusion : Conclusion) : Bool := conclusion.outcome = .committed

end Conclusion

namespace Batch

/-- A batch without requests. -/
def start (before : Snapshot) : Batch := ⟨before, before.state, []⟩

/-- Applies the mutation of a request. If it fails, the batch goes on without the request. -/
def add (batch : Batch) (request : Request) : Except MutationFailure Batch :=
  match request.mutation batch.candidate with
  | .ok candidate => .ok { batch with candidate, pending := batch.pending ++ [request.id] }
  | .error failure => .error failure

def snapshot (batch : Batch) : Snapshot := { batch.before with state := batch.candidate }

def change (batch : Batch) (now : Timestamp) : Record := batch.snapshot.record now

/-- The snapshot after the commit. -/
def committed (batch : Batch) : Snapshot :=
  { batch.snapshot with version := batch.before.version.next }

/-- The conclusion of a commit whose effect on the store is not known. -/
def abandoned (batch : Batch) : Conclusion := .storeFailure batch.before.forgetVersion

/-- The conclusion from the answer of the store. Only a mismatch of the pool's own record counts,
and one that cannot be read is a failure of the store. -/
def conclude (batch : Batch) (result : Except StoreError (List Record)) : Conclusion :=
  match result with
  | .error _ => batch.abandoned
  | .ok mismatches =>
      match mismatches.find? fun record => record.key = batch.before.key.text with
      | none => .committed batch.committed
      | some stored =>
          match Snapshot.ofRecord batch.before.key stored with
          | .ok snapshot => .conflict snapshot
          | .error _ => batch.abandoned

end Batch

end ClaimStore
