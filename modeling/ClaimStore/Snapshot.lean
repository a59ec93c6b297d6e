import ClaimStore.Record
import ClaimStore.Storage.Shape

/-!
What is known of a stored pool: its state and the version under which it is stored.
-/
namespace ClaimStore

/-- The last known state of a pool. With `Version.invalid` the state is known but not its version,
so that a change that expects this version is refused. -/
structure Snapshot where
  version : Version
  key : PoolKey
  state : PoolState
  deriving DecidableEq, Inhabited

namespace Snapshot

def ofRecord (key : PoolKey) (record : Record) : Except Storage.DecodeError Snapshot :=
  (Storage.poolFormat.decode (.ofChunks [record.value])).1.map fun state =>
    ⟨record.version, key, state⟩

def record (snapshot : Snapshot) (modified : Timestamp) : Record :=
  ⟨snapshot.key.text, Storage.poolFormat.encode snapshot.state, snapshot.version, modified⟩

/-- Keeps the state and forgets its version. -/
def forgetVersion (snapshot : Snapshot) : Snapshot := { snapshot with version := .invalid }

end Snapshot

end ClaimStore
