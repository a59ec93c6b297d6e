import ClaimStore.Client
import ClaimStore.Snapshot

/-!
Loading the state of a pool.

The record of the pool is read, or created with the empty pool if there is none. Attempts that fail
are repeated after a pause, as a retry policy allows. Others may use the record store between any
two steps.
-/
namespace ClaimStore

/-- Why there is no store for a pool. A pool without a record needs one for the empty state, which
may be too long to be stored. -/
inductive LoadError
  | unstorable (key : PoolKey) (source : Storage.EncodeError)
  | unread (key : PoolKey) (source : ReadError)
  | undecodable (key : PoolKey) (source : Storage.DecodeError)
  | shutDown
  deriving DecidableEq

/-- The text of an error. There is none where the reader of a payload would have to say more. -/
def LoadError.message? : LoadError → Option String
  | .unstorable key source =>
      some ("failed encoding initial state of pool '" ++ key.text ++ "': " ++ source.message)
  | .unread key source =>
      some ("failed loading state of pool '" ++ key.text ++ "': " ++ source.message)
  | .undecodable key source =>
      source.message?.map fun cause =>
        "failed decoding stored state of pool '" ++ key.text ++ "': " ++ cause
  | .shutDown => some "claim state store registry has been shut down"

/-- A load under way: the next step of its attempt, and its place in the retry policy. Fewer than 2^64
attempts are made for one load. -/
structure Load where
  key : PoolKey
  request : ReadRequest
  phase : ReadPhase
  cursor : RetryCursor

/-- What a step of a load leads to. A pause comes before the next attempt, and there is no going on
if its length cannot be computed. -/
inductive LoadStep
  | continued (load : Load)
  | paused (load : Load) (length : Duration)
  | ended (result : Except LoadError Snapshot)
  | impossible

namespace Load

/-- A load that starts now. -/
def start (key : PoolKey) (now : Timestamp) (policy : RetryPolicy) : Load where
  key
  request := ⟨key.text, Storage.poolFormat.encode (.empty key), now⟩
  phase := .reading
  cursor := .start policy

def decode (load : Load) (record : Record) : Except LoadError Snapshot :=
  match Snapshot.ofRecord load.key record with
  | .ok snapshot => .ok snapshot
  | .error source => .error (.undecodable load.key source)

def recover (draw : Draw) (load : Load) (error : ReadError) : LoadStep :=
  match load.cursor.recover draw error.retryable with
  | .giveUp => .ended (.error (.unread load.key error))
  | .impossible => .impossible
  | .retry cursor length => .paused { load with phase := .reading, cursor } length

def step (draw : Draw) (load : Load) (client : Client) : LoadStep × Client :=
  match client.readStep load.request load.phase with
  | (.continued phase, after) => (.continued { load with phase }, after)
  | (.ended (.ok record), after) => (.ended (load.decode record), after)
  | (.ended (.error error), after) => (load.recover draw error, after)

end Load

end ClaimStore
