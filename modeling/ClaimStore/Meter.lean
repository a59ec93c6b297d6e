/-!
Meters: what is counted and measured, and how it is read.
-/
namespace ClaimStore

inductive MeterKind
  | counter
  | gauge
  | histogram
  deriving DecidableEq

def MeterKind.name : MeterKind → String
  | .counter => "counter"
  | .gauge => "gauge"
  | .histogram => "histogram"

inductive MeterUnit
  | count
  | seconds
  deriving DecidableEq

def MeterUnit.name : MeterUnit → String
  | .count => "count"
  | .seconds => "seconds"

/-- A meter as it is announced. -/
structure Meter where
  name : String
  kind : MeterKind
  unit : MeterUnit
  description : String
  deriving DecidableEq

/-- What a meter shows. Of a duration only the number of samples is told. -/
inductive Reading
  | counter (name : String) (value : Nat)
  | gauge (name : String) (value : Nat)
  | samples (name : String) (values : List Nat)
  | sampleCount (name : String) (count : Nat)
  deriving DecidableEq

namespace Reading

/-- A counter, which shows only once it has counted something. -/
def ofCount (name : String) (value : Nat) : List Reading :=
  if value = 0 then [] else [.counter name value]

def ofSampleCount (name : String) (count : Nat) : List Reading :=
  if count = 0 then [] else [.sampleCount name count]

end Reading

/-- The calls of the record store. -/
inductive StoreCall
  | get
  | create
  | update
  | delete
  deriving DecidableEq

namespace StoreCall

def all : List StoreCall := [.get, .create, .update, .delete]

def name : StoreCall → String
  | .get => "get"
  | .create => "create"
  | .update => "update"
  | .delete => "delete"

def description : StoreCall → String
  | .update => "conditional update"
  | call => call.name

def totalMeter (call : StoreCall) : Meter where
  name := "tokenpool.state_store_client." ++ call.name ++ ".total"
  kind := .counter
  unit := .count
  description := "State store client " ++ call.description ++ " request count"

def durationMeter (call : StoreCall) : Meter where
  name := "tokenpool.state_store_client." ++ call.name ++ "_duration.seconds"
  kind := .histogram
  unit := .seconds
  description := "State store client " ++ call.description ++ " request duration in seconds"

end StoreCall

/-- How many calls have succeeded and how many have failed. -/
structure CallCount where
  completed : Nat := 0
  failed : Nat := 0
  deriving DecidableEq

namespace CallCount

def add (count : CallCount) (succeeded : Bool) : CallCount :=
  if succeeded then { count with completed := count.completed + 1 }
  else { count with failed := count.failed + 1 }

def total (count : CallCount) : Nat := count.completed + count.failed

def readings (count : CallCount) (call : StoreCall) : List Reading :=
  Reading.ofCount (call.totalMeter.name ++ "\x7bstatus=completed\x7d") count.completed ++
    Reading.ofCount (call.totalMeter.name ++ "\x7bstatus=failed\x7d") count.failed ++
    Reading.ofSampleCount call.durationMeter.name count.total

end CallCount

/-- The calls that a client has made to the end. -/
structure ClientMeters where
  get : CallCount := {}
  create : CallCount := {}
  update : CallCount := {}
  delete : CallCount := {}
  deriving DecidableEq

namespace ClientMeters

def count (meters : ClientMeters) : StoreCall → CallCount
  | .get => meters.get
  | .create => meters.create
  | .update => meters.update
  | .delete => meters.delete

def add (meters : ClientMeters) (call : StoreCall) (succeeded : Bool) : ClientMeters :=
  match call with
  | .get => { meters with get := meters.get.add succeeded }
  | .create => { meters with create := meters.create.add succeeded }
  | .update => { meters with update := meters.update.add succeeded }
  | .delete => { meters with delete := meters.delete.add succeeded }

def readings (meters : ClientMeters) : List Reading :=
  StoreCall.all.flatMap fun call => (meters.count call).readings call

def announced : List Meter :=
  StoreCall.all.flatMap fun call => [call.totalMeter, call.durationMeter]

end ClientMeters

/-- How a batch of requests ends. -/
inductive CommitOutcome
  | committed
  | conflict
  | storeFailure
  deriving DecidableEq

def CommitOutcome.name : CommitOutcome → String
  | .committed => "committed"
  | .conflict => "conflict"
  | .storeFailure => "store_failure"

/-- What the claim stores of a registry have done. The sizes are those of all batches, in order. Of
the commits that have been timed only the number is kept. -/
structure StoreMeters where
  batches : Nat := 0
  batchSizes : List Nat := []
  mutationFailures : Nat := 0
  timedCommits : Nat := 0
  committed : Nat := 0
  conflicts : Nat := 0
  storeFailures : Nat := 0
  invalidations : Nat := 0
  loadedStores : Option Nat := none
  deriving DecidableEq

namespace StoreMeters

/-- The commits of all outcomes. -/
def commits (meters : StoreMeters) : Nat :=
  meters.committed + meters.conflicts + meters.storeFailures

def addBatch (meters : StoreMeters) (size : Nat) : StoreMeters :=
  { meters with batches := meters.batches + 1, batchSizes := meters.batchSizes ++ [size] }

def timeCommit (meters : StoreMeters) : StoreMeters :=
  { meters with timedCommits := meters.timedCommits + 1 }

def addCommit (meters : StoreMeters) : CommitOutcome → StoreMeters
  | .committed => { meters with committed := meters.committed + 1 }
  | .conflict => { meters with conflicts := meters.conflicts + 1 }
  | .storeFailure => { meters with storeFailures := meters.storeFailures + 1 }

def batchMeter : Meter :=
  ⟨"tokenpool.claim_store.batch.total", .counter, .count, "Number of drained request batches"⟩

def batchSizeMeter : Meter :=
  ⟨"tokenpool.claim_store.batch_size", .histogram, .count,
    "Number of requests per drained batch"⟩

def commitMeter : Meter :=
  ⟨"tokenpool.claim_store.commit.total", .counter, .count,
    "Number of batch commits by outcome"⟩

def commitDurationMeter : Meter :=
  ⟨"tokenpool.claim_store.commit_duration.seconds", .histogram, .seconds,
    "Duration of a batch commit against the state store in seconds"⟩

def mutationFailedMeter : Meter :=
  ⟨"tokenpool.claim_store.mutation_failed.total", .counter, .count,
    "Number of requests whose mutation failed or panicked"⟩

def invalidationMeter : Meter :=
  ⟨"tokenpool.claim_store.cache_invalidation.total", .counter, .count,
    "Number of pool cache invalidations after a rolled back batch"⟩

def loadedStoresMeter : Meter :=
  ⟨"tokenpool.claim_store.loaded_stores", .gauge, .count,
    "Number of claim state stores loaded by the registry"⟩

def announced : List Meter :=
  [batchMeter, batchSizeMeter, commitMeter, commitDurationMeter, mutationFailedMeter,
    invalidationMeter, loadedStoresMeter]

def readings (meters : StoreMeters) : List Reading :=
  let outcome (outcome : CommitOutcome) (value : Nat) : List Reading :=
    Reading.ofCount (commitMeter.name ++ "\x7boutcome=" ++ outcome.name ++ "\x7d") value
  Reading.ofCount batchMeter.name meters.batches ++
    (if meters.batchSizes = [] then [] else [.samples batchSizeMeter.name meters.batchSizes]) ++
    outcome .committed meters.committed ++
    outcome .conflict meters.conflicts ++
    outcome .storeFailure meters.storeFailures ++
    Reading.ofSampleCount commitDurationMeter.name meters.timedCommits ++
    Reading.ofCount mutationFailedMeter.name meters.mutationFailures ++
    Reading.ofCount invalidationMeter.name meters.invalidations ++
    (meters.loadedStores.map (Reading.gauge loadedStoresMeter.name)).toList

end StoreMeters

end ClaimStore
