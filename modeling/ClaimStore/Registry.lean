import ClaimStore.Config.Options
import ClaimStore.Load
import ClaimStore.Worker

/-!
Registries of pool stores.

A registry loads the store of a pool when it is first asked for, and gives out the same one from
then on. Every store has a worker of its own. After a shutdown no store is loaded any more, and the
workers stop when their queues are empty.
-/
namespace ClaimStore

/-- The loaded stores by their pools, with what they share. The clock may have failed. The answers
to requests are kept in the order in which they were given. -/
structure Registry where
  options : Options
  clock : Option Timestamp
  caches : PoolCaches
  stores : Table PoolKey PoolStore
  isShutDown : Bool
  meters : StoreMeters
  answers : List (Nat × Answer)

/-- What comes of asking for the store of a pool. Without a clock a load cannot even start. -/
inductive LoadStart
  | failed (error : LoadError)
  | loaded (store : PoolStore)
  | loading (load : Load)
  | timeless

namespace Registry

/-- A registry without stores, unless there is a fault in the options. -/
def create (options : Options) (now : Timestamp) : Except Options.Fault Registry :=
  match options.fault? with
  | some fault => .error fault
  | none =>
      .ok
        { options
          clock := some now
          caches := .empty
          stores := .empty
          isShutDown := false
          meters := {}
          answers := [] }

/-- The greatest number of requests that a worker takes at once. -/
def batchSize (registry : Registry) : Nat := registry.options.batchSize

/-- The store of a pool, if it has been loaded. -/
def find? (registry : Registry) (key : PoolKey) : Option PoolStore := registry.stores.find? key

def startLoad (registry : Registry) (key : PoolKey) : LoadStart :=
  if registry.isShutDown then .failed .shutDown
  else
    match registry.find? key with
    | some store => .loaded store
    | none =>
        if !Storage.poolFormat.isStorable (.empty key) then .failed (.unstorable key .tooLong)
        else
          match registry.clock with
          | some now => .loading (.start key now registry.options.loadPolicy)
          | none => .timeless

/-- Adds the store of a pool that has been loaded, unless there has been a shutdown meanwhile. -/
def install (registry : Registry) (snapshot : Snapshot) : Except LoadError Registry :=
  if registry.isShutDown then .error .shutDown
  else
    let stores := registry.stores.insert snapshot.key (.start snapshot)
    .ok
      { registry with
        caches := registry.caches.ensure snapshot.key
        stores
        meters := { registry.meters with loadedStores := some stores.size } }

def answer (registry : Registry) (request : Nat) (answer : Answer) : Registry :=
  { registry with answers := registry.answers ++ [(request, answer)] }

/-- The answer to a request, if it has been given. -/
def answer? (registry : Registry) (request : Nat) : Option Answer :=
  registry.answers.lookup request

/-- Queues a request at a store, which answers it at once if its queue is closed. -/
def enqueue (registry : Registry) (key : PoolKey) (request : Request) : Registry :=
  match registry.find? key with
  | none => registry
  | some store =>
      match store.enqueue? request with
      | none => registry.answer request.id .shutDown
      | some next => { registry with stores := registry.stores.insert key next }

def surroundings (registry : Registry) (client : Client) (key : PoolKey) : Surroundings :=
  { client
    clock := registry.clock
    cache := registry.caches.slice key
    meters := registry.meters
    answers := registry.answers }

/-- Lets the worker of a pool act, if the action is possible. -/
def act? (registry : Registry) (client : Client) (key : PoolKey)
    (action : PoolStore × Surroundings → Option (PoolStore × Surroundings)) :
    Option (Registry × Client) := do
  let store ← registry.find? key
  let (store, around) ← action (store, registry.surroundings client key)
  some
    ({ registry with
        caches := registry.caches.change key fun _ => around.cache
        stores := registry.stores.insert key store
        meters := around.meters
        answers := around.answers },
      around.client)

def step? (registry : Registry) (client : Client) (key : PoolKey) : Option (Registry × Client) :=
  registry.act? client key (PoolStore.step? registry.batchSize registry.isShutDown)

/-- Tells the workers to stop, and refuses loads from now on. -/
def shutDown (registry : Registry) : Registry := { registry with isShutDown := true }

def concludeShutdown (registry : Registry) : Registry :=
  { registry with meters := { registry.meters with loadedStores := some 0 } }

end Registry

end ClaimStore
