import ClaimStore.Registry

/-!
A registry on a timeline of its own.

Time is counted in milliseconds and passes only where nothing else can happen. Workers that may run
do so in the order in which they were woken, each until it waits. An update takes the delay that
holds when it is started, unless the commit timeout ends it before.
-/
namespace ClaimStore

/-- An update that a worker waits for. It ends at a time, by itself or because it took too long. -/
structure Flight where
  key : PoolKey
  ends : Nat
  isAbandoned : Bool
  deriving DecidableEq

/-- The registry with the client of its record store, the workers that may run, the updates in
flight in the order in which they were started, and the requests whose answers have not been
fetched. -/
structure Timeline where
  client : Client
  registry : Registry
  now : Nat
  ready : List PoolKey
  flights : List Flight
  requests : Nat
  unfetched : List Nat

/-- How loading a store ended. There is no result if the load broke down, for want of a clock or
because a pause could not be computed. -/
abbrev LoadResult := Option (Except LoadError PoolStore)

namespace Timeline

def start (client : Client) (registry : Registry) : Timeline :=
  { client, registry, now := 0, ready := [], flights := [], requests := 0, unfetched := [] }

/-- Lets a worker run when its turn comes, unless it waits for an update or is over. -/
def wake (timeline : Timeline) (key : PoolKey) : Timeline :=
  match timeline.registry.find? key with
  | some { phase := .idle, .. } =>
      if key ∈ timeline.ready then timeline
      else { timeline with ready := timeline.ready ++ [key] }
  | _ => timeline

/-- The flight of an update that is started now. If both end at the same time, the update is in
time. -/
def flight (timeline : Timeline) (key : PoolKey) (delay : Nat) : Flight :=
  let patience := timeline.registry.options.commitTimeout.ceilMillis
  { key, ends := timeline.now + min delay patience, isAbandoned := patience < delay }

def board (timeline : Timeline) (key : PoolKey) : Timeline :=
  match timeline.registry.find? key with
  | some { phase := .awaiting _ _ delay, .. } =>
      { timeline with flights := timeline.flights ++ [timeline.flight key delay] }
  | _ => timeline

/-- Lets a worker act, if the action is possible. -/
def act (timeline : Timeline) (key : PoolKey)
    (action : PoolStore × Surroundings → Option (PoolStore × Surroundings)) : Timeline :=
  match timeline.registry.act? timeline.client key action with
  | none => timeline
  | some (registry, client) => { timeline with registry, client }

def run (timeline : Timeline) (key : PoolKey) : Timeline :=
  let registry := timeline.registry
  (timeline.act key fun state =>
    some (PoolStore.run registry.batchSize registry.isShutDown state)).board key

/-- Runs the workers that may run. None of them wakes another. -/
def settle (timeline : Timeline) : Timeline :=
  timeline.ready.foldl run { timeline with ready := [] }

/-- The flight that ends first, of several the one that was started first. -/
def nextFlight? : List Flight → Option Flight
  | [] => none
  | flight :: rest =>
      match nextFlight? rest with
      | none => some flight
      | some other => some (if other.ends < flight.ends then other else flight)

def land (timeline : Timeline) (flight : Flight) : Timeline :=
  let landed :=
    { timeline with now := flight.ends, flights := timeline.flights.erase flight }
  let action :=
    if flight.isAbandoned then PoolStore.abandonUpdate? else PoolStore.finishUpdate?
  (landed.act flight.key action).run flight.key

/-- Ends flights in the order of their ends, up to a time if one is given. -/
def landAll (until? : Option Nat) : (fuel : Nat) → Timeline → Timeline
  | 0, timeline => timeline
  | fuel + 1, timeline =>
      match nextFlight? timeline.flights with
      | none => timeline
      | some flight =>
          if until?.all (flight.ends ≤ ·) then landAll until? fuel (timeline.land flight)
          else timeline

/-- The flights now, and those that can follow: each of them takes a request from a queue. -/
def flightsAhead (timeline : Timeline) : Nat :=
  timeline.registry.stores.values.foldr (fun store count => store.queue.size + count)
    timeline.flights.length

def sleep (timeline : Timeline) (millis : Nat) : Timeline :=
  let settled := timeline.settle
  let wakeUp := timeline.now + millis
  { settled.landAll (some wakeUp) settled.flightsAhead with now := wakeUp }

def rest (timeline : Timeline) : Timeline :=
  let settled := timeline.settle
  settled.landAll none settled.flightsAhead

def enqueue (timeline : Timeline) (key : PoolKey) : List Mutation → Timeline
  | [] => timeline
  | mutation :: rest =>
      let request : Request := ⟨timeline.requests, mutation⟩
      let queued : Timeline :=
        { timeline with
          registry := timeline.registry.enqueue key request
          requests := timeline.requests + 1
          unfetched := timeline.unfetched ++ [request.id] }
      (queued.wake key).enqueue key rest

def answers (timeline : Timeline) : List (Nat × Answer) :=
  timeline.unfetched.filterMap fun request =>
    (timeline.registry.answer? request).map fun answer => (request, answer)

/-- Gives no answer to these requests any more. -/
def forget (timeline : Timeline) (requests : List Nat) : Timeline :=
  { timeline with
    unfetched := timeline.unfetched.filter fun request => request ∉ requests }

/-- Fetches the answers that have been given. -/
def fetch (timeline : Timeline) : List (Nat × Answer) × Timeline :=
  (timeline.answers, timeline.forget (timeline.answers.map Prod.fst))

def shutDown (timeline : Timeline) : Timeline :=
  let cancelled := { timeline with registry := timeline.registry.shutDown }
  let woken := cancelled.registry.stores.keys.foldl wake cancelled
  let rested := woken.rest
  { rested with registry := rested.registry.concludeShutdown }

def install (timeline : Timeline) (result : Except LoadError Snapshot) :
    Except LoadError PoolStore × Timeline :=
  match result with
  | .error error => (.error error, timeline)
  | .ok snapshot =>
      match timeline.registry.install snapshot with
      | .error error => (.error error, timeline)
      | .ok registry => (.ok (.start snapshot), { timeline with registry }.wake snapshot.key)

/-- Goes on with a load until it ends or pauses, for at most `fuel` steps. -/
def loadSteps : (fuel : Nat) → Load → Timeline → LoadStep × Timeline
  | 0, load, timeline => (.continued load, timeline)
  | fuel + 1, load, timeline =>
      match load.step .shortest timeline.client with
      | (.continued next, client) => loadSteps fuel next { timeline with client }
      | (step, client) => (step, { timeline with client })

/-- An attempt of a load has at most three steps. -/
def attempt (timeline : Timeline) (load : Load) : LoadStep × Timeline := loadSteps 3 load timeline

/-- Sees a load to its end, in at most `fuel` further attempts. -/
def loadOn : (fuel : Nat) → LoadStep × Timeline → LoadResult × Timeline
  | _, (.ended result, timeline) =>
      let (result, after) := timeline.install result
      (some result, after)
  | fuel + 1, (.paused load length, timeline) =>
      loadOn fuel ((timeline.sleep length.ceilMillis).attempt load)
  | _, (_, timeline) => (none, timeline)

/-- Every attempt that is followed by another one has met a fault, so there are not more attempts
to come than faults. -/
def attemptsAhead (timeline : Timeline) : Nat := timeline.client.backend.faults.total + 1

/-- The store of a pool, which is loaded if need be. While the load pauses, time passes. -/
def load (timeline : Timeline) (key : PoolKey) : LoadResult × Timeline :=
  match timeline.registry.startLoad key with
  | .failed error => (some (.error error), timeline)
  | .loaded store => (some (.ok store), timeline)
  | .timeless => (none, timeline)
  | .loading load => loadOn timeline.attemptsAhead (timeline.attempt load)

/-- The store of a pool, asked for several times at once. One load serves all until it fails; then
the next one tries. -/
def loadAgain (timeline : Timeline) (key : PoolKey) : (times : Nat) →
    List LoadResult × Timeline
  | 0 => ([], timeline)
  | times + 1 =>
      let (first, after) := timeline.load key
      let (rest, last) := after.loadAgain key times
      (first :: rest, last)

/-- A load with a shutdown right after it. A load that ends before its first pause comes first; one
that pauses goes on after the shutdown. -/
def loadAndShutDown (timeline : Timeline) (key : PoolKey) : LoadResult × Timeline :=
  match timeline.registry.startLoad key with
  | .loading load =>
      match timeline.attempt load with
      | (.ended result, after) =>
          let (result, installed) := after.install result
          (some result, installed.shutDown)
      | (step, after) => loadOn timeline.attemptsAhead (step, after.shutDown)
  | _ =>
      let (result, after) := timeline.load key
      (result, after.shutDown)

end Timeline

end ClaimStore
