import ClaimStore.Registry
import ClaimStore.Proofs.Ledger

/-!
Several registries that use one record store.

Each of them is asked for the stores of pools, loads them, takes requests, lets its workers act, and
can be shut down at any time. One pool is under watch. Its successive records and the batches of its
workers are kept for the record; nothing that happens depends on them.
-/
namespace ClaimStore

theorem Table.insert_insert {κ α : Type} [DecidableEq κ] (table : Table κ α) (key : κ)
    (first second : α) : (table.insert key first).insert key second = table.insert key second := by
  suffices same : ∀ entries : List (κ × α),
      insertIn key second (insertIn key first entries) = insertIn key second entries from
    congrArg Table.mk (same table.entries)
  intro entries
  induction entries with
  | nil => simp [insertIn]
  | cons entry rest ih =>
      by_cases here : entry.1 = key
      · simp [insertIn, here]
      · simp [insertIn, here, ih]

namespace Registry

def isOpen (registry : Registry) (key : PoolKey) : Bool :=
  (registry.find? key).any fun store => !store.queue.isClosed

/-- Queues a request at a store, or answers it at once if the queue is closed. The worker is not
triggered yet. -/
def push (registry : Registry) (key : PoolKey) (request : Request) : Registry :=
  match registry.find? key with
  | none => registry
  | some store =>
      match store.push? request with
      | none => registry.answer request.id .shutDown
      | some next => { registry with stores := registry.stores.insert key next }

def notify (registry : Registry) (key : PoolKey) : Registry :=
  match registry.find? key with
  | none => registry
  | some store => { registry with stores := registry.stores.insert key store.trigger }

theorem enqueue_eq (registry : Registry) (key : PoolKey) (request : Request) :
    registry.enqueue key request =
      if registry.isOpen key then (registry.push key request).notify key
      else registry.push key request := by
  cases found : registry.find? key with
  | none => simp [enqueue, isOpen, push, found]
  | some store =>
      cases closed : store.queue.isClosed with
      | true =>
          simp [enqueue, isOpen, push, found, closed, PoolStore.enqueue?, PoolStore.push?,
            RequestQueue.push?]
      | false =>
          have same : ∀ next, { registry with stores := registry.stores.insert key next }.find? key =
              some next := by
            intro next
            simp [find?, Table.find?_insert]
          simp [enqueue, isOpen, push, notify, found, same, closed, PoolStore.enqueue?,
            PoolStore.push?, RequestQueue.push?, Table.insert_insert]

end Registry

/-- How far the load of a pool has come: it is under way, or the state has been found and the store
is not there yet. -/
inductive Loading
  | underway (load : Load)
  | found (snapshot : Snapshot)

/-- The load that is there when somebody has asked for a store that is not. -/
def LoadStart.loading? : LoadStart → Option Loading
  | .loading load => some (.underway load)
  | .failed _ | .loaded _ | .timeless => none

/-- The load that is there after a step. -/
def LoadStep.loading? : LoadStep → Option Loading
  | .continued load | .paused load _ => some (.underway load)
  | .ended (.ok snapshot) => some (.found snapshot)
  | .ended (.error _) | .impossible => none

/-- A registry with its loads, and the log of its worker for the pool under watch. -/
structure Member where
  registry : Registry
  loads : Table PoolKey Loading
  log : Log

/-- What happens at a registry: somebody asks for a store, a load goes on, ends with its store or is
given up, a request is queued, a worker is triggered, acts, hears of the end of its update or gives
it up, the registry is shut down, or the clock moves. -/
inductive MemberAct
  | ask (key : PoolKey) (hasWaited : Bool)
  | load (key : PoolKey) (draw : Draw)
  | install (key : PoolKey)
  | leave (key : PoolKey)
  | push (key : PoolKey) (mutation : Mutation)
  | notify (key : PoolKey)
  | work (key : PoolKey)
  | finishUpdate (key : PoolKey)
  | abandonUpdate (key : PoolKey)
  | shutDown
  | tick (now : Timestamp)

def Log.noteAt (log : Log) (before after : Option PoolStore) : Log :=
  match before, after with
  | some before, some after => log.note before after
  | _, _ => log

namespace Member

def start (registry : Registry) : Member := ⟨registry, .empty, .empty⟩

/-- Starts a load, unless there is one. Somebody who has waited for another load does not look again
whether there has been a shutdown. -/
def ask (member : Member) (key : PoolKey) (hasWaited : Bool) : Member :=
  if member.loads.contains key then member
  else
    let registry := { member.registry with isShutDown := member.registry.isShutDown && !hasWaited }
    match registry.startLoad key with
    | .loading load => { member with loads := member.loads.insert key (.underway load) }
    | _ => member

def resume (member : Member) (key : PoolKey) : LoadStep → Member
  | .continued next | .paused next _ =>
      { member with loads := member.loads.insert key (.underway next) }
  | .ended (.ok snapshot) => { member with loads := member.loads.insert key (.found snapshot) }
  | .ended (.error _) | .impossible => { member with loads := member.loads.erase key }

def load (member : Member) (client : Client) (key : PoolKey) (draw : Draw) : Member × Client :=
  match member.loads.find? key with
  | some (.underway load) =>
      let (step, client) := load.step draw client
      (member.resume key step, client)
  | _ => (member, client)

def install (member : Member) (key : PoolKey) : Member :=
  match member.loads.find? key with
  | some (.found snapshot) =>
      let loads := member.loads.erase key
      match member.registry.install snapshot with
      | .error _ => { member with loads }
      | .ok registry => { member with registry, loads }
  | _ => member

def push (watched : PoolKey) (member : Member) (key : PoolKey) (request : Request) : Member :=
  { member with
    registry := member.registry.push key request
    log := if key = watched ∧ member.registry.isOpen key then member.log.enqueue request
      else member.log }

def drive (watched : PoolKey) (member : Member) (client : Client) (key : PoolKey)
    (result : Option (Registry × Client)) : Member × Client :=
  match result with
  | none => (member, client)
  | some (registry, client) =>
      let log :=
        if key = watched then
          member.log.noteAt (member.registry.find? key) (registry.find? key)
        else member.log
      ({ member with registry, log }, client)

theorem ask_log (member : Member) (key : PoolKey) (hasWaited : Bool) :
    (member.ask key hasWaited).log = member.log := by
  simp only [ask]
  split
  · rfl
  · split <;> rfl

theorem ask_registry (member : Member) (pool : PoolKey) (hasWaited : Bool) :
    (member.ask pool hasWaited).registry = member.registry := by
  simp only [ask]
  split
  · rfl
  · split <;> rfl

theorem find?_ask (member : Member) (pool key : PoolKey) (hasWaited : Bool) :
    (member.ask pool hasWaited).loads.find? key =
      if key = pool then
        (member.loads.find? key).or
          (Registry.startLoad
            { member.registry with isShutDown := member.registry.isShutDown && !hasWaited }
            key).loading?
      else member.loads.find? key := by
  by_cases same : key = pool
  · subst same
    rw [if_pos rfl]
    cases found : member.loads.find? key with
    | some loading => simp [ask, Table.contains, found]
    | none =>
        simp only [ask, Table.contains, found, Option.isSome_none, Bool.false_eq_true, if_false,
          Option.none_or]
        cases Registry.startLoad
            { member.registry with isShutDown := member.registry.isShutDown && !hasWaited } key with
        | loading load => simp [LoadStart.loading?, Table.find?_insert]
        | failed | loaded | timeless => exact found
  · rw [if_neg same]
    simp only [ask]
    split
    · rfl
    · split
      · rw [Table.find?_insert, if_neg same]
      · rfl

theorem resume_log (member : Member) (key : PoolKey) (step : LoadStep) :
    (member.resume key step).log = member.log := by
  cases step with
  | continued | paused | impossible => rfl
  | ended result => cases result <;> rfl

theorem resume_registry (member : Member) (key : PoolKey) (step : LoadStep) :
    (member.resume key step).registry = member.registry := by
  cases step with
  | continued | paused | impossible => rfl
  | ended result => cases result <;> rfl

theorem find?_resume (member : Member) (pool key : PoolKey) (step : LoadStep) :
    (member.resume pool step).loads.find? key =
      if key = pool then step.loading? else member.loads.find? key := by
  cases step with
  | continued | paused => exact Table.find?_insert _ _ _ _
  | ended result =>
      cases result with
      | ok snapshot => exact Table.find?_insert _ _ _ _
      | error error => exact Table.find?_erase _ _ _
  | impossible => exact Table.find?_erase _ _ _

theorem load_log (member : Member) (client : Client) (key : PoolKey) (draw : Draw) :
    (member.load client key draw).1.log = member.log := by
  simp only [load]
  split
  · exact member.resume_log key _
  · rfl

theorem install_log (member : Member) (key : PoolKey) : (member.install key).log = member.log := by
  simp only [install]
  split
  · split <;> rfl
  · rfl

/-- What an act makes of the registry and the client. A request gets the next number. -/
def act (watched : PoolKey) (next : Nat) (member : Member) (client : Client) :
    MemberAct → Member × Client
  | .ask key hasWaited => (member.ask key hasWaited, client)
  | .load key draw => member.load client key draw
  | .install key => (member.install key, client)
  | .leave key => ({ member with loads := member.loads.erase key }, client)
  | .push key mutation => (member.push watched key ⟨next, mutation⟩, client)
  | .notify key => ({ member with registry := member.registry.notify key }, client)
  | .work key => member.drive watched client key (member.registry.step? client key)
  | .finishUpdate key =>
      member.drive watched client key (member.registry.act? client key PoolStore.finishUpdate?)
  | .abandonUpdate key =>
      member.drive watched client key (member.registry.act? client key PoolStore.abandonUpdate?)
  | .shutDown => ({ member with registry := member.registry.shutDown }, client)
  | .tick now => ({ member with registry := { member.registry with clock := some now } }, client)

end Member

/-- The registries with the client of their record store, the next number of a request, and the
ledger of the pool under watch. A batch is told by its registry and its place there. -/
structure Fleet where
  key : PoolKey
  client : Client
  members : List Member
  next : Nat
  ledger : Ledger (Nat × Nat)

/-- What happens to the registries: something happens at one of them, or it changes which calls to
the record store will fail and how long updates take. -/
inductive FleetAct
  | member (index : Nat) (act : MemberAct)
  | faults (faults : Faults)
  | delay (delay : Option Nat)

namespace Fleet

def start (key : PoolKey) (client : Client) (registries : List Registry) : Fleet where
  key
  client
  members := registries.map .start
  next := 0
  ledger := ((client.backend.records.find? key.text).map fun record => (record, none)).toList

def stored? (fleet : Fleet) : Option Record := fleet.client.backend.records.find? fleet.key.text

def batch? (fleet : Fleet) (writer : Nat × Nat) : Option Taken :=
  fleet.members[writer.1]?.bind fun member => member.log.batches[writer.2]?

/-- The batch whose update may change the record of the pool under watch. -/
def writer? (fleet : Fleet) (index : Nat) (member : Member) : MemberAct → Option (Nat × Nat)
  | .finishUpdate key =>
      if key = fleet.key then some (index, member.log.batches.length - 1) else none
  | _ => none

/-- The next fleet when one of its members and the client have changed. -/
def update (fleet : Fleet) (index : Nat) (writer? : Option (Nat × Nat)) (result : Member × Client) :
    Fleet :=
  { fleet with
    client := result.2
    members := fleet.members.set index result.1
    next := fleet.next + 1
    ledger :=
      fleet.ledger.note fleet.stored? (result.2.backend.records.find? fleet.key.text) writer? }

def act (fleet : Fleet) : FleetAct → Fleet
  | .member index act =>
      match fleet.members[index]? with
      | none => fleet
      | some member =>
          fleet.update index (fleet.writer? index member act)
            (member.act fleet.key fleet.next fleet.client act)
  | .faults faults =>
      let backend := fleet.client.backend
      let faults := { faults with foreignMismatches := 0 }
      { fleet with client := { fleet.client with backend := { backend with faults } } }
  | .delay updateDelay =>
      let backend := fleet.client.backend
      { fleet with client := { fleet.client with backend := { backend with updateDelay } } }

def run (acts : List FleetAct) (fleet : Fleet) : Fleet := acts.foldl act fleet

/-- The requests whose mutations the stored value reflects, in the order in which they have changed
it. -/
def applied (fleet : Fleet) : List Request := fleet.ledger.applied fleet.batch?

end Fleet

end ClaimStore
