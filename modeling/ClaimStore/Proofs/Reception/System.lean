import ClaimStore.Proofs.Fleet.System

/-!
The callers of one registry.

Any number of callers ask for stores at the same time. Every pool has a cell, which one caller at a
time may try to fill, and which is filled once. Who finds it taken waits, and tries it again when
the one who has taken it has failed. A store with its worker is created in one step together with
the look at whether there has been a shutdown; the cell is filled after that.

Which stores have been created, and which updates have been sent and have neither ended nor been
given up, is kept for the record; nothing that happens depends on it.
-/
namespace ClaimStore

/-- What the holder of an empty cell starts. It does not look whether there has been a shutdown. -/
def Registry.beginLoad (registry : Registry) (key : PoolKey) : LoadStart :=
  if !Storage.poolFormat.isStorable (.empty key) then .failed (.unstorable key .tooLong)
  else
    match registry.clock with
    | some now => .loading (.start key now registry.options.loadPolicy)
    | none => .timeless

theorem Registry.startLoad_eq (registry : Registry) (key : PoolKey) :
    registry.startLoad key =
      if registry.isShutDown then .failed .shutDown
      else ((registry.find? key).map LoadStart.loaded).getD (registry.beginLoad key) := by
  cases registry.isShutDown.eq_false_or_eq_true with
  | inl isDown => simp [startLoad, isDown]
  | inr isUp =>
      cases found : registry.find? key with
      | none =>
          cases clock : registry.clock <;>
            simp only [startLoad, beginLoad, isUp, found, clock, Bool.false_eq_true, if_false,
              Option.map_none, Option.getD_none]
      | some store => simp [startLoad, isUp, found]

/-- The change that the worker has sent, while it waits for the end of the update. -/
def PoolStore.flight? (store : PoolStore) : Option Record :=
  match store.phase with
  | .awaiting _ change _ => some change
  | _ => none

/-- Nobody is about to fill a cell, a caller is, or it holds the store that was created at a place
in the order of creation. -/
inductive Cell
  | vacant
  | taken (call : Nat)
  | filled (place : Nat)
  deriving DecidableEq

/-- How far a caller has come: it has to get at the cell, its load is under way or has found the
pool, it has created a store that is not in the cell yet, it has been given the store that was
created at a place, it has been told that there is none, it has failed, or it has gone. -/
inductive Call
  | waiting (key : PoolKey)
  | loading (key : PoolKey) (loading : Loading)
  | settling (key : PoolKey) (place : Nat)
  | served (key : PoolKey) (place : Nat)
  | missed (key : PoolKey)
  | refused (key : PoolKey) (error : LoadError)
  | gone (key : PoolKey)

/-- A registry with its callers and the client of its record store. Of every store that has been
created, its pool and the caller who created it are kept, in the order of creation. A request bears
the number of those before it. -/
structure Reception where
  registry : Registry
  client : Client
  cells : Table PoolKey Cell
  calls : List Call
  created : List (PoolKey × Nat)
  flights : List Record
  requests : Nat

/-- What happens at a registry: somebody asks for a store, with or without having it loaded, goes to
the cell, loads, creates the store, puts it into the cell, or goes away; somebody who has been
served queues a request or triggers the worker; a worker acts, hears of the end of its update or
gives it up; the registry is shut down, or others use the record store and the clock moves. -/
inductive ReceptionAct
  | ask (key : PoolKey)
  | look (key : PoolKey)
  | enter (call : Nat)
  | load (call : Nat) (draw : Draw)
  | install (call : Nat)
  | settle (call : Nat)
  | leave (call : Nat)
  | push (call : Nat) (mutation : Mutation)
  | notify (call : Nat)
  | work (key : PoolKey)
  | finishUpdate (key : PoolKey)
  | abandonUpdate (key : PoolKey)
  | shutDown
  | others (client : Client) (clock : Option Timestamp)

/-- The updates that are under way after a worker has acted. -/
def noteFlights (flights : List Record) (before after : Option PoolStore) : List Record :=
  flights.diff (before.bind PoolStore.flight?).toList ++ (after.bind PoolStore.flight?).toList

namespace Reception

def start (registry : Registry) (client : Client) : Reception where
  registry
  client
  cells := .empty
  calls := []
  created := []
  flights := []
  requests := 0

def cell (reception : Reception) (key : PoolKey) : Cell :=
  (reception.cells.find? key).getD .vacant

def setCall (reception : Reception) (index : Nat) (call : Call) : Reception :=
  { reception with calls := reception.calls.set index call }

def setCell (reception : Reception) (key : PoolKey) (cell : Cell) : Reception :=
  { reception with cells := reception.cells.insert key cell }

/-- The caller moves on, and so does the cell. -/
def move (reception : Reception) (index : Nat) (key : PoolKey) (cell : Cell) (call : Call) :
    Reception :=
  (reception.setCell key cell).setCall index call

def ask (reception : Reception) (key : PoolKey) : Reception :=
  let call : Call := if reception.registry.isShutDown then .refused key .shutDown else .waiting key
  { reception with calls := reception.calls ++ [call] }

def look (reception : Reception) (key : PoolKey) : Reception :=
  let call : Call :=
    match reception.cell key with
    | .filled place => .served key place
    | .vacant | .taken _ => .missed key
  { reception with calls := reception.calls ++ [call] }

def enter (reception : Reception) (index : Nat) : Reception :=
  match reception.calls[index]? with
  | some (.waiting key) =>
      match reception.cell key with
      | .filled place => reception.setCall index (.served key place)
      | .taken _ => reception
      | .vacant =>
          match reception.registry.beginLoad key with
          | .loading load => reception.move index key (.taken index) (.loading key (.underway load))
          | .failed error => reception.setCall index (.refused key error)
          | .loaded _ | .timeless => reception.setCall index (.gone key)
  | _ => reception

def resume (reception : Reception) (index : Nat) (key : PoolKey) : LoadStep → Reception
  | .continued load | .paused load _ => reception.setCall index (.loading key (.underway load))
  | .ended (.ok snapshot) => reception.setCall index (.loading key (.found snapshot))
  | .ended (.error error) => reception.move index key .vacant (.refused key error)
  | .impossible => reception.move index key .vacant (.gone key)

def load (reception : Reception) (index : Nat) (draw : Draw) : Reception :=
  match reception.calls[index]? with
  | some (.loading key (.underway load)) =>
      let (step, client) := load.step draw reception.client
      { reception with client }.resume index key step
  | _ => reception

def install (reception : Reception) (index : Nat) : Reception :=
  match reception.calls[index]? with
  | some (.loading key (.found snapshot)) =>
      match reception.registry.install snapshot with
      | .error error => reception.move index key .vacant (.refused key error)
      | .ok registry =>
          { reception with
            registry
            created := reception.created ++ [(snapshot.key, index)] }.setCall index
              (.settling key reception.created.length)
  | _ => reception

def settle (reception : Reception) (index : Nat) : Reception :=
  match reception.calls[index]? with
  | some (.settling key place) => reception.move index key (.filled place) (.served key place)
  | _ => reception

/-- The caller goes away, and gives the cell free if it has taken it. Between the creation of a
store and the filling of the cell nobody can go away. -/
def leave (reception : Reception) (index : Nat) : Reception :=
  match reception.calls[index]? with
  | some (.waiting key) => reception.setCall index (.gone key)
  | some (.loading key _) => reception.move index key .vacant (.gone key)
  | _ => reception

/-- The pool of the store that a caller has been given. -/
def handle? (reception : Reception) (index : Nat) : Option PoolKey :=
  match reception.calls[index]? with
  | some (.served key _) => some key
  | _ => none

def push (reception : Reception) (index : Nat) (mutation : Mutation) : Reception :=
  match reception.handle? index with
  | none => reception
  | some key =>
      { reception with
        registry := reception.registry.push key ⟨reception.requests, mutation⟩
        requests := reception.requests + 1 }

def notify (reception : Reception) (index : Nat) : Reception :=
  match reception.handle? index with
  | none => reception
  | some key => { reception with registry := reception.registry.notify key }

/-- What a worker has made of the registry and the client, if it could act. -/
def drive (reception : Reception) (key : PoolKey) (result : Option (Registry × Client)) :
    Reception :=
  match result with
  | none => reception
  | some (registry, client) =>
      { reception with
        registry
        client
        flights :=
          noteFlights reception.flights (reception.registry.find? key) (registry.find? key) }

def act (reception : Reception) : ReceptionAct → Reception
  | .ask key => reception.ask key
  | .look key => reception.look key
  | .enter call => reception.enter call
  | .load call draw => reception.load call draw
  | .install call => reception.install call
  | .settle call => reception.settle call
  | .leave call => reception.leave call
  | .push call mutation => reception.push call mutation
  | .notify call => reception.notify call
  | .work key => reception.drive key (reception.registry.step? reception.client key)
  | .finishUpdate key =>
      reception.drive key
        (reception.registry.act? reception.client key PoolStore.finishUpdate?)
  | .abandonUpdate key =>
      reception.drive key
        (reception.registry.act? reception.client key PoolStore.abandonUpdate?)
  | .shutDown => { reception with registry := reception.registry.shutDown }
  | .others client clock =>
      { reception with client, registry := { reception.registry with clock } }

def run (acts : List ReceptionAct) (reception : Reception) : Reception := acts.foldl act reception

end Reception

end ClaimStore
