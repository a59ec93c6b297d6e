import ClaimStore.Record

/-!
A record store in memory, with faults.

Faults are set beforehand, each for a number of calls. An update can take time: it is started and
finished on its own, and can be abandoned between the two, in which case it has no effect.
-/
namespace ClaimStore

/-- Why a call to the store fails. -/
inductive StoreError
  | unavailable (cause : String)
  | notFound (key : String)
  | internal (cause : String)
  deriving DecidableEq

namespace StoreError

def message : StoreError → String
  | .unavailable cause => s!"state store unavailable: {cause}"
  | .notFound key => s!"record '{key}' does not exist"
  | .internal cause => s!"internal error: {cause}"

def retryable : StoreError → Bool
  | .unavailable _ => true
  | _ => false

end StoreError

/-- How many of the next calls are hit by each fault. Updates that meet a foreign mismatch write
nothing and give their own records back, under a key that nobody asked for. -/
structure Faults where
  internalGets : Nat := 0
  failedGets : Nat := 0
  failedCreates : Nat := 0
  lostCreates : Nat := 0
  internalUpdates : Nat := 0
  foreignMismatches : Nat := 0
  failedUpdates : Nat := 0
  deriving DecidableEq

def Faults.total (faults : Faults) : Nat :=
  faults.internalGets + faults.failedGets + faults.failedCreates + faults.lostCreates +
    faults.internalUpdates + faults.foreignMismatches + faults.failedUpdates

/-- The store: its records, the faults ahead, the milliseconds that an update takes, the updates
counted so far, and how many were in flight, now and at most. -/
structure Backend where
  records : Records
  faults : Faults
  updateDelay : Option Nat
  updateCalls : Nat
  inFlight : Nat
  maxInFlight : Nat
  deriving DecidableEq

/-- What becomes of an update when it is started: it is answered at once, or takes so many
milliseconds. -/
inductive UpdateStart
  | answered (result : Except StoreError (List Record))
  | started (delay : Option Nat)

namespace Backend

def empty : Backend := ⟨.empty, {}, none, 0, 0, 0⟩

instance : Inhabited Backend := ⟨empty⟩

def put (backend : Backend) (record : Record) : Backend :=
  { backend with records := backend.records.put record }

def get (backend : Backend) (keys : List String) : Except StoreError Records × Backend :=
  let faults := backend.faults
  if 0 < faults.internalGets then
    (.error (.internal "broken get"),
      { backend with faults := { faults with internalGets := faults.internalGets - 1 } })
  else if 0 < faults.failedGets then
    (.error (.unavailable "injected get failure"),
      { backend with faults := { faults with failedGets := faults.failedGets - 1 } })
  else (.ok (backend.records.select keys), backend)

/-- Creates records and gives the keys that were taken. A lost call gives all keys and stores
nothing. -/
def create (backend : Backend) (records : List Record) :
    Except StoreError (List String) × Backend :=
  let faults := backend.faults
  if 0 < faults.failedCreates then
    (.error (.unavailable "broken create"),
      { backend with faults := { faults with failedCreates := faults.failedCreates - 1 } })
  else if 0 < faults.lostCreates then
    (.ok (records.map Record.key),
      { backend with faults := { faults with lostCreates := faults.lostCreates - 1 } })
  else
    let (taken, after) := backend.records.create records
    (.ok taken, { backend with records := after })

def delete (backend : Backend) (changes : List Record) : List Record × Backend :=
  let (found, records) := backend.records.delete changes
  (found, { backend with records })

/-- The key under which a foreign mismatch is reported. -/
def foreignKey : String := "unrelated"

/-- Starts an update. The delay that holds now is the one of this update. -/
def startUpdate (backend : Backend) (changes : List Record) : UpdateStart × Backend :=
  let faults := backend.faults
  if 0 < faults.internalUpdates then
    (.answered (.error (.internal "broken update")),
      { backend with faults := { faults with internalUpdates := faults.internalUpdates - 1 } })
  else if 0 < faults.foreignMismatches then
    (.answered (.ok (changes.map fun change => { change with key := foreignKey })),
      { backend with faults := { faults with foreignMismatches := faults.foreignMismatches - 1 } })
  else
    let inFlight := backend.inFlight + 1
    (.started backend.updateDelay,
      { backend with
        updateCalls := backend.updateCalls + 1
        inFlight
        maxInFlight := max backend.maxInFlight inFlight })

/-- Ends an update whose delay is over, with the faults and records of now. -/
def finishUpdate (backend : Backend) (changes : List Record) :
    Except StoreError (List Record) × Backend :=
  let faults := backend.faults
  let ended := { backend with inFlight := backend.inFlight - 1 }
  if 0 < faults.failedUpdates then
    (.error (.unavailable "injected update failure"),
      { ended with faults := { faults with failedUpdates := faults.failedUpdates - 1 } })
  else
    match backend.records.update changes with
    | (.error key, _) => (.error (.notFound key), ended)
    | (.ok found, records) => (.ok found, { ended with records })

def abandonUpdate (backend : Backend) : Backend := { backend with inFlight := backend.inFlight - 1 }

/-- An update from its start to its end, with nothing in between. -/
def update (backend : Backend) (changes : List Record) :
    Except StoreError (List Record) × Backend :=
  match backend.startUpdate changes with
  | (.answered result, after) => (result, after)
  | (.started _, after) => after.finishUpdate changes

end Backend

end ClaimStore
