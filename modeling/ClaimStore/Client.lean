import ClaimStore.Backend
import ClaimStore.Meter
import ClaimStore.Retry.Loop

/-!
Clients of the record store.

A client counts the calls that it makes to the end. It can get a record and create it if there is
none; it does this in steps, between which others may change the store, and tries again as a retry
policy allows.
-/
namespace ClaimStore

/-- The record store as a client uses it. -/
structure Client where
  backend : Backend
  meters : ClientMeters
  deriving DecidableEq

/-- Why a record can neither be read nor created. -/
inductive ReadError
  | store (error : StoreError)
  | removedConcurrently (key : String)
  deriving DecidableEq

namespace ReadError

def message : ReadError → String
  | .store error => error.message
  | .removedConcurrently key => s!"record '{key}' was removed while being created"

def retryable : ReadError → Bool
  | .store error => error.retryable
  | .removedConcurrently _ => true

end ReadError

/-- A record to read, and the value with which it is created if there is none. -/
structure ReadRequest where
  key : String
  value : Bytes
  modified : Timestamp
  deriving DecidableEq

def ReadRequest.record (request : ReadRequest) : Record :=
  ⟨request.key, request.value, .first, request.modified⟩

/-- How far an attempt to get or create a record has come: the next step is to read it, to create
it, or to read it again because its key was taken. -/
inductive ReadPhase
  | reading
  | creating
  | rereading
  deriving DecidableEq

/-- What a step of an attempt leads to. -/
inductive ReadStep
  | continued (phase : ReadPhase)
  | ended (result : Except ReadError Record)

namespace Client

def empty : Client := ⟨.empty, {}⟩

instance : Inhabited Client := ⟨empty⟩

def record {α : Type} (client : Client) (call : StoreCall)
    (outcome : Except StoreError α × Backend) : Except StoreError α × Client :=
  let succeeded :=
    match outcome.1 with
    | .ok _ => true
    | .error _ => false
  (outcome.1, ⟨outcome.2, client.meters.add call succeeded⟩)

def get (client : Client) (keys : List String) : Except StoreError Records × Client :=
  client.record .get (client.backend.get keys)

/-- The record under one key, if there is one. -/
def getOne (client : Client) (key : String) : Except StoreError (Option Record) × Client :=
  let (found, after) := client.get [key]
  (found.map fun records => records.find? key, after)

def create (client : Client) (records : List Record) :
    Except StoreError (List String) × Client :=
  client.record .create (client.backend.create records)

def delete (client : Client) (changes : List Record) :
    Except StoreError (List Record) × Client :=
  let (found, backend) := client.backend.delete changes
  client.record .delete (.ok found, backend)

/-- Starts an update. One that is answered at once is counted. -/
def startUpdate (client : Client) (changes : List Record) : UpdateStart × Client :=
  match client.backend.startUpdate changes with
  | (.answered result, backend) =>
      let (result, after) := client.record .update (result, backend)
      (.answered result, after)
  | (.started delay, backend) => (.started delay, { client with backend })

def finishUpdate (client : Client) (changes : List Record) :
    Except StoreError (List Record) × Client :=
  client.record .update (client.backend.finishUpdate changes)

/-- Gives up an update that is in flight; it is not counted. -/
def abandonUpdate (client : Client) : Client :=
  { client with backend := client.backend.abandonUpdate }

/-- An update from its start to its end, with nothing in between. -/
def update (client : Client) (changes : List Record) :
    Except StoreError (List Record) × Client :=
  match client.startUpdate changes with
  | (.answered result, after) => (result, after)
  | (.started _, after) => after.finishUpdate changes

/-- An update that is given up after so many milliseconds, with nothing else going on. There is no
result if its delay is longer. -/
def updateWithin (client : Client) (millis : Nat) (changes : List Record) :
    Option (Except StoreError (List Record)) × Client :=
  match client.startUpdate changes with
  | (.answered result, after) => (some result, after)
  | (.started delay, after) =>
      if delay.getD 0 ≤ millis then
        let (result, ended) := after.finishUpdate changes
        (some result, ended)
      else (none, after.abandonUpdate)

/-- Starts updates in order. One without a delay is finished before the next one is started; of the
others the changes are given. -/
def startAll (client : Client) : List (List Record) →
    List (Except (List Record) (Except StoreError (List Record))) × Client
  | [] => ([], client)
  | changes :: rest =>
      let (first, after) : Except (List Record) (Except StoreError (List Record)) × Client :=
        match client.startUpdate changes with
        | (.answered result, after) => (.ok result, after)
        | (.started none, after) =>
            let (result, ended) := after.finishUpdate changes
            (.ok result, ended)
        | (.started (some _), after) => (.error changes, after)
      let (more, last) := after.startAll rest
      (first :: more, last)

/-- Finishes the updates that are still in flight, in order. -/
def finishAll (client : Client) :
    List (Except (List Record) (Except StoreError (List Record))) →
    List (Except StoreError (List Record)) × Client
  | [] => ([], client)
  | .ok result :: rest =>
      let (more, last) := client.finishAll rest
      (result :: more, last)
  | .error changes :: rest =>
      let (result, after) := client.finishUpdate changes
      let (more, last) := after.finishAll rest
      (result :: more, last)

/-- Updates that are all started before any delay is over. -/
def updateAll (client : Client) (updates : List (List Record)) :
    List (Except StoreError (List Record)) × Client :=
  let (started, after) := client.startAll updates
  after.finishAll started

def readStep (client : Client) (request : ReadRequest) : ReadPhase → ReadStep × Client
  | .reading =>
      match client.getOne request.key with
      | (.error error, after) => (.ended (.error (.store error)), after)
      | (.ok (some found), after) => (.ended (.ok found), after)
      | (.ok none, after) => (.continued .creating, after)
  | .creating =>
      match client.create [request.record] with
      | (.error error, after) => (.ended (.error (.store error)), after)
      | (.ok [], after) => (.ended (.ok request.record), after)
      | (.ok (_ :: _), after) => (.continued .rereading, after)
  | .rereading =>
      match client.getOne request.key with
      | (.error error, after) => (.ended (.error (.store error)), after)
      | (.ok (some found), after) => (.ended (.ok found), after)
      | (.ok none, after) => (.ended (.error (.removedConcurrently request.key)), after)

/-- All steps of an attempt that are left, with nothing in between. -/
def readFrom (client : Client) (request : ReadRequest) (phase : ReadPhase) :
    Except ReadError Record × Client :=
  match client.readStep request phase with
  | (.ended result, after) => (result, after)
  | (.continued next, after) =>
      match after.readStep request next with
      | (.ended result, after) => (result, after)
      | (.continued last, after) =>
          match after.readStep request last with
          | (.ended result, after) => (result, after)
          | (.continued _, after) => (.error (.removedConcurrently request.key), after)

def readOnce (client : Client) (request : ReadRequest) : Except ReadError Record × Client :=
  client.readFrom request .reading

/-- Attempts until one is final, with nothing in between. There is no result if a pause cannot be
computed or the attempts do not end. -/
def readAgain (draw : Draw) (request : ReadRequest) :
    (fuel : Nat) → RetryCursor → Client → Option (Except ReadError Record) × Client
  | 0, _, client => (none, client)
  | fuel + 1, cursor, client =>
      match client.readOnce request with
      | (.ok found, after) => (some (.ok found), after)
      | (.error error, after) =>
          match cursor.recover draw error.retryable with
          | .giveUp => (some (.error error), after)
          | .impossible => (none, after)
          | .retry next _ => readAgain draw request fuel next after

/-- Gets a record, or creates it if there is none, as a retry policy allows. Every failure that is
retried uses up a fault, so there are no more attempts than faults and one. -/
def getOrCreate (client : Client) (draw : Draw) (policy : RetryPolicy) (request : ReadRequest) :
    Option (Except ReadError Record) × Client :=
  readAgain draw request (client.backend.faults.total + 1) (.start policy) client

end Client

end ClaimStore
