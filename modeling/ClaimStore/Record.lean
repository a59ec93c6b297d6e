import ClaimStore.Bytes
import ClaimStore.Table
import ClaimStore.Time.Timestamp
import ClaimStore.Version

/-!
Stored records and their conditional changes.

A record is changed only if the version that is expected is the stored one. A call with several
records changes all of them or none.
-/
namespace ClaimStore

/-- A value under a key. In a change `version` is the version that is expected to be stored. -/
structure Record where
  key : String
  value : Bytes
  version : Version
  modified : Timestamp
  deriving DecidableEq, Inhabited

abbrev Records := Table String Record

namespace Records

def put (records : Records) (record : Record) : Records := records.insert record.key record

/-- The stored records under the given keys. Keys without a record are left out, and a key that is
given twice counts once. -/
def select (records : Records) (keys : List String) : Records :=
  keys.foldl
    (fun found key =>
      match records.find? key with
      | none => found
      | some record => found.insert key record)
    .empty

/-- Stores a record at the first version, unless its key is taken. -/
def createOne (records : Records) (record : Record) : Records :=
  if records.contains record.key then records
  else records.put { record with version := .first }

def create : Records → List Record → List String × Records
  | records, [] => ([], records)
  | records, record :: rest =>
      let (taken, after) := create (createOne records record) rest
      (if records.contains record.key then record.key :: taken else taken, after)

/-- The first key of a change that has no record. -/
def missing? (records : Records) (changes : List Record) : Option String :=
  (changes.find? fun change => !records.contains change.key).map Record.key

def mismatch? (records : Records) (change : Record) : Option Record :=
  (records.find? change.key).filter fun stored => stored.version ≠ change.version

/-- The stored records that the changes do not expect, in the order of the changes. -/
def mismatches (records : Records) (changes : List Record) : List Record :=
  changes.filterMap (mismatch? records)

def write (records : Records) (change : Record) : Records :=
  records.put { change with version := change.version.next }

/-- Replaces records, if all are there and have the expected versions, and gives the mismatching
records otherwise. A key without a record is the error. -/
def update (records : Records) (changes : List Record) :
    Except String (List Record) × Records :=
  match missing? records changes with
  | some key => (.error key, records)
  | none =>
      match mismatches records changes with
      | [] => (.ok [], changes.foldl write records)
      | found => (.ok found, records)

/-- Removes records, if those that are there have the expected versions, and gives the mismatching
records otherwise. -/
def delete (records : Records) (changes : List Record) : List Record × Records :=
  match mismatches records changes with
  | [] => ([], changes.foldl (fun records change => records.erase change.key) records)
  | found => (found, records)

end Records

end ClaimStore
