import ClaimStore.Proofs.Fleet.System
import ClaimStore.Proofs.Worker.Turns

/-!
A registry, seen from one of its pools.

Stores are asked for, loaded and served while others change stored records, fill the caches of pools
and let calls to the record store fail. What the users of the pool under watch can see of all this
is the view of the pool.
-/
namespace ClaimStore

/-- What can be seen of a pool: the answers to its requests, its snapshot if its store is there, its
record if there is one, and its cache. -/
structure View where
  results : List (Nat × Answer)
  snapshot? : Option Snapshot
  record? : Option Record
  cache : TokenCache

/-- A registry with the client of its record store, and the requests to the pool under watch.
Everything that happens is counted, and a request bears the count of what was before it. -/
structure Branch where
  key : PoolKey
  client : Client
  member : Member
  next : Nat
  asked : List Nat

/-- What happens at a registry and around it: something is done with one of its pools, somebody
changes the cache of a pool, puts a record in the record store or removes one, the time that updates
take changes, or which calls will fail. Nothing may happen as well. -/
inductive BranchAct
  | member (act : MemberAct)
  | cache (pool : PoolKey) (change : TokenCache → TokenCache)
  | put (record : Record)
  | remove (text : String)
  | delay (delay : Option Nat)
  | faults (faults : Faults)
  | pass

/-- The pool that an act is about, if it is about a single one. -/
def MemberAct.pool? : MemberAct → Option PoolKey
  | .ask pool _ | .load pool _ | .install pool | .leave pool | .push pool _ | .notify pool
  | .work pool | .finishUpdate pool | .abandonUpdate pool => some pool
  | .shutDown | .tick _ => none

def MemberAct.isRequest (pool : PoolKey) : MemberAct → Bool
  | .push other _ => other = pool
  | _ => false

/-- A request to the pool is queued, or its worker is triggered after that. -/
def MemberAct.isPartOfRequest (pool : PoolKey) : MemberAct → Bool
  | .push other _ | .notify other => other = pool
  | _ => false

namespace BranchAct

def pool? : BranchAct → Option PoolKey
  | .member act => act.pool?
  | .cache pool _ => some pool
  | .put _ | .remove _ | .delay _ | .faults _ | .pass => none

def isPartOfRequest (pool : PoolKey) : BranchAct → Bool
  | .member act => act.isPartOfRequest pool
  | _ => false

/-- The act, unless it is part of a request to the pool. Where there was one, nothing happens. -/
def withoutRequest (pool : PoolKey) (act : BranchAct) : BranchAct :=
  if act.isPartOfRequest pool then .pass else act

/-- The act, unless it is about the pool. -/
def without (pool : PoolKey) (act : BranchAct) : BranchAct :=
  if act.pool? = some pool then .pass else act

theorem pool?_of_isPartOfRequest {pool : PoolKey} {act : BranchAct}
    (part : act.isPartOfRequest pool = true) : act.pool? = some pool := by
  cases act with
  | member act =>
      cases act with
      | push other | notify other => exact congrArg some (of_decide_eq_true part)
      | ask | load | install | leave | work | finishUpdate | abandonUpdate | shutDown | tick =>
          cases part
  | cache | put | remove | delay | faults | pass => cases part

end BranchAct

namespace Branch

def start (key : PoolKey) (registry : Registry) (client : Client) : Branch :=
  { key, client, member := .start registry, next := 0, asked := [] }

abbrev registry (branch : Branch) : Registry := branch.member.registry

abbrev records (branch : Branch) : Records := branch.client.backend.records

def view (branch : Branch) : View where
  results := answersTo branch.asked branch.registry.answers
  snapshot? := (branch.registry.find? branch.key).map PoolStore.snapshot
  record? := branch.records.find? branch.key.text
  cache := branch.registry.caches.slice branch.key

def changeBackend (branch : Branch) (change : Backend → Backend) : Branch :=
  { branch with client := { branch.client with backend := change branch.client.backend } }

def effect (branch : Branch) : BranchAct → Branch
  | .member act =>
      let (member, client) := branch.member.act branch.key branch.next branch.client act
      { branch with
        member
        client
        asked := if act.isRequest branch.key then branch.asked ++ [branch.next] else branch.asked }
  | .cache pool change =>
      let registry :=
        { branch.registry with caches := branch.registry.caches.change pool change }
      { branch with member := { branch.member with registry } }
  | .put record => branch.changeBackend fun backend => backend.put record
  | .remove text =>
      branch.changeBackend fun backend => { backend with records := backend.records.erase text }
  | .delay updateDelay => branch.changeBackend fun backend => { backend with updateDelay }
  | .faults faults => branch.changeBackend fun backend => { backend with faults }
  | .pass => branch

def act (branch : Branch) (act : BranchAct) : Branch :=
  { branch.effect act with next := branch.next + 1 }

def run (acts : List BranchAct) (branch : Branch) : Branch := acts.foldl act branch

/-- What is seen of the pool before and after each act. -/
def views (branch : Branch) : List BranchAct → List View
  | [] => [branch.view]
  | first :: rest => branch.view :: (branch.act first).views rest

end Branch

end ClaimStore
