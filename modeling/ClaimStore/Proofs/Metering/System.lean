import ClaimStore.Proofs.Shutdown.Workers
import ClaimStore.Proofs.Visibility.Courses
import Mathlib.Algebra.GroupWithZero.Nat

/-!
A registry and what is counted of it.

Everything happens that can happen at a registry with its callers. Others use the caches of the pools
besides, and the call that shuts the registry down comes to its end. How many updates have been given
up, and how often others have emptied a cache, is kept for the record; nothing that happens depends on
it.
-/
namespace ClaimStore

namespace Table

variable {κ α : Type}

/-- What all values of a table come to. -/
def total (table : Table κ α) (weight : α → Nat) : Nat := (table.values.map weight).sum

theorem total_eq_zero {table : Table κ α} {weight : α → Nat}
    (light : ∀ value ∈ table.values, weight value = 0) : table.total weight = 0 := by
  rw [total, List.sum_eq_zero_iff_forall_eq_nat]
  intro amount member
  obtain ⟨value, there, rfl⟩ := List.mem_map.mp member
  exact light value there

variable [DecidableEq κ]

/-- A value adds its weight and takes away that of the value which it replaces. -/
theorem total_insert (table : Table κ α) (key : κ) (value : α) (weight : α → Nat) :
    (table.insert key value).total weight + ((table.find? key).map weight).getD 0 =
      table.total weight + weight value := by
  obtain ⟨entries⟩ := table
  simp only [total, values, insert, find?]
  induction entries with
  | nil => simp [insertIn, findIn]
  | cons entry rest ih =>
      by_cases here : entry.1 = key
      · simp only [insertIn, findIn, if_pos here, List.map_cons, List.sum_cons, Option.map_some,
          Option.getD_some]
        omega
      · simp only [insertIn, findIn, if_neg here, List.map_cons, List.sum_cons]
        omega

end Table

namespace Client

/-- Every update goes to the records: none is answered before that. -/
structure Direct (client : Client) : Prop where
  internal : client.backend.faults.internalUpdates = 0
  foreign : client.backend.faults.foreignMismatches = 0

/-- Whatever else has happened, nothing has been updated. -/
structure Untouched (before after : Client) : Prop where
  counted : after.meters.update = before.meters.update
  called : after.backend.updateCalls = before.backend.updateCalls
  direct : before.Direct → after.Direct

theorem Untouched.refl (client : Client) : Untouched client client := ⟨rfl, rfl, fun direct => direct⟩

theorem getOne_untouched (client : Client) (key : String) :
    Untouched client (client.getOne key).2 := by
  simp only [getOne, get, record, Backend.get]
  split
  · exact ⟨rfl, rfl, fun direct => ⟨direct.internal, direct.foreign⟩⟩
  · split <;> exact ⟨rfl, rfl, fun direct => ⟨direct.internal, direct.foreign⟩⟩

theorem create_untouched (client : Client) (records : List Record) :
    Untouched client (client.create records).2 := by
  simp only [create, record, Backend.create]
  split
  · exact ⟨rfl, rfl, fun direct => ⟨direct.internal, direct.foreign⟩⟩
  · split <;> exact ⟨rfl, rfl, fun direct => ⟨direct.internal, direct.foreign⟩⟩

theorem readStep_untouched (client : Client) (request : ReadRequest) (phase : ReadPhase) :
    Untouched client (client.readStep request phase).2 := by
  cases phase with
  | reading | rereading =>
      have got := client.getOne_untouched request.key
      simp only [readStep]
      generalize client.getOne request.key = result at got
      rcases result with ⟨_ | _ | _, after⟩ <;> exact got
  | creating =>
      have made := client.create_untouched [request.record]
      simp only [readStep]
      generalize client.create [request.record] = result at made
      rcases result with ⟨_ | _ | _, after⟩ <;> exact made

end Client

/-- A load reads and creates records, and updates none. -/
theorem Load.step_untouched (draw : Draw) (load : Load) (client : Client) :
    Client.Untouched client (load.step draw client).2 := by
  have read := client.readStep_untouched load.request load.phase
  simp only [step]
  generalize client.readStep load.request load.phase = result at read
  rcases result with ⟨_ | _ | _, after⟩ <;> exact read

/-- How many times an act of others empties the cache. -/
def CacheAct.drops : CacheAct → Nat
  | .invalidate => 1
  | .add _ _ | .remove _ => 0

/-- A registry with its callers, the updates that were given up, and the times that others have emptied
a cache. -/
structure Audit where
  reception : Reception
  timeouts : Nat
  dropped : Nat

/-- What happens at a registry: what its callers, workers and others do, somebody uses the cache of a
pool, or the call that shuts it down returns. -/
inductive AuditAct
  | reception (act : ReceptionAct)
  | cache (key : PoolKey) (act : CacheAct)
  | finishShutdown

namespace Audit

def start (registry : Registry) (client : Client) : Audit := ⟨.start registry client, 0, 0⟩

def registry (audit : Audit) : Registry := audit.reception.registry

def client (audit : Audit) : Client := audit.reception.client

/-- How many updates an act gives up. -/
def givenUp (audit : Audit) : ReceptionAct → Nat
  | .abandonUpdate key =>
      if (audit.registry.act? audit.client key PoolStore.abandonUpdate?).isSome then 1 else 0
  | _ => 0

def withRegistry (audit : Audit) (registry : Registry) : Audit :=
  { audit with reception := { audit.reception with registry } }

def act (audit : Audit) : AuditAct → Audit
  | .reception act =>
      { audit with
        reception := audit.reception.act act
        timeouts := audit.timeouts + audit.givenUp act }
  | .cache key act =>
      { audit.withRegistry
          { audit.registry with
            caches := audit.registry.caches.change key fun cache => cache.act act } with
        dropped := audit.dropped + act.drops }
  | .finishShutdown => audit.withRegistry audit.registry.concludeShutdown

def run (acts : List AuditAct) (audit : Audit) : Audit := acts.foldl act audit

/-- Nobody else updates records: whenever others use the record store, the updates are those of the
registry. -/
def Sole : List AuditAct → Audit → Prop
  | [], _ => True
  | act :: rest, audit =>
      (∀ client clock, act = .reception (.others client clock) → audit.client.Untouched client) ∧
        Sole rest (audit.act act)

/-- The requests of which the answer is known and is one of those. -/
def count (audit : Audit) (among : Answer → Bool) : Nat :=
  (List.range audit.reception.requests).countP fun request =>
    (audit.registry.answer? request).any among

end Audit

end ClaimStore
