import ClaimStore.Proofs.Isolation.Calls
import ClaimStore.Proofs.Worker.Turns

/-!
What an action of a worker depends on.

As long as there are no faults, it depends on the worker's own store and cache, the clock, the record
of its pool and the time that updates take, and on nothing else.
-/
namespace ClaimStore

/-- What an action leaves behind: the store of the worker, its cache, and the answers that it has
given. -/
structure ActionResult where
  store : PoolStore
  cache : TokenCache
  told : List (Nat × Answer)

/-- What a worker can make use of, besides its store. -/
structure Sight where
  clock : Option Timestamp
  cache : TokenCache
  delay : Option Nat
  record? : Option Record

def Surroundings.sight (around : Surroundings) (text : String) : Sight :=
  ⟨around.clock, around.cache, around.client.backend.updateDelay,
    around.client.backend.records.find? text⟩

/-- With this result the action is done, and the clock is as before. -/
def Surroundings.Yields (around : Surroundings) (text : String)
    (change : Option Record → Option Record) (result : ActionResult)
    (done : Option (PoolStore × Surroundings)) : Prop :=
  ∃ client meters,
    done = some (result.store,
      ⟨client, around.clock, result.cache, meters, around.answers ++ result.told⟩) ∧
    around.client.Changes text change client

namespace PoolStore

/-- Whether a store can act, what comes of it, and what becomes of the record under the key, are
functions of what its worker can make use of. -/
def Local (store : PoolStore) (text : String)
    (action : PoolStore × Surroundings → Option (PoolStore × Surroundings)) : Prop :=
  ∃ (outcome : Sight → Option ActionResult) (change : Option Record → Option Record),
    ∀ around : Surroundings, around.client.Healthy →
      match outcome (around.sight text) with
      | none => action (store, around) = none
      | some result => around.Yields text change result (action (store, around))

variable {store : PoolStore} {text : String}
variable {action : PoolStore × Surroundings → Option (PoolStore × Surroundings)}

theorem local_of_none (none : ∀ around, action (store, around) = none) : store.Local text action :=
  ⟨fun _ => .none, id, fun around _ => none around⟩

/-- An action that asks nothing of the record store. -/
theorem local_of_eq {next : PoolStore} {told : List (Nat × Answer)}
    {cache : TokenCache → TokenCache}
    (acts : ∀ around, ∃ meters, action (store, around) =
      some (next, ⟨around.client, around.clock, cache around.cache, meters,
        around.answers ++ told⟩)) : store.Local text action := by
  refine ⟨fun sight => some ⟨next, cache sight.cache, told⟩, id, ?_⟩
  intro around healthy
  obtain ⟨meters, acted⟩ := acts around
  exact ⟨around.client, meters, acted, Client.changes_of_same healthy rfl rfl⟩

/-- An action that changes the store alone. -/
theorem local_of_store {next : PoolStore}
    (acts : ∀ around, action (store, around) = some (next, around)) : store.Local text action := by
  have silent : ∀ around, ∃ meters, action (store, around) =
      some (next, ⟨around.client, around.clock, id around.cache, meters, around.answers ++ []⟩) := by
    intro around
    exact ⟨around.meters, by rw [acts, List.append_nil]; rfl⟩
  exact local_of_eq silent

theorem local_take (batchSize : Nat) (taking : store.phase = .taking) (isShutDown : Bool) :
    store.Local text (step? batchSize isShutDown) := by
  rcases taken : store.queue.takeBatch batchSize with ⟨_ | ⟨request, rest⟩, queue⟩
  · exact local_of_store fun around => by simp [step?, taking, take, taken]; rfl
  · have counted : ∀ around, ∃ meters, step? batchSize isShutDown (store, around) =
        some ({ store with queue, phase := .applying (.start store.snapshot) (request :: rest) },
          ⟨around.client, around.clock, id around.cache, meters, around.answers ++ []⟩) := by
      intro around
      exact ⟨_, by simp [step?, taking, take, taken, Surroundings.countBatch]; rfl⟩
    exact local_of_eq counted

/-- The start of a commit depends on the clock and on the time that updates take. -/
theorem local_commit {batch : Batch} (applying : store.phase = .applying batch [])
    (batchSize : Nat) (isShutDown : Bool) : store.Local text (step? batchSize isShutDown) := by
  cases storable : Storage.poolFormat.isStorable batch.candidate with
  | false => exact local_of_store fun around => by simp [step?, applying, commit, storable]; rfl
  | true =>
      refine ⟨fun sight => some (sight.clock.elim
          ⟨{ store with phase := .died }, sight.cache,
            batch.pending.map fun request => (request, .shutDown)⟩
          fun now => ⟨{ store with
            phase := .awaiting batch (batch.change now) (sight.delay.getD 0) }, sight.cache, []⟩),
        id, ?_⟩
      intro around healthy
      cases clock : around.clock with
      | none =>
          simp only [Surroundings.sight, clock, Option.elim_none]
          refine ⟨around.client, around.meters, ?_, Client.changes_of_same healthy rfl rfl⟩
          simp [step?, applying, commit, storable, clock, foldl_answer]
      | some now =>
          simp only [Surroundings.sight, clock, Option.elim_some]
          obtain ⟨after, started, changes⟩ :=
            Client.startUpdate_healthy healthy [batch.change now] text
          refine ⟨after, around.meters, ?_, changes⟩
          simp [step?, applying, commit, storable, clock, send, started]

theorem local_step? (store : PoolStore) (batchSize : Nat) (isShutDown : Bool) :
    store.Local text (step? batchSize isShutDown) := by
  cases phase : store.phase with
  | idle =>
      cases isShutDown with
      | true => exact local_of_store fun around => by simp [step?, phase]; rfl
      | false =>
          cases triggered : store.isTriggered with
          | true => exact local_of_store fun around => by simp [step?, phase, triggered]; rfl
          | false => exact local_of_none fun around => by simp [step?, phase, triggered]
  | taking => exact local_take batchSize phase isShutDown
  | applying batch rest =>
      cases rest with
      | nil => exact local_commit phase batchSize isShutDown
      | cons request rest =>
          cases added : batch.add request with
          | ok next => exact local_of_store fun around => by simp [step?, phase, added]; rfl
          | error failure =>
              have failed : ∀ around, ∃ meters, step? batchSize isShutDown (store, around) =
                  some ({ store with phase := .applying batch rest },
                    ⟨around.client, around.clock, id around.cache, meters,
                      around.answers ++ [(request.id, .failed failure)]⟩) := by
                intro around
                exact ⟨_, by
                  simp [step?, phase, added, Surroundings.fail, Surroundings.answer]; rfl⟩
              exact local_of_eq failed
  | awaiting batch change delay => exact local_of_none fun around => by simp [step?, phase]
  | concluding batch conclusion =>
      have concluded : ∀ around, ∃ meters, step? batchSize isShutDown (store, around) =
          some ({ store with phase := .adopting batch conclusion },
            ⟨around.client, around.clock,
              (if conclusion.isCommitted then id else TokenCache.invalidate) around.cache, meters,
              around.answers ++ []⟩) := by
        intro around
        cases committed : conclusion.isCommitted <;>
          exact ⟨_, by
            simp [step?, phase, Surroundings.conclude, Surroundings.countCommit,
              Surroundings.invalidate, committed]; rfl⟩
      exact local_of_eq concluded
  | adopting batch conclusion => exact local_of_store fun around => by simp [step?, phase]; rfl
  | resolving answer pending =>
      cases pending with
      | nil => exact local_of_store fun around => by simp [step?, phase]; rfl
      | cons request rest =>
          have answered : ∀ around, ∃ meters, step? batchSize isShutDown (store, around) =
              some ({ store with phase := .resolving answer rest },
                ⟨around.client, around.clock, id around.cache, meters,
                  around.answers ++ [(request, answer)]⟩) := by
            intro around
            exact ⟨_, by simp [step?, phase, Surroundings.answer]; rfl⟩
          exact local_of_eq answered
  | stopped | died => exact local_of_none fun around => by simp [step?, phase]

/-- The end of an update depends on the record that it is to replace. -/
theorem local_finishUpdate?
    (own : ∀ batch change delay, store.phase = .awaiting batch change delay → change.key = text) :
    store.Local text finishUpdate? := by
  cases phase : store.phase with
  | awaiting batch change delay =>
      obtain ⟨outcome, written, ends⟩ := Client.local_finishUpdate change
      rw [own batch change delay phase] at ends
      refine ⟨fun sight =>
        some ⟨{ store with
          phase := .concluding batch (batch.conclude (outcome sight.record? sight.delay)) },
          sight.cache, []⟩, written, ?_⟩
      intro around healthy
      obtain ⟨answered, changes⟩ := ends around.client healthy
      refine ⟨_, around.meters, ?_, changes⟩
      simp [finishUpdate?, phase, answered, Surroundings.sight]
  | idle | taking | applying | concluding | adopting | resolving | stopped | died =>
      exact local_of_none fun around => by simp [finishUpdate?, phase]

theorem local_abandonUpdate? (store : PoolStore) (text : String) :
    store.Local text abandonUpdate? := by
  cases phase : store.phase with
  | awaiting batch change delay =>
      refine ⟨fun sight =>
        some ⟨{ store with phase := .concluding batch batch.abandoned }, sight.cache, []⟩, id, ?_⟩
      intro around healthy
      refine ⟨_, around.meters, ?_, Client.abandonUpdate_healthy healthy text⟩
      simp [abandonUpdate?, phase, Surroundings.sight]
  | idle | taking | applying | concluding | adopting | resolving | stopped | died =>
      exact local_of_none fun around => by simp [abandonUpdate?, phase]

end PoolStore

end ClaimStore
