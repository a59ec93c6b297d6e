import ClaimStore.Proofs.Fleet.System
import ClaimStore.Proofs.Pool.Keys

/-!
What can happen to the stores of a registry.

All that a registry does to its stores is to add or replace that of one pool.
-/
namespace ClaimStore

namespace Registry

/-- The store of one pool is replaced or added, and answers are given. -/
structure Moves (before after : Registry) (pool : PoolKey) (store : PoolStore)
    (answers : List (Nat × Answer)) : Prop where
  clock : after.clock = before.clock
  stores : ∀ place, after.find? place = if place = pool then some store else before.find? place
  told : after.answers = before.answers ++ answers

variable {registry after : Registry} {client later : Client} {pool : PoolKey}
variable {action : PoolStore × Surroundings → Option (PoolStore × Surroundings)}

theorem Moves.same {store : PoolStore} {answers : List (Nat × Answer)}
    (moves : registry.Moves after pool store answers) : after.find? pool = some store := by
  rw [moves.stores, if_pos rfl]

theorem Moves.other {store : PoolStore} {answers : List (Nat × Answer)} {place : PoolKey}
    (moves : registry.Moves after pool store answers) (other : place ≠ pool) :
    after.find? place = registry.find? place := by
  rw [moves.stores, if_neg other]

theorem moves_insert (registry : Registry) (pool : PoolKey) (store : PoolStore) :
    registry.Moves { registry with stores := registry.stores.insert pool store } pool store [] :=
  ⟨rfl, fun place => registry.stores.find?_insert pool place store, (List.append_nil _).symm⟩

/-- What a worker has made of its store and its surroundings. -/
def withWorker (registry : Registry) (key : PoolKey) (store : PoolStore) (around : Surroundings) :
    Registry :=
  { registry with
    caches := registry.caches.change key fun _ => around.cache
    stores := registry.stores.insert key store
    meters := around.meters
    answers := around.answers }

theorem act?_cases (acted : registry.act? client pool action = some (after, later)) :
    ∃ store next around, registry.find? pool = some store ∧
      action (store, registry.surroundings client pool) = some (next, around) ∧
      after = registry.withWorker pool next around ∧ later = around.client := by
  cases found : registry.find? pool with
  | none => simp [act?, found] at acted
  | some store =>
      cases done : action (store, registry.surroundings client pool) with
      | none => simp [act?, found, done] at acted
      | some result =>
          obtain ⟨next, around⟩ := result
          simp only [act?, found, done, Option.bind_eq_bind, Option.bind_some, Option.some.injEq,
            Prod.mk.injEq] at acted
          obtain ⟨rfl, rfl⟩ := acted
          exact ⟨store, next, around, rfl, done, rfl, rfl⟩

theorem act?_moves (acted : registry.act? client pool action = some (after, later)) :
    ∃ store next around, registry.find? pool = some store ∧
      action (store, registry.surroundings client pool) = some (next, around) ∧
      later = around.client ∧
      ∀ answers, around.answers = registry.answers ++ answers →
        registry.Moves after pool next answers := by
  obtain ⟨store, next, around, found, done, rfl, rfl⟩ := act?_cases acted
  refine ⟨store, next, around, found, done, rfl, ?_⟩
  intro answers told
  exact ⟨rfl, fun place => registry.stores.find?_insert pool place next, told⟩

theorem install_moves {snapshot : Snapshot} (installed : registry.install snapshot = .ok after) :
    registry.Moves after snapshot.key (.start snapshot) [] := by
  unfold install at installed
  split at installed
  · cases installed
  · cases installed
    exact ⟨rfl, fun place => registry.stores.find?_insert _ place _, (List.append_nil _).symm⟩

/-- A load starts where there is no store, for a pool whose empty state can be stored. -/
theorem loading_of_startLoad {load : Load} (started : registry.startLoad pool = .loading load) :
    registry.find? pool = none ∧ Storage.poolFormat.isStorable (.empty pool) = true ∧
      ∃ now policy, load = .start pool now policy := by
  unfold startLoad at started
  split at started
  · cases started
  · split at started
    · cases started
    · rename_i absent
      split at started
      · cases started
      · rename_i storable
        split at started
        · cases started
          exact ⟨absent, by simpa using storable, _, _, rfl⟩
        · cases started

theorem push_cases (registry : Registry) (pool : PoolKey) (request : Request) :
    registry.push pool request = registry ∧ registry.isOpen pool = false ∨
      registry.push pool request = registry.answer request.id .shutDown ∧
        registry.isOpen pool = false ∨
      ∃ store, registry.find? pool = some store ∧ registry.isOpen pool = true ∧
        registry.Moves (registry.push pool request) pool
          { store with
            queue := { store.queue with waiting := store.queue.waiting ++ [request] } } [] := by
  cases found : registry.find? pool with
  | none =>
      left
      simp [push, isOpen, found]
  | some store =>
      right
      cases closed : store.queue.isClosed with
      | true =>
          left
          simp [push, isOpen, found, closed, PoolStore.push?, RequestQueue.push?]
      | false =>
          right
          have moves := registry.moves_insert pool { store with
            queue := { store.queue with waiting := store.queue.waiting ++ [request] } }
          refine ⟨store, rfl, by simp [isOpen, found, closed], ?_⟩
          simpa [push, found, closed, PoolStore.push?, RequestQueue.push?] using moves

end Registry

end ClaimStore
