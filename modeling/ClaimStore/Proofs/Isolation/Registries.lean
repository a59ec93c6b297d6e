import ClaimStore.Proofs.Isolation.Runs
import ClaimStore.Proofs.Isolation.Workers

/-!
Registries that are alike for one of their pools.

They hold the same for the pool and have given the same answers to its requests. What is done with
another pool leads to such a registry, and what is done with the pool itself keeps two of them alike.
-/
namespace ClaimStore

namespace PoolCaches

theorem slice_insert (caches : PoolCaches) (pool place : PoolKey) (cache : TokenCache) :
    slice (caches.insert pool cache) place = if place = pool then cache else caches.slice place := by
  unfold slice
  rw [Table.find?_insert]
  split <;> rfl

end PoolCaches

namespace Registry

structure Alike (key : PoolKey) (asked : List Nat) (left right : Registry) : Prop where
  options : left.options = right.options
  clock : left.clock = right.clock
  isShutDown : left.isShutDown = right.isShutDown
  store : left.find? key = right.find? key
  cache : left.caches.slice key = right.caches.slice key
  results : answersTo asked left.answers = answersTo asked right.answers

variable {key pool : PoolKey} {asked : List Nat} {registry left right after : Registry}
variable {client later clientLeft clientRight : Client}
variable {action : PoolStore × Surroundings → Option (PoolStore × Surroundings)}

namespace Alike

theorem refl (key : PoolKey) (asked : List Nat) (registry : Registry) :
    Alike key asked registry registry :=
  ⟨rfl, rfl, rfl, rfl, rfl, rfl⟩

theorem symm (alike : Alike key asked left right) : Alike key asked right left :=
  ⟨alike.options.symm, alike.clock.symm, alike.isShutDown.symm, alike.store.symm,
    alike.cache.symm, alike.results.symm⟩

theorem trans (first : Alike key asked left registry) (second : Alike key asked registry right) :
    Alike key asked left right :=
  ⟨first.options.trans second.options, first.clock.trans second.clock,
    first.isShutDown.trans second.isShutDown, first.store.trans second.store,
    first.cache.trans second.cache, first.results.trans second.results⟩

theorem startLoad (alike : Alike key asked left right) : left.startLoad key = right.startLoad key := by
  unfold Registry.startLoad
  rw [alike.isShutDown, alike.store, alike.clock, alike.options]

end Alike

/-- A request that has not been answered does not add to the results. -/
theorem answersTo_ask {id : Nat} {answers : List (Nat × Answer)}
    (fresh : ∀ answer ∈ answers, answer.1 ≠ id) :
    answersTo (asked ++ [id]) answers = answersTo asked answers := by
  refine List.filter_congr fun answer given => ?_
  have other := fresh answer given
  simp [other]

/-- The store and the cache of another pool change, and other requests are answered. -/
theorem alike_elsewhere (other : key ≠ pool) (store : PoolStore) (caches : PoolCaches)
    (same : caches.slice key = registry.caches.slice key) (meters : StoreMeters)
    {told : List (Nat × Answer)} (apart : ∀ answer ∈ told, answer.1 ∉ asked) :
    Alike key asked registry
      { registry with
        caches
        stores := registry.stores.insert pool store
        meters
        answers := registry.answers ++ told } := by
  refine ⟨rfl, rfl, rfl, ?_, same.symm, (answersTo_append_apart apart _).symm⟩
  simp only [find?]
  rw [Table.find?_insert, if_neg other]

theorem alike_install (other : key ≠ pool) {snapshot : Snapshot} (own : snapshot.key = pool)
    (installed : registry.install snapshot = .ok after) : Alike key asked registry after := by
  unfold install at installed
  split at installed
  · cases installed
  · cases installed
    rw [own]
    have same : (registry.caches.ensure pool).slice key = registry.caches.slice key := by
      rw [PoolCaches.ensure, PoolCaches.slice_insert, if_neg other]
    refine ⟨rfl, rfl, rfl, ?_, same.symm, rfl⟩
    simp only [find?]
    rw [Table.find?_insert, if_neg other]

theorem alike_push (other : key ≠ pool) {request : Request} (fresh : request.id ∉ asked) :
    Alike key asked registry (registry.push pool request) := by
  unfold push
  split
  · exact Alike.refl _ _ _
  · split
    · refine ⟨rfl, rfl, rfl, rfl, rfl, (answersTo_append_apart ?_ _).symm⟩
      intro answer member
      rw [List.mem_singleton.mp member]
      exact fresh
    · have apart := registry.moves_insert pool
      refine ⟨rfl, rfl, rfl, ?_, rfl, rfl⟩
      exact ((apart _).other other).symm

theorem alike_notify (other : key ≠ pool) : Alike key asked registry (registry.notify pool) := by
  unfold notify
  split
  · exact Alike.refl _ _ _
  · refine ⟨rfl, rfl, rfl, ?_, rfl, rfl⟩
    exact ((registry.moves_insert pool _).other other).symm

/-- The worker of another pool acts. -/
theorem alike_act? (other : key ≠ pool) (healthy : client.Healthy)
    (own : ∀ store, registry.find? pool = some store → store.Local pool.text action)
    (silent : ∀ store next around, registry.find? pool = some store →
      action (store, registry.surroundings client pool) = some (next, around) →
      ∃ told, around.answers = registry.answers ++ told ∧ ∀ answer ∈ told, answer.1 ∉ asked)
    (acted : registry.act? client pool action = some (after, later)) :
    Alike key asked registry after ∧ client.Alike key.text later := by
  obtain ⟨store, next, around, found, acts, rfl, rfl⟩ := act?_cases acted
  obtain ⟨told, whole, apart⟩ := silent store next around found acts
  obtain ⟨outcome, change, acting⟩ := own store found
  have done := acting (registry.surroundings client pool) healthy
  split at done
  · cases acts.symm.trans done
  · obtain ⟨later', meters, done, changes⟩ := done
    cases acts.symm.trans done
    have texts : key.text ≠ pool.text := fun same => other (PoolKey.text_injective same)
    refine ⟨?_, changes.alike healthy texts⟩
    simp only [withWorker] at whole ⊢
    rw [whole]
    refine alike_elsewhere other _ _ ?_ _ apart
    rw [PoolCaches.change, PoolCaches.slice_insert, if_neg other]

/-- The worker of the pool itself acts in both registries, or in none. -/
theorem Alike.act? (alike : Alike key asked left right)
    (clients : clientLeft.Alike key.text clientRight)
    (own : ∀ store, left.find? key = some store → store.Local key.text action) :
    left.act? clientLeft key action = none ∧ right.act? clientRight key action = none ∨
      ∃ nextLeft laterLeft nextRight laterRight,
        left.act? clientLeft key action = some (nextLeft, laterLeft) ∧
        right.act? clientRight key action = some (nextRight, laterRight) ∧
        Alike key asked nextLeft nextRight ∧ laterLeft.Alike key.text laterRight := by
  cases found : left.find? key with
  | none =>
      left
      have found' := alike.store.symm.trans found
      simp [Registry.act?, found, found']
  | some store =>
      have found' := alike.store.symm.trans found
      obtain ⟨outcome, change, acts⟩ := own store found
      have doneLeft := acts (left.surroundings clientLeft key) clients.healthy.1
      have doneRight := acts (right.surroundings clientRight key) clients.healthy.2
      have same : (left.surroundings clientLeft key).sight key.text =
          (right.surroundings clientRight key).sight key.text := by
        simp only [Surroundings.sight, surroundings, alike.clock, alike.cache, clients.delay,
          clients.found]
      rw [same] at doneLeft
      cases result : outcome ((right.surroundings clientRight key).sight key.text) with
      | none =>
          rw [result] at doneLeft doneRight
          left
          simp only at doneLeft doneRight
          simp [Registry.act?, found, found', doneLeft, doneRight]
      | some result =>
          rw [result] at doneLeft doneRight
          right
          obtain ⟨laterLeft, metersLeft, doneLeft, changesLeft⟩ := doneLeft
          obtain ⟨laterRight, metersRight, doneRight, changesRight⟩ := doneRight
          simp only [Registry.act?, found, found', doneLeft, doneRight, Option.bind_eq_bind,
            Option.bind_some]
          refine ⟨_, _, _, _, rfl, rfl, ⟨alike.options, alike.clock, alike.isShutDown, ?_, ?_, ?_⟩,
            clients.changes changesLeft changesRight⟩
          · simp only [find?]
            rw [Table.find?_insert, Table.find?_insert, if_pos rfl, if_pos rfl]
          · simp only [PoolCaches.change]
            rw [PoolCaches.slice_insert, PoolCaches.slice_insert, if_pos rfl, if_pos rfl]
          · simp only [surroundings]
            rw [answersTo_append, answersTo_append, alike.results]

/-- A store is added to both registries, or to none. -/
theorem Alike.install (alike : Alike key asked left right) {snapshot : Snapshot}
    (own : snapshot.key = key) :
    (∃ error, left.install snapshot = .error error ∧ right.install snapshot = .error error) ∨
      ∃ nextLeft nextRight, left.install snapshot = .ok nextLeft ∧
        right.install snapshot = .ok nextRight ∧ Alike key asked nextLeft nextRight := by
  unfold Registry.install
  rw [alike.isShutDown]
  cases isShutDown : right.isShutDown with
  | true => exact .inl ⟨_, rfl, rfl⟩
  | false =>
      refine .inr ⟨_, _, rfl, rfl, alike.options, alike.clock, rfl, ?_, ?_, alike.results⟩
      · simp only [find?]
        rw [Table.find?_insert, Table.find?_insert, if_pos own.symm, if_pos own.symm]
      · simp only [PoolCaches.ensure]
        rw [PoolCaches.slice_insert, PoolCaches.slice_insert, own, alike.cache]

/-- Both stores of the pool are replaced by the same one. -/
theorem Alike.replace (alike : Alike key asked left right) (store : PoolStore) :
    Alike key asked { left with stores := left.stores.insert key store }
      { right with stores := right.stores.insert key store } := by
  refine ⟨alike.options, alike.clock, alike.isShutDown, ?_, alike.cache, alike.results⟩
  simp only [find?]
  rw [Table.find?_insert, Table.find?_insert, if_pos rfl, if_pos rfl]

theorem Alike.push (alike : Alike key asked left right) (request : Request) :
    Alike key asked (left.push key request) (right.push key request) := by
  unfold Registry.push
  rw [alike.store]
  cases right.find? key with
  | none => exact alike
  | some store =>
      simp only
      cases store.push? request with
      | some next => exact alike.replace next
      | none =>
          refine ⟨alike.options, alike.clock, alike.isShutDown, alike.store, alike.cache, ?_⟩
          simp only [answer]
          rw [answersTo_append, answersTo_append, alike.results]

theorem Alike.notify (alike : Alike key asked left right) :
    Alike key asked (left.notify key) (right.notify key) := by
  unfold Registry.notify
  rw [alike.store]
  cases right.find? key with
  | none => exact alike
  | some store => exact alike.replace store.trigger

/-- A request that neither registry has answered is about to be made. -/
theorem Alike.more (alike : Alike key asked left right) {id : Nat}
    (freshLeft : ∀ answer ∈ left.answers, answer.1 ≠ id)
    (freshRight : ∀ answer ∈ right.answers, answer.1 ≠ id) :
    Alike key (asked ++ [id]) left right := by
  refine ⟨alike.options, alike.clock, alike.isShutDown, alike.store, alike.cache, ?_⟩
  rw [answersTo_ask freshLeft, answersTo_ask freshRight, alike.results]

end Registry

end ClaimStore
