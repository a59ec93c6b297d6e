import ClaimStore.Proofs.Reception.Calls
import Mathlib.Data.List.Nodup

/-!
Stores and updates.

A pool has a store if one has been created for it, and the updates that are under way are those that
the workers of the stores wait for. Each of them is that of another pool.
-/
namespace ClaimStore

namespace PoolStore

variable {store next : PoolStore} {around after : Surroundings} {pool : PoolKey}

theorem flight_key {change : Record} (has : store.Has Trait.any pool)
    (flies : store.flight? = some change) : change.key = pool.text := by
  unfold flight? at flies
  split at flies
  · rename_i batch sent delay awaiting
    cases flies
    have phase := has.phase
    rw [awaiting] at phase
    exact phase.2.1
  · cases flies

/-- What a worker does to its store leaves it one of its pool. -/
def Keeps (action : PoolStore × Surroundings → Option (PoolStore × Surroundings)) : Prop :=
  ∀ {store next around after pool}, action (store, around) = some (next, after) →
    store.Has Trait.any pool → next.Has Trait.any pool

theorem keeps_step (batchSize : Nat) (isShutDown : Bool) : Keeps (step? batchSize isShutDown) :=
  fun stepped has => (has.turn (turn_of_step? stepped)).1

theorem keeps_finishUpdate : Keeps finishUpdate? :=
  fun finished has => (has.finish (fun _ _ _ => trivial) finished).1

theorem keeps_abandonUpdate : Keeps abandonUpdate? := fun abandoned has => (has.abandon abandoned).1

end PoolStore

namespace Reception

structure Stocked (reception : Reception) : Prop where
  stored : ∀ key, (reception.registry.find? key).isSome = true ↔
    key ∈ reception.created.map Prod.fst
  own : ∀ key store, reception.registry.find? key = some store → store.Has Trait.any key
  flying : ∀ change, change ∈ reception.flights ↔
    ∃ key store, reception.registry.find? key = some store ∧ store.flight? = some change
  single : (reception.flights.map Record.key).Nodup

variable {reception after : Reception} {index : Nat} {key : PoolKey} {old new : PoolStore}

theorem Stocked.frame (stocked : reception.Stocked)
    (stores : after.registry.stores = reception.registry.stores)
    (created : after.created = reception.created) (flights : after.flights = reception.flights) :
    after.Stocked := by
  have found : ∀ key, after.registry.find? key = reception.registry.find? key := by
    intro key
    rw [Registry.find?, stores]
    rfl
  refine ⟨?_, ?_, ?_, flights ▸ stocked.single⟩
  · intro key
    rw [found, created]
    exact stocked.stored key
  · intro key store there
    exact stocked.own key store (found key ▸ there)
  · intro change
    simp only [flights, found]
    exact stocked.flying change

/-- The one pool of whose update a change is. -/
theorem Stocked.flight (stocked : reception.Stocked) (there : reception.registry.find? key = some old)
    {change : Record} (flies : change ∈ reception.flights) (same : change.key = key.text) :
    old.flight? = some change := by
  obtain ⟨pool, store, found, flight⟩ := (stocked.flying change).mp flies
  have text : pool.text = key.text :=
    (PoolStore.flight_key (stocked.own pool store found) flight).symm.trans same
  obtain rfl : pool = key := PoolKey.text_injective text
  rw [there] at found
  cases found
  exact flight

theorem Stocked.mem_landed (stocked : reception.Stocked) (change : Record) :
    change ∈ reception.flights.diff old.flight?.toList ↔
      change ∈ reception.flights ∧ old.flight? ≠ some change := by
  rw [stocked.single.of_map.mem_sdiff_iff, Option.mem_toList]

/-- The store of one pool is replaced by another one of the pool. -/
theorem Stocked.replace (stocked : reception.Stocked)
    (there : reception.registry.find? key = some old)
    (found : ∀ place, after.registry.find? place =
      if place = key then some new else reception.registry.find? place)
    (has : new.Has Trait.any key) (created : after.created = reception.created)
    (flying : ∀ change, change ∈ after.flights ↔
      change ∈ reception.flights ∧ old.flight? ≠ some change ∨ new.flight? = some change)
    (single : (after.flights.map Record.key).Nodup) : after.Stocked := by
  refine ⟨?_, ?_, ?_, single⟩
  · intro place
    rw [found, created]
    split
    · rename_i same
      subst same
      rw [← stocked.stored, there]
      exact Iff.rfl
    · exact stocked.stored place
  · intro place store here
    rw [found] at here
    split at here
    · rename_i same
      cases here
      exact same ▸ has
    · exact stocked.own place store here
  · intro change
    rw [flying, stocked.flying]
    constructor
    · rintro (⟨⟨place, store, here, flight⟩, other⟩ | flight)
      · have apart : place ≠ key := by
          rintro rfl
          rw [there] at here
          cases here
          exact other flight
        exact ⟨place, store, by rw [found, if_neg apart]; exact here, flight⟩
      · exact ⟨key, new, by rw [found, if_pos rfl], flight⟩
    · rintro ⟨place, store, here, flight⟩
      rw [found] at here
      split at here
      · cases here
        exact .inr flight
      · rename_i apart
        refine .inl ⟨⟨place, store, here, flight⟩, ?_⟩
        -- the update of another pool is not the one of this store
        intro own
        have text := (PoolStore.flight_key (stocked.own place store here) flight).symm.trans
          (PoolStore.flight_key (stocked.own key old there) own)
        exact apart (PoolKey.text_injective text)

/-- Nothing changes for the updates when requests are queued or a worker is triggered. -/
theorem Stocked.touch (stocked : reception.Stocked) {registry : Registry} {requests : Nat}
    {answers : List (Nat × Answer)} (there : reception.registry.find? key = some old)
    (moves : reception.registry.Moves registry key new answers) (has : new.Has Trait.any key)
    (same : new.flight? = old.flight?) :
    Stocked { reception with registry, requests } := by
  refine stocked.replace there moves.stores has rfl ?_ stocked.single
  intro change
  constructor
  · intro member
    by_cases own : old.flight? = some change
    · exact .inr (same.trans own)
    · exact .inl ⟨member, own⟩
  · rintro (⟨member, -⟩ | flight)
    · exact member
    · exact (stocked.flying change).mpr ⟨key, old, there, same.symm.trans flight⟩

theorem Stocked.drive (stocked : reception.Stocked) (key : PoolKey)
    {action : PoolStore × Surroundings → Option (PoolStore × Surroundings)}
    (keeps : PoolStore.Keeps action)
    (tells : ∀ {store around next after}, action (store, around) = some (next, after) →
      ∃ more, after.answers = around.answers ++ more) :
    (reception.drive key (reception.registry.act? reception.client key action)).Stocked := by
  cases acted : reception.registry.act? reception.client key action with
  | none => exact stocked
  | some result =>
      obtain ⟨registry, client⟩ := result
      obtain ⟨old, new, around, there, done, -, moved⟩ := Registry.act?_moves acted
      obtain ⟨answers, told⟩ := tells done
      have moves := moved answers told
      have own := stocked.own key old there
      have has : new.Has Trait.any key := keeps done own
      have flights : noteFlights reception.flights (reception.registry.find? key)
          (registry.find? key) =
            reception.flights.diff old.flight?.toList ++ new.flight?.toList := by
        rw [there, moves.same]
        rfl
      simp only [Reception.drive, flights]
      refine stocked.replace there moves.stores has rfl ?_ ?_
      · intro change
        rw [List.mem_append, stocked.mem_landed, Option.mem_toList]
      · rw [List.map_append, List.nodup_append]
        refine ⟨(List.diff_sublist _ _).map _ |>.nodup stocked.single, ?_, ?_⟩
        · cases new.flight? <;> simp
        · intro text landed sent here same
          obtain ⟨change, member, rfl⟩ := List.mem_map.mp landed
          obtain ⟨started, flight, rfl⟩ := List.mem_map.mp here
          rw [Option.mem_toList] at flight
          obtain ⟨flies, other⟩ := (stocked.mem_landed change).mp member
          exact other (stocked.flight there flies (same.trans (PoolStore.flight_key has flight)))

theorem stocked_start {registry : Registry} (client : Client) (none : registry.stores = .empty) :
    (start registry client).Stocked := by
  have empty : ∀ key, registry.find? key = .none := by
    intro key
    rw [Registry.find?, none]
    rfl
  refine ⟨?_, ?_, ?_, List.nodup_nil⟩
  · intro key
    simp [start, empty]
  · intro key store there
    rw [start, empty] at there
    cases there
  · intro change
    simp [start, empty]

theorem Stocked.install (stocked : reception.Stocked) (orderly : reception.Orderly) (index : Nat) :
    (reception.install index).Stocked := by
  unfold Reception.install
  split
  · rename_i key snapshot held
    split
    · exact stocked.frame rfl rfl rfl
    · rename_i registry installed
      have own : snapshot.Has Trait.any key := (orderly.calls index _ held).proper
      have moves := Registry.install_moves installed
      rw [own.1] at moves
      have absent : reception.registry.find? key = none := by
        rw [← Option.not_isSome_iff_eq_none, stocked.stored]
        exact (orderly.absent held).2
      refine ⟨?_, ?_, ?_, stocked.single⟩
      · intro place
        show (registry.find? place).isSome = true ↔
          place ∈ (reception.created ++ [(snapshot.key, index)]).map Prod.fst
        rw [moves.stores, List.map_append, List.mem_append, ← stocked.stored, own.1]
        split
        · rename_i same
          simp [same]
        · rename_i other
          simp [other]
      · intro place store there
        change registry.find? place = some store at there
        rw [moves.stores] at there
        split at there
        · rename_i same
          cases there
          exact same ▸ PoolStore.has_start own
        · exact stocked.own place store there
      · intro change
        show change ∈ reception.flights ↔
          ∃ key store, registry.find? key = some store ∧ store.flight? = some change
        rw [stocked.flying]
        constructor
        · rintro ⟨place, store, there, flight⟩
          have other : place ≠ key := by
            rintro rfl
            rw [absent] at there
            cases there
          exact ⟨place, store, (moves.other other).trans there, flight⟩
        · rintro ⟨place, store, there, flight⟩
          rw [moves.stores] at there
          split at there
          · cases there
            cases flight
          · exact ⟨place, store, there, flight⟩
  · exact stocked

theorem Stocked.push (stocked : reception.Stocked) (index : Nat) (mutation : Mutation) :
    (reception.push index mutation).Stocked := by
  unfold Reception.push
  split
  · exact stocked
  · rename_i key _
    rcases reception.registry.push_cases key ⟨reception.requests, mutation⟩ with
      ⟨same, -⟩ | ⟨same, -⟩ | ⟨store, there, -, moves⟩
    · exact stocked.frame (congrArg Registry.stores same :) rfl rfl
    · exact stocked.frame (congrArg Registry.stores same :) rfl rfl
    · have own := stocked.own key store there
      exact stocked.touch there moves ⟨own.snapshot, fun _ _ _ _ _ _ => trivial, own.phase⟩ rfl

theorem Stocked.notify (stocked : reception.Stocked) (index : Nat) :
    (reception.notify index).Stocked := by
  unfold Reception.notify
  split
  · exact stocked
  · rename_i key _
    unfold Registry.notify
    split
    · exact stocked
    · rename_i store there
      have own := stocked.own key store there
      exact stocked.touch there (Registry.moves_insert _ _ _) ⟨own.snapshot, own.waiting, own.phase⟩
        rfl

theorem Stocked.act (stocked : reception.Stocked) (orderly : reception.Orderly)
    (act : ReceptionAct) : (reception.act act).Stocked := by
  cases act with
  | ask key | look key => exact stocked.frame rfl rfl rfl
  | enter index =>
      simp only [Reception.act, Reception.enter]
      split
      · split
        · exact stocked.frame rfl rfl rfl
        · exact stocked
        · split <;> exact stocked.frame rfl rfl rfl
      · exact stocked
  | load index draw =>
      simp only [Reception.act, Reception.load]
      split
      · unfold Reception.resume
        split <;> exact stocked.frame rfl rfl rfl
      · exact stocked
  | install index => exact stocked.install orderly index
  | settle index =>
      simp only [Reception.act, Reception.settle]
      split
      · exact stocked.frame rfl rfl rfl
      · exact stocked
  | leave index =>
      simp only [Reception.act, Reception.leave]
      split
      · exact stocked.frame rfl rfl rfl
      · exact stocked.frame rfl rfl rfl
      · exact stocked
  | push index mutation => exact stocked.push index mutation
  | notify index => exact stocked.notify index
  | work key =>
      refine stocked.drive key (PoolStore.keeps_step _ _) ?_
      intro store around next after stepped
      obtain ⟨told, answers, -⟩ := (PoolStore.turn_of_step? stepped).serves
      exact ⟨told, answers⟩
  | finishUpdate key =>
      refine stocked.drive key PoolStore.keeps_finishUpdate ?_
      intro store around next after finished
      obtain ⟨_, _, _, _, _, -, -, rfl, -⟩ := PoolStore.end_of_finishUpdate? finished
      exact ⟨[], (List.append_nil _).symm⟩
  | abandonUpdate key =>
      refine stocked.drive key PoolStore.keeps_abandonUpdate ?_
      intro store around next after abandoned
      obtain ⟨_, _, _, _, -, -, rfl, -⟩ := PoolStore.end_of_abandonUpdate? abandoned
      exact ⟨[], (List.append_nil _).symm⟩
  | shutDown | others client clock => exact stocked.frame rfl rfl rfl

end Reception

end ClaimStore
