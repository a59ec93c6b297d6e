import ClaimStore.Proofs.Shutdown.System

/-!
What one act does to the stores, the answers and the requests of a registry.
-/
namespace ClaimStore

namespace Registry

variable {registry : Registry} {key : PoolKey} {store : PoolStore}

/-- What holds of all stores and of the new one holds of all stores afterwards. -/
theorem Moves.every {after : Registry} {told : List (Nat × Answer)}
    (moves : registry.Moves after key store told) (holds : PoolStore → Prop)
    (old : ∀ place found, registry.find? place = some found → holds found) (new : holds store) :
    ∀ place found, after.find? place = some found → holds found := by
  intro place found there
  rw [moves.stores] at there
  split at there
  · cases there
    exact new
  · exact old place found there

theorem push_closed (request : Request) (found : registry.find? key = some store)
    (closed : store.queue.isClosed = true) :
    registry.Moves (registry.push key request) key store [(request.id, .shutDown)] := by
  have pushed : registry.push key request = registry.answer request.id .shutDown := by
    simp [push, found, PoolStore.push?, RequestQueue.push?, closed]
  rw [pushed]
  refine ⟨rfl, ?_, rfl⟩
  intro place
  split
  · rename_i same
    rw [same]
    exact found
  · rfl

theorem push_opened (request : Request) (found : registry.find? key = some store)
    (opened : store.queue.isClosed = false) :
    registry.Moves (registry.push key request) key
      { store with queue := { store.queue with waiting := store.queue.waiting ++ [request] } } [] := by
  have pushed : registry.push key request =
      { registry with
        stores := registry.stores.insert key
          { store with
            queue := { store.queue with waiting := store.queue.waiting ++ [request] } } } := by
    simp [push, found, PoolStore.push?, RequestQueue.push?, opened]
  rw [pushed]
  exact registry.moves_insert key _

end Registry

/-- Whether an act is one of those that queue a request or let a worker act. -/
def ReceptionAct.stirs : ReceptionAct → Bool
  | .push _ _ | .work _ => true
  | _ => false

namespace Reception

/-- An act leaves the stores alone, or adds one, or changes one of them. -/
inductive Move (reception : Reception) : ReceptionAct → Reception → Prop
  | aside {act after} (silent : ∀ index mutation, act = .push index mutation →
        reception.handle? index = none)
      (rests : ∀ key store, act = .work key → reception.registry.find? key = some store →
        PoolStore.step? reception.registry.batchSize reception.registry.isShutDown
          (store, reception.registry.surroundings reception.client key) = none)
      (stores : ∀ key, after.registry.find? key = reception.registry.find? key)
      (clock : after.registry.clock = reception.registry.clock ∨
        ∃ client, act = .others client after.registry.clock)
      (told : after.registry.answers = reception.registry.answers)
      (requests : after.requests = reception.requests) : Move reception act after
  | install {index key snapshot after} (absent : reception.registry.find? key = none)
      (isOpen : reception.registry.isShutDown = false)
      (moves : reception.registry.Moves after.registry key (.start snapshot) [])
      (requests : after.requests = reception.requests) : Move reception (.install index) after
  | queue {index mutation key store after} (handle : reception.handle? index = some key)
      (found : reception.registry.find? key = some store)
      (opened : store.queue.isClosed = false)
      (moves : reception.registry.Moves after.registry key
        { store with
          queue := { store.queue with
            waiting := store.queue.waiting ++ [⟨reception.requests, mutation⟩] } } [])
      (requests : after.requests = reception.requests + 1) :
      Move reception (.push index mutation) after
  | reject {index mutation key store after} (handle : reception.handle? index = some key)
      (found : reception.registry.find? key = some store) (closed : store.queue.isClosed = true)
      (moves : reception.registry.Moves after.registry key store
        [(reception.requests, .shutDown)])
      (requests : after.requests = reception.requests + 1) :
      Move reception (.push index mutation) after
  | notify {index key store after} (found : reception.registry.find? key = some store)
      (moves : reception.registry.Moves after.registry key store.trigger [])
      (requests : after.requests = reception.requests) : Move reception (.notify index) after
  | work {key store next around told after} (found : reception.registry.find? key = some store)
      (stepped : PoolStore.step? reception.registry.batchSize reception.registry.isShutDown
        (store, reception.registry.surroundings reception.client key) = some (next, around))
      (answers : around.answers = reception.registry.answers ++ told)
      (moves : reception.registry.Moves after.registry key next told)
      (requests : after.requests = reception.requests) : Move reception (.work key) after
  | conclude {act key store batch change delay conclusion after}
      (ending : act = .finishUpdate key ∨ act = .abandonUpdate key)
      (found : reception.registry.find? key = some store)
      (awaiting : store.phase = .awaiting batch change delay)
      (moves : reception.registry.Moves after.registry key
        { store with phase := .concluding batch conclusion } [])
      (requests : after.requests = reception.requests) : Move reception act after

variable {reception : Reception}

theorem Move.same {act : ReceptionAct}
    (silent : ∀ index mutation, act = .push index mutation → reception.handle? index = none)
    (rests : ∀ key store, act = .work key → reception.registry.find? key = some store →
      PoolStore.step? reception.registry.batchSize reception.registry.isShutDown
        (store, reception.registry.surroundings reception.client key) = none) :
    Move reception act reception :=
  .aside silent rests (fun _ => rfl) (.inl rfl) rfl rfl

/-- Nobody queues a request, and no worker acts. -/
theorem move_aside {act : ReceptionAct} {after : Reception} (aside : act.stirs = false)
    (stores : after.registry.stores = reception.registry.stores)
    (clock : after.registry.clock = reception.registry.clock)
    (told : after.registry.answers = reception.registry.answers)
    (requests : after.requests = reception.requests) : Move reception act after := by
  refine .aside ?_ ?_ ?_ (.inl clock) told requests
  · intro index mutation same
    rw [same] at aside
    cases aside
  · intro key store same
    rw [same] at aside
    cases aside
  · intro key
    rw [Registry.find?, stores]
    rfl

theorem move_enter (reception : Reception) (index : Nat) :
    Move reception (.enter index) (reception.enter index) := by
  unfold enter
  split
  · split
    · exact move_aside rfl rfl rfl rfl rfl
    · exact move_aside rfl rfl rfl rfl rfl
    · split <;> exact move_aside rfl rfl rfl rfl rfl
  · exact move_aside rfl rfl rfl rfl rfl

theorem resume_frame (reception : Reception) (index : Nat) (key : PoolKey) (step : LoadStep) :
    (reception.resume index key step).registry = reception.registry ∧
      (reception.resume index key step).requests = reception.requests ∧
      (reception.resume index key step).created = reception.created := by
  cases step with
  | continued | paused | impossible => exact ⟨rfl, rfl, rfl⟩
  | ended result => cases result <;> exact ⟨rfl, rfl, rfl⟩

theorem move_load (reception : Reception) (index : Nat) (draw : Draw) :
    Move reception (.load index draw) (reception.load index draw) := by
  unfold load
  split
  · rename_i key load held
    cases stepped : load.step draw reception.client with
    | mk step client =>
        obtain ⟨registry, requests, -⟩ := { reception with client }.resume_frame index key step
        exact move_aside rfl (congrArg Registry.stores registry)
          (congrArg Registry.clock registry) (congrArg Registry.answers registry) requests
  · exact move_aside rfl rfl rfl rfl rfl

theorem move_install (sound : reception.Sound) (index : Nat) :
    Move reception (.install index) (reception.install index) := by
  unfold install
  split
  · rename_i key snapshot held
    split
    · exact move_aside rfl rfl rfl rfl rfl
    · rename_i registry installed
      have own : snapshot.Has Trait.any key := (sound.orderly.calls index _ held).proper
      have moves := Registry.install_moves installed
      rw [own.1] at moves
      have absent : reception.registry.find? key = none := by
        rw [← Option.not_isSome_iff_eq_none, sound.stocked.stored]
        exact (sound.orderly.absent held).2
      have isOpen : reception.registry.isShutDown = false := by
        unfold Registry.install at installed
        split at installed
        · cases installed
        · rename_i isOpen
          simpa using isOpen
      exact .install absent isOpen moves rfl
  · exact move_aside rfl rfl rfl rfl rfl

theorem Sound.found_of_handle (sound : reception.Sound) {index : Nat} {key : PoolKey}
    (handle : reception.handle? index = some key) :
    ∃ store, reception.registry.find? key = some store := by
  unfold handle? at handle
  split at handle
  · rename_i pool place held
    cases handle
    obtain ⟨-, creator, made⟩ := sound.orderly.place_of_served held
    apply Option.isSome_iff_exists.mp
    rw [sound.stocked.stored]
    exact List.mem_map_of_mem (List.mem_of_getElem? made)
  · cases handle

theorem move_push (sound : reception.Sound) (index : Nat) (mutation : Mutation) :
    Move reception (.push index mutation) (reception.push index mutation) := by
  cases handle : reception.handle? index with
  | none =>
      have same : reception.push index mutation = reception := by simp only [push, handle]
      rw [same]
      apply Move.same
      · intro index mutation same
        cases same
        exact handle
      · intro key store same
        cases same
  | some key =>
      obtain ⟨store, found⟩ := sound.found_of_handle handle
      have pushed : reception.push index mutation =
          { reception with
            registry := reception.registry.push key ⟨reception.requests, mutation⟩
            requests := reception.requests + 1 } := by
        simp only [push, handle]
      rw [pushed]
      cases closed : store.queue.isClosed with
      | true =>
          have moves := Registry.push_closed ⟨reception.requests, mutation⟩ found closed
          exact .reject handle found closed moves rfl
      | false =>
          have moves := Registry.push_opened ⟨reception.requests, mutation⟩ found closed
          exact .queue handle found closed moves rfl

theorem shut_drive (isDown : reception.registry.isShutDown = true) (key : PoolKey)
    (action : PoolStore × Surroundings → Option (PoolStore × Surroundings)) :
    (reception.drive key (reception.registry.act? reception.client key action)).registry.isShutDown =
        true ∧
      (reception.drive key (reception.registry.act? reception.client key action)).created =
        reception.created := by
  cases acted : reception.registry.act? reception.client key action with
  | none => exact ⟨isDown, rfl⟩
  | some result => exact ⟨(Registry.act?_settings acted).isShutDown.trans isDown, rfl⟩

/-- A shutdown is for good, and no store is created after it. -/
theorem shut_act (isDown : reception.registry.isShutDown = true) (act : ReceptionAct) :
    (reception.act act).registry.isShutDown = true ∧
      (reception.act act).created = reception.created := by
  cases act with
  | ask key | look key => exact ⟨isDown, rfl⟩
  | enter index =>
      simp only [Reception.act, enter]
      split
      · split
        · exact ⟨isDown, rfl⟩
        · exact ⟨isDown, rfl⟩
        · split <;> exact ⟨isDown, rfl⟩
      · exact ⟨isDown, rfl⟩
  | load index draw =>
      simp only [Reception.act, load]
      split
      · rename_i key load held
        cases stepped : load.step draw reception.client with
        | mk step client =>
            obtain ⟨registry, -, created⟩ := { reception with client }.resume_frame index key step
            exact ⟨(congrArg Registry.isShutDown registry).trans isDown, created⟩
      · exact ⟨isDown, rfl⟩
  | install index =>
      simp only [Reception.act, install]
      split
      · split
        · exact ⟨isDown, rfl⟩
        · rename_i registry installed
          simp [Registry.install, isDown] at installed
      · exact ⟨isDown, rfl⟩
  | settle index =>
      simp only [Reception.act, settle]
      split <;> exact ⟨isDown, rfl⟩
  | leave index =>
      simp only [Reception.act, leave]
      split <;> exact ⟨isDown, rfl⟩
  | push index mutation =>
      simp only [Reception.act, push]
      split
      · exact ⟨isDown, rfl⟩
      · exact ⟨(Registry.push_settings _ _ _).isShutDown.trans isDown, rfl⟩
  | notify index =>
      simp only [Reception.act, notify]
      split
      · exact ⟨isDown, rfl⟩
      · exact ⟨(Registry.notify_settings _ _).isShutDown.trans isDown, rfl⟩
  | work key | finishUpdate key | abandonUpdate key => exact shut_drive isDown key _
  | shutDown => exact ⟨rfl, rfl⟩
  | others client clock => exact ⟨isDown, rfl⟩

/-- Only a caller who has not failed moves on. -/
theorem held_of_set {index other : Nat} {call old : Call} (next : Call)
    (held : reception.calls[index]? = some call) (failed : call.hasFailed = true)
    (moves : reception.calls[other]? = some old) (goes : old.hasFailed = false) :
    (reception.calls.set other next)[index]? = some call := by
  have apart : other ≠ index := by
    intro same
    rw [same, held] at moves
    rw [Option.some.inj moves, goes] at failed
    cases failed
  rw [List.getElem?_set_ne apart]
  exact held

theorem held_of_append {index : Nat} {call : Call} (next : Call)
    (held : reception.calls[index]? = some call) :
    (reception.calls ++ [next])[index]? = some call := by
  rw [List.getElem?_append_left (List.getElem?_eq_some_iff.mp held).1]
  exact held

/-- Who has failed is not given a store later. -/
theorem failed_act {index : Nat} {call : Call} (held : reception.calls[index]? = some call)
    (failed : call.hasFailed = true) (act : ReceptionAct) :
    (reception.act act).calls[index]? = some call := by
  cases act with
  | ask pool | look pool => exact held_of_append _ held
  | enter other =>
      simp only [Reception.act, enter]
      split
      · rename_i pool waiting
        split
        · exact held_of_set _ held failed waiting rfl
        · exact held
        · split <;> exact held_of_set _ held failed waiting rfl
      · exact held
  | load other draw =>
      simp only [Reception.act, load]
      split
      · rename_i pool load loading
        unfold resume
        split <;> exact held_of_set _ held failed loading rfl
      · exact held
  | install other =>
      simp only [Reception.act, install]
      split
      · rename_i pool snapshot found
        split <;> exact held_of_set _ held failed found rfl
      · exact held
  | settle other =>
      simp only [Reception.act, settle]
      split
      · rename_i pool place settling
        exact held_of_set _ held failed settling rfl
      · exact held
  | leave other =>
      simp only [Reception.act, leave]
      split
      · rename_i pool waiting
        exact held_of_set _ held failed waiting rfl
      · rename_i pool loading underway
        exact held_of_set _ held failed underway rfl
      · exact held
  | push other mutation =>
      simp only [Reception.act, push]
      split <;> exact held
  | notify other =>
      simp only [Reception.act, notify]
      split <;> exact held
  | work pool | finishUpdate pool | abandonUpdate pool =>
      simp only [Reception.act, drive]
      split <;> exact held
  | shutDown | others client clock => exact held

theorem move_notify (sound : reception.Sound) (index : Nat) :
    Move reception (.notify index) (reception.notify index) := by
  cases handle : reception.handle? index with
  | none =>
      have same : reception.notify index = reception := by simp only [notify, handle]
      rw [same]
      exact move_aside rfl rfl rfl rfl rfl
  | some key =>
      obtain ⟨store, found⟩ := sound.found_of_handle handle
      have notified : reception.notify index =
          { reception with
            registry := { reception.registry with
              stores := reception.registry.stores.insert key store.trigger } } := by
        simp only [notify, handle, Registry.notify, found]
      rw [notified]
      exact .notify found (reception.registry.moves_insert key store.trigger) rfl

theorem move_work (reception : Reception) (key : PoolKey) :
    Move reception (.work key)
      (reception.drive key (reception.registry.step? reception.client key)) := by
  cases acted : reception.registry.step? reception.client key with
  | none =>
      apply Move.same
      · intro index mutation same
        cases same
      · intro pool store same found
        cases same
        cases stepped : PoolStore.step? reception.registry.batchSize reception.registry.isShutDown
            (store, reception.registry.surroundings reception.client key) with
        | none => rfl
        | some result => simp [Registry.step?, Registry.act?, found, stepped] at acted
  | some result =>
      obtain ⟨registry, client⟩ := result
      obtain ⟨store, next, around, found, stepped, -, moves⟩ := Registry.act?_moves acted
      obtain ⟨told, answers, -⟩ := (PoolStore.turn_of_step? stepped).serves
      exact .work found stepped answers (moves told answers) rfl

theorem move_finishUpdate (reception : Reception) (key : PoolKey) :
    Move reception (.finishUpdate key) (reception.drive key
      (reception.registry.act? reception.client key PoolStore.finishUpdate?)) := by
  cases acted : reception.registry.act? reception.client key PoolStore.finishUpdate? with
  | none => exact move_aside rfl rfl rfl rfl rfl
  | some result =>
      obtain ⟨registry, client⟩ := result
      obtain ⟨store, next, around, found, finished, -, moves⟩ := Registry.act?_moves acted
      obtain ⟨batch, change, delay, reply, later, awaiting, rfl, rfl, -⟩ :=
        PoolStore.end_of_finishUpdate? finished
      exact .conclude (.inl rfl) found awaiting (moves [] (List.append_nil _).symm) rfl

theorem move_abandonUpdate (reception : Reception) (key : PoolKey) :
    Move reception (.abandonUpdate key) (reception.drive key
      (reception.registry.act? reception.client key PoolStore.abandonUpdate?)) := by
  cases acted : reception.registry.act? reception.client key PoolStore.abandonUpdate? with
  | none => exact move_aside rfl rfl rfl rfl rfl
  | some result =>
      obtain ⟨registry, client⟩ := result
      obtain ⟨store, next, around, found, abandoned, -, moves⟩ := Registry.act?_moves acted
      obtain ⟨batch, change, delay, later, awaiting, rfl, rfl, -⟩ :=
        PoolStore.end_of_abandonUpdate? abandoned
      exact .conclude (.inr rfl) found awaiting (moves [] (List.append_nil _).symm) rfl

theorem move_act (sound : reception.Sound) (act : ReceptionAct) :
    Move reception act (reception.act act) := by
  cases act with
  | ask key | look key => exact move_aside rfl rfl rfl rfl rfl
  | enter index => exact reception.move_enter index
  | load index draw => exact reception.move_load index draw
  | install index => exact move_install sound index
  | settle index =>
      simp only [Reception.act, settle]
      split <;> exact move_aside rfl rfl rfl rfl rfl
  | leave index =>
      simp only [Reception.act, leave]
      split <;> exact move_aside rfl rfl rfl rfl rfl
  | push index mutation => exact move_push sound index mutation
  | notify index => exact move_notify sound index
  | work key => exact reception.move_work key
  | finishUpdate key => exact reception.move_finishUpdate key
  | abandonUpdate key => exact reception.move_abandonUpdate key
  | shutDown => exact move_aside rfl rfl rfl rfl rfl
  | others client clock =>
      refine .aside ?_ ?_ (fun _ => rfl) (.inr ⟨client, rfl⟩) rfl rfl
      · intro index mutation same
        cases same
      · intro key store same
        cases same

end Reception

end ClaimStore
