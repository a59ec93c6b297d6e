import ClaimStore.Proofs.Metering.Accounts

/-!
What one act does to the accounts of a registry, to its client and to the records kept of both.
-/
namespace ClaimStore

theorem Reception.resume_client (reception : Reception) (index : Nat) (key : PoolKey)
    (step : LoadStep) : (reception.resume index key step).client = reception.client := by
  cases step with
  | continued | paused | impossible => rfl
  | ended result => cases result <;> rfl

/-- A request is rejected, or queued without any change to what the worker does. -/
theorem Registry.push_store {registry : Registry} {key : PoolKey} {store : PoolStore}
    (found : registry.find? key = some store) (request : Request) :
    registry.push key request = registry.answer request.id .shutDown ∨
      ∃ next, next.phase = store.phase ∧
        registry.push key request = registry.withStore key next := by
  cases pushed : store.push? request with
  | none => exact .inl (by simp only [push, found, pushed])
  | some next =>
      refine .inr ⟨next, ?_, by simp only [push, found, pushed, withStore]⟩
      obtain ⟨queue, -, rfl⟩ := Option.map_eq_some_iff.mp pushed
      rfl

theorem Registry.notify_store (registry : Registry) (key : PoolKey) :
    registry.notify key = registry ∨ ∃ store, registry.find? key = some store ∧
      registry.notify key = registry.withStore key store.trigger := by
  cases found : registry.find? key with
  | none => exact .inl (by simp only [notify, found])
  | some store => exact .inr ⟨store, rfl, by simp only [notify, found, withStore]⟩

namespace Audit

/-- An act leaves the accounts alone, or a store comes, or something happens to one store or to one
cache. Only a worker updates records. -/
inductive Move (audit : Audit) : Audit → Prop
  | aside {reception} (same : audit.registry.SameAccounts reception.registry)
      (client : audit.client.Untouched reception.client) : Move audit { audit with reception }
  | install {reception snapshot} (absent : audit.registry.find? snapshot.key = none)
      (installed : audit.registry.install snapshot = .ok reception.registry)
      (client : reception.client = audit.client) : Move audit { audit with reception }
  | requeue {reception key store next} (found : audit.registry.find? key = some store)
      (phase : next.phase = store.phase)
      (registry : reception.registry = audit.registry.withStore key next)
      (client : reception.client = audit.client) : Move audit { audit with reception }
  | reject {reception request}
      (registry : reception.registry = audit.registry.answer request .shutDown)
      (client : reception.client = audit.client) : Move audit { audit with reception }
  | work {reception key store next around givenUp}
      (found : audit.registry.find? key = some store)
      (tally : store.phase.TellsOutcome →
        store.Tally next (audit.registry.surroundings audit.client key) around)
      (dues : audit.client.Direct → store.Dues next audit.client around.client givenUp)
      (registry : reception.registry = audit.registry.withWorker key next around)
      (client : reception.client = around.client) :
      Move audit { audit with reception, timeouts := audit.timeouts + givenUp }
  | cache (key : PoolKey) (act : CacheAct) : Move audit (audit.act (.cache key act))

variable {audit : Audit}

/-- Only what callers do has changed. -/
theorem Move.calls {reception : Reception} (registry : reception.registry = audit.registry)
    (client : reception.client = audit.client) : Move audit { audit with reception } := by
  refine .aside ?_ ?_
  · rw [registry]
    exact .refl _
  · rw [client]
    exact .refl _

theorem move_load (audit : Audit) (index : Nat) (draw : Draw) :
    Move audit { audit with reception := audit.reception.load index draw } := by
  unfold Reception.load
  split
  · rename_i key load held
    have untouched : audit.client.Untouched (load.step draw audit.reception.client).2 :=
      load.step_untouched draw audit.client
    cases stepped : load.step draw audit.reception.client with
    | mk step client =>
        have same := { audit.reception with client }.resume_frame index key step
        have kept := { audit.reception with client }.resume_client index key step
        refine .aside ?_ ?_
        · rw [same.1]
          exact .refl _
        · rw [kept]
          rwa [stepped] at untouched
  · exact .calls rfl rfl

theorem move_install (sound : audit.reception.Sound) (index : Nat) :
    Move audit { audit with reception := audit.reception.install index } := by
  unfold Reception.install
  split
  · rename_i key snapshot held
    split
    · exact .calls rfl rfl
    · rename_i registry installed
      have own : snapshot.Has Trait.any key := (sound.orderly.calls index _ held).proper
      refine .install ?_ installed rfl
      rw [own.1, ← Option.not_isSome_iff_eq_none]
      exact fun present => (sound.orderly.absent held).2 ((sound.stocked.stored key).mp present)
  · exact .calls rfl rfl

theorem move_push (sound : audit.reception.Sound) (index : Nat) (mutation : Mutation) :
    Move audit { audit with reception := audit.reception.push index mutation } := by
  unfold Reception.push
  split
  · exact .calls rfl rfl
  · rename_i key handle
    obtain ⟨store, found⟩ := sound.found_of_handle handle
    rcases audit.registry.push_store found ⟨audit.reception.requests, mutation⟩ with
      rejected | ⟨next, phase, queued⟩
    · exact .reject rejected rfl
    · exact .requeue found phase queued rfl

theorem move_notify (audit : Audit) (index : Nat) :
    Move audit { audit with reception := audit.reception.notify index } := by
  unfold Reception.notify
  split
  · exact .calls rfl rfl
  · rename_i key handle
    rcases audit.registry.notify_store key with same | ⟨store, found, triggered⟩
    · exact .calls same rfl
    · refine .requeue found ?_ triggered rfl
      rfl

/-- A worker may act, and the accounts are told what it has made of its store. -/
theorem move_drive (audit : Audit) (key : PoolKey) (givenUp : Nat)
    (action : PoolStore × Surroundings → Option (PoolStore × Surroundings))
    (tally : ∀ store next around,
      action (store, audit.registry.surroundings audit.client key) = some (next, around) →
      store.phase.TellsOutcome →
        store.Tally next (audit.registry.surroundings audit.client key) around)
    (dues : ∀ store next around,
      action (store, audit.registry.surroundings audit.client key) = some (next, around) →
      audit.client.Direct → store.Dues next audit.client around.client givenUp) :
    Move audit
      { audit with
        reception := audit.reception.drive key (audit.registry.act? audit.client key action)
        timeouts := audit.timeouts +
          if (audit.registry.act? audit.client key action).isSome then givenUp else 0 } := by
  cases acted : audit.registry.act? audit.client key action with
  | none => exact .calls rfl rfl
  | some result =>
      obtain ⟨after, later⟩ := result
      obtain ⟨store, next, around, found, done, rfl, rfl⟩ := Registry.act?_cases acted
      exact .work found (tally store next around done) (dues store next around done) rfl rfl

variable {audit : Audit}

theorem move_step (audit : Audit) (key : PoolKey) :
    Move audit (audit.act (.reception (.work key))) := by
  have moved := audit.move_drive key 0
    (PoolStore.step? audit.registry.batchSize audit.registry.isShutDown)
    (fun store next around stepped outcome => (PoolStore.turn_of_step? stepped).tally outcome)
    (fun store next around stepped direct => PoolStore.dues_step direct stepped)
  rwa [ite_self] at moved

theorem move_finishUpdate (audit : Audit) (key : PoolKey) :
    Move audit (audit.act (.reception (.finishUpdate key))) := by
  have moved := audit.move_drive key 0 PoolStore.finishUpdate?
    (fun store next around finished _ => by
      obtain ⟨batch, change, delay, result, client, awaiting, rfl, rfl, -⟩ :=
        PoolStore.end_of_finishUpdate? finished
      exact PoolStore.tally_concluding awaiting)
    (fun store next around finished direct => PoolStore.dues_finishUpdate direct finished)
  rwa [ite_self] at moved

theorem move_abandonUpdate (audit : Audit) (key : PoolKey) :
    Move audit (audit.act (.reception (.abandonUpdate key))) :=
  audit.move_drive key 1 PoolStore.abandonUpdate?
    (fun store next around abandoned _ => by
      obtain ⟨batch, change, delay, client, awaiting, rfl, rfl, -⟩ :=
        PoolStore.end_of_abandonUpdate? abandoned
      exact PoolStore.tally_concluding awaiting)
    (fun store next around abandoned direct => PoolStore.dues_abandonUpdate direct abandoned)

/-- Whatever happens, if others do not update records. -/
theorem move_act (sound : audit.reception.Sound) (act : AuditAct)
    (untouched : ∀ client clock, act = .reception (.others client clock) →
      audit.client.Untouched client) : Move audit (audit.act act) := by
  cases act with
  | cache key act => exact .cache key act
  | finishShutdown => exact .aside ⟨rfl, rfl, ⟨_, rfl⟩, rfl⟩ (.refl _)
  | reception act =>
      cases act with
      | ask key | look key => exact .calls rfl rfl
      | enter index =>
          simp only [Audit.act, Reception.act, Reception.enter]
          split
          · split
            · exact .calls rfl rfl
            · exact .calls rfl rfl
            · split <;> exact .calls rfl rfl
          · exact .calls rfl rfl
      | load index draw => exact audit.move_load index draw
      | install index => exact move_install sound index
      | settle index | leave index =>
          simp only [Audit.act, Reception.act, Reception.settle, Reception.leave]
          split <;> exact .calls rfl rfl
      | push index mutation => exact move_push sound index mutation
      | notify index => exact audit.move_notify index
      | work key => exact audit.move_step key
      | finishUpdate key => exact audit.move_finishUpdate key
      | abandonUpdate key => exact audit.move_abandonUpdate key
      | shutDown => exact .aside ⟨rfl, rfl, ⟨_, rfl⟩, rfl⟩ (.refl _)
      | others client clock =>
          exact .aside ⟨rfl, rfl, ⟨_, rfl⟩, rfl⟩ (untouched client clock rfl)

end Audit

end ClaimStore
