import ClaimStore.Proofs.Isolation.Registries

/-!
Registries with their loads that are alike for one of their pools.

The loads of a registry are as much apart as its stores: each step of a load uses and changes the
record of its own pool alone.
-/
namespace ClaimStore

namespace Member

structure Alike (key : PoolKey) (asked : List Nat) (left right : Member) : Prop where
  registry : left.registry.Alike key asked right.registry
  loading : left.loads.find? key = right.loads.find? key

variable {key pool : PoolKey} {asked : List Nat} {member left right : Member}
variable {client clientLeft clientRight : Client}
variable {action : PoolStore × Surroundings → Option (PoolStore × Surroundings)}

theorem alike_of_loads {loads : Table PoolKey Loading}
    (same : loads.find? key = member.loads.find? key) :
    Alike key asked member { member with loads } :=
  ⟨Registry.Alike.refl _ _ _, same.symm⟩

theorem alike_of_registry {registry : Registry}
    (alike : member.registry.Alike key asked registry) :
    Alike key asked member { member with registry } :=
  ⟨alike, rfl⟩

/-! What is done with another pool leads to such a registry. -/

theorem alike_ask (other : key ≠ pool) (hasWaited : Bool) :
    Alike key asked member (member.ask pool hasWaited) := by
  refine ⟨?_, ?_⟩
  · rw [ask_registry]
    exact Registry.Alike.refl _ _ _
  · rw [find?_ask, if_neg other]

theorem alike_resume (other : key ≠ pool) (step : LoadStep) :
    Alike key asked member (member.resume pool step) := by
  refine ⟨?_, ?_⟩
  · rw [resume_registry]
    exact Registry.Alike.refl _ _ _
  · rw [find?_resume, if_neg other]

theorem alike_leave (other : key ≠ pool) :
    Alike key asked member { member with loads := member.loads.erase pool } := by
  refine alike_of_loads ?_
  rw [Table.find?_erase, if_neg other]

theorem alike_install (other : key ≠ pool)
    (own : ∀ snapshot, member.loads.find? pool = some (.found snapshot) → snapshot.key = pool) :
    Alike key asked member (member.install pool) := by
  have gone : Alike key asked member { member with loads := member.loads.erase pool } :=
    alike_leave other
  unfold install
  split
  · rename_i snapshot found
    split
    · exact gone
    · rename_i registry installed
      exact ⟨Registry.alike_install other (own snapshot found) installed, gone.loading⟩
  · exact ⟨Registry.Alike.refl _ _ _, rfl⟩

/-- Each step of a load is about the record of its pool. -/
theorem alike_load (other : key ≠ pool) (healthy : client.Healthy)
    (own : ∀ load, member.loads.find? pool = some (.underway load) → load.request.key = pool.text)
    (draw : Draw) :
    Alike key asked member (member.load client pool draw).1 ∧
      client.Alike key.text (member.load client pool draw).2 := by
  have texts : key.text ≠ pool.text := fun same => other (PoolKey.text_injective same)
  unfold load
  split
  · rename_i load found
    obtain ⟨outcome, change, steps⟩ := load.local_step draw
    rw [own load found] at steps
    obtain ⟨-, changes⟩ := steps client healthy
    exact ⟨alike_resume other _, changes.alike healthy texts⟩
  · exact ⟨⟨Registry.Alike.refl _ _ _, rfl⟩, Client.Alike.refl healthy _⟩

theorem alike_drive (other : key ≠ pool) (healthy : client.Healthy)
    (own : ∀ store, member.registry.find? pool = some store → store.Local pool.text action)
    (silent : ∀ store next around, member.registry.find? pool = some store →
      action (store, member.registry.surroundings client pool) = some (next, around) →
      ∃ told, around.answers = member.registry.answers ++ told ∧ ∀ answer ∈ told, answer.1 ∉ asked)
    (watched : PoolKey) :
    let result := member.drive watched client pool (member.registry.act? client pool action)
    Alike key asked member result.1 ∧ client.Alike key.text result.2 := by
  unfold drive
  cases acted : member.registry.act? client pool action with
  | none => exact ⟨⟨Registry.Alike.refl _ _ _, rfl⟩, Client.Alike.refl healthy _⟩
  | some result =>
      obtain ⟨registries, clients⟩ := Registry.alike_act? other healthy own silent acted
      exact ⟨⟨registries, rfl⟩, clients⟩

/-! What is done with the pool itself keeps two registries alike. -/

namespace Alike

theorem refl (key : PoolKey) (asked : List Nat) (member : Member) : Alike key asked member member :=
  ⟨Registry.Alike.refl _ _ _, rfl⟩

theorem symm (alike : Alike key asked left right) : Alike key asked right left :=
  ⟨alike.registry.symm, alike.loading.symm⟩

theorem trans (first : Alike key asked left member) (second : Alike key asked member right) :
    Alike key asked left right :=
  ⟨first.registry.trans second.registry, first.loading.trans second.loading⟩

theorem ask (alike : Alike key asked left right) (hasWaited : Bool) :
    Alike key asked (left.ask key hasWaited) (right.ask key hasWaited) := by
  have waited : Registry.Alike key asked
      { left.registry with isShutDown := left.registry.isShutDown && !hasWaited }
      { right.registry with isShutDown := right.registry.isShutDown && !hasWaited } :=
    ⟨alike.registry.options, alike.registry.clock, by rw [alike.registry.isShutDown],
      alike.registry.store, alike.registry.cache, alike.registry.results⟩
  refine ⟨?_, ?_⟩
  · rw [ask_registry, ask_registry]
    exact alike.registry
  · rw [find?_ask, find?_ask, waited.startLoad, alike.loading]

theorem resume (alike : Alike key asked left right) (step : LoadStep) :
    Alike key asked (left.resume key step) (right.resume key step) := by
  refine ⟨?_, ?_⟩
  · rw [resume_registry, resume_registry]
    exact alike.registry
  · rw [find?_resume, find?_resume, if_pos rfl, if_pos rfl]

theorem leave (alike : Alike key asked left right) :
    Alike key asked { left with loads := left.loads.erase key }
      { right with loads := right.loads.erase key } := by
  refine ⟨alike.registry, ?_⟩
  rw [Table.find?_erase, Table.find?_erase, if_pos rfl, if_pos rfl]

theorem install (alike : Alike key asked left right)
    (own : ∀ snapshot, left.loads.find? key = some (.found snapshot) → snapshot.key = key) :
    Alike key asked (left.install key) (right.install key) := by
  unfold Member.install
  rw [← alike.loading]
  cases found : left.loads.find? key with
  | none => exact alike
  | some loading =>
      cases loading with
      | underway load => exact alike
      | found snapshot =>
          simp only
          rcases alike.registry.install (own snapshot found) with
            ⟨error, refusedLeft, refusedRight⟩ |
            ⟨nextLeft, nextRight, installedLeft, installedRight, installed⟩
          · rw [refusedLeft, refusedRight]
            exact alike.leave
          · rw [installedLeft, installedRight]
            exact ⟨installed, alike.leave.loading⟩

/-- A load goes on in both registries, or in none. -/
theorem load (alike : Alike key asked left right) (clients : clientLeft.Alike key.text clientRight)
    (own : ∀ load, left.loads.find? key = some (.underway load) → load.request.key = key.text)
    (draw : Draw) :
    Alike key asked (left.load clientLeft key draw).1 (right.load clientRight key draw).1 ∧
      (left.load clientLeft key draw).2.Alike key.text (right.load clientRight key draw).2 := by
  unfold Member.load
  rw [← alike.loading]
  cases found : left.loads.find? key with
  | none => exact ⟨alike, clients⟩
  | some loading =>
      cases loading with
      | found snapshot => exact ⟨alike, clients⟩
      | underway load =>
          simp only
          obtain ⟨outcome, change, steps⟩ := load.local_step draw
          rw [own load found] at steps
          obtain ⟨stepLeft, changesLeft⟩ := steps clientLeft clients.healthy.1
          obtain ⟨stepRight, changesRight⟩ := steps clientRight clients.healthy.2
          have same : (load.step draw clientLeft).1 = (load.step draw clientRight).1 := by
            rw [stepLeft, stepRight, clients.found, clients.delay]
          rw [same]
          exact ⟨alike.resume _, clients.changes changesLeft changesRight⟩

/-- A worker acts in both registries, or in none. -/
theorem drive (alike : Alike key asked left right) (clients : clientLeft.Alike key.text clientRight)
    (own : ∀ store, left.registry.find? key = some store → store.Local key.text action)
    (watchedLeft watchedRight : PoolKey) :
    let resultLeft :=
      left.drive watchedLeft clientLeft key (left.registry.act? clientLeft key action)
    let resultRight :=
      right.drive watchedRight clientRight key (right.registry.act? clientRight key action)
    Alike key asked resultLeft.1 resultRight.1 ∧
      resultLeft.2.Alike key.text resultRight.2 := by
  rcases alike.registry.act? clients own with
    ⟨idleLeft, idleRight⟩ |
    ⟨nextLeft, laterLeft, nextRight, laterRight, actedLeft, actedRight, registries, later⟩
  · rw [idleLeft, idleRight]
    exact ⟨alike, clients⟩
  · rw [actedLeft, actedRight]
    exact ⟨⟨registries, alike.loading⟩, later⟩

theorem work (alike : Alike key asked left right) (clients : clientLeft.Alike key.text clientRight)
    (watchedLeft watchedRight : PoolKey) :
    let resultLeft := left.drive watchedLeft clientLeft key (left.registry.step? clientLeft key)
    let resultRight :=
      right.drive watchedRight clientRight key (right.registry.step? clientRight key)
    Alike key asked resultLeft.1 resultRight.1 ∧
      resultLeft.2.Alike key.text resultRight.2 := by
  have same : right.registry.step? clientRight key =
      right.registry.act? clientRight key
        (PoolStore.step? left.registry.batchSize left.registry.isShutDown) := by
    rw [Registry.step?, Registry.batchSize, Registry.batchSize, alike.registry.options,
      alike.registry.isShutDown]
  rw [same]
  exact alike.drive clients (fun store _ => store.local_step? _ _) watchedLeft watchedRight

end Alike

end Member

end ClaimStore
