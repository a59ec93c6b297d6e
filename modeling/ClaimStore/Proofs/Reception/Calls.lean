import ClaimStore.Proofs.Isolation.Traits
import ClaimStore.Proofs.Reception.System

/-!
Callers and cells.

A cell that is taken is held by the caller who has taken it, and only this one can change it. So the
stores that have been created are those in the cells, and those that are about to be put there.
-/
namespace ClaimStore

/-- What a caller knows of a cell. -/
def Call.cell? (index : Nat) : Call → Option (PoolKey × Cell)
  | .loading key _ | .settling key _ => some (key, .taken index)
  | .served key place => some (key, .filled place)
  | .waiting _ | .missed _ | .refused _ _ | .gone _ => none

/-- The load of a caller is one of the pool that was asked for, and a caller is sent away only after
a shutdown. -/
def Call.Proper (isShutDown : Bool) : Call → Prop
  | .loading key load => load.Has Trait.any key
  | .refused _ error => error = .shutDown → isShutDown = true
  | .waiting _ | .settling _ _ | .served _ _ | .missed _ | .gone _ => True

namespace Registry

/-- What is settled when a registry is created or shut down, or by the clock. -/
structure SameSettings (before after : Registry) : Prop where
  options : after.options = before.options
  clock : after.clock = before.clock
  isShutDown : after.isShutDown = before.isShutDown

variable {registry after : Registry} {client later : Client} {pool : PoolKey}

theorem loading_of_beginLoad {load : Load} (begun : registry.beginLoad pool = .loading load) :
    (Loading.underway load).Has Trait.any pool := by
  unfold beginLoad at begun
  split at begun
  · cases begun
  · rename_i storable
    split at begun
    · cases begun
      exact ⟨rfl, ⟨_, rfl⟩, by simpa using storable⟩
    · cases begun

theorem error_of_beginLoad {error : LoadError} (begun : registry.beginLoad pool = .failed error) :
    error ≠ .shutDown := by
  unfold beginLoad at begun
  split at begun
  · cases begun
    nofun
  · split at begun <;> cases begun

theorem install_settings {snapshot : Snapshot} (installed : registry.install snapshot = .ok after) :
    registry.SameSettings after := by
  unfold install at installed
  split at installed <;> cases installed
  exact ⟨rfl, rfl, rfl⟩

theorem error_of_install {snapshot : Snapshot} {error : LoadError}
    (refused : registry.install snapshot = .error error) : registry.isShutDown = true := by
  unfold install at refused
  split at refused
  · assumption
  · cases refused

theorem act?_settings {action : PoolStore × Surroundings → Option (PoolStore × Surroundings)}
    (acted : registry.act? client pool action = some (after, later)) :
    registry.SameSettings after := by
  obtain ⟨store, next, around, -, -, rfl, -⟩ := act?_cases acted
  exact ⟨rfl, rfl, rfl⟩

theorem push_settings (registry : Registry) (pool : PoolKey) (request : Request) :
    registry.SameSettings (registry.push pool request) := by
  unfold push
  split
  · exact ⟨rfl, rfl, rfl⟩
  · split <;> exact ⟨rfl, rfl, rfl⟩

theorem notify_settings (registry : Registry) (pool : PoolKey) :
    registry.SameSettings (registry.notify pool) := by
  unfold notify
  split <;> exact ⟨rfl, rfl, rfl⟩

end Registry

namespace Reception

/-- No store of the pool is there or about to be there, or it is the one in the cell. -/
def CellFits (reception : Reception) (key : PoolKey) : Cell → Prop
  | .vacant => key ∉ reception.created.map Prod.fst
  | .taken index =>
      (∃ loading, reception.calls[index]? = some (.loading key loading)) ∧
          key ∉ reception.created.map Prod.fst ∨
        ∃ place, reception.calls[index]? = some (.settling key place) ∧
          reception.created[place]? = some (key, index)
  | .filled place =>
      ∃ index, reception.calls[index]? = some (.served key place) ∧
        reception.created[place]? = some (key, index)

structure CallFits (reception : Reception) (index : Nat) (call : Call) : Prop where
  cell : ∀ key cell, call.cell? index = some (key, cell) → reception.cell key = cell
  proper : call.Proper reception.registry.isShutDown

structure Orderly (reception : Reception) : Prop where
  once : (reception.created.map Prod.fst).Nodup
  cells : ∀ key, reception.CellFits key (reception.cell key)
  calls : ∀ index call, reception.calls[index]? = some call → reception.CallFits index call

variable {reception after : Reception} {index : Nat} {key : PoolKey}

theorem CellFits.frame {cell : Cell} (fits : reception.CellFits key cell)
    (created : ∃ more, after.created = reception.created ++ more ∧ key ∉ more.map Prod.fst)
    (calls : ∀ (index : Nat) (call : Call) known, reception.calls[index]? = some call →
      call.cell? index = some (key, known) → after.calls[index]? = some call) :
    after.CellFits key cell := by
  obtain ⟨more, created, fresh⟩ := created
  have still : key ∉ reception.created.map Prod.fst → key ∉ after.created.map Prod.fst := by
    intro absent
    rw [created, List.map_append, List.mem_append]
    exact not_or.mpr ⟨absent, fresh⟩
  have kept : ∀ {place : Nat} {entry}, reception.created[place]? = some entry →
      after.created[place]? = some entry := by
    intro place entry found
    rw [created]
    exact List.getElem?_append_left (List.getElem?_eq_some_iff.mp found).1 ▸ found
  cases cell with
  | vacant => exact still fits
  | taken index =>
      rcases fits with ⟨⟨loading, held⟩, absent⟩ | ⟨place, held, made⟩
      · exact .inl ⟨⟨loading, calls _ _ _ held rfl⟩, still absent⟩
      · exact .inr ⟨place, calls _ _ _ held rfl, kept made⟩
  | filled place =>
      obtain ⟨index, held, made⟩ := fits
      exact ⟨index, calls _ _ _ held rfl, kept made⟩

theorem Orderly.cell_of (orderly : reception.Orderly) {call : Call} {cell : Cell}
    (held : reception.calls[index]? = some call) (knows : call.cell? index = some (key, cell)) :
    reception.cell key = cell :=
  (orderly.calls index call held).cell key cell knows

/-- While nobody has taken the cell, or a caller has, no other one knows of it. -/
theorem Orderly.alone (orderly : reception.Orderly)
    (own : reception.cell key = .vacant ∨ reception.cell key = .taken index)
    {other : Nat} {call : Call} (apart : other ≠ index)
    (held : reception.calls[other]? = some call) (known : Cell) :
    call.cell? other ≠ some (key, known) := by
  intro knows
  have same := orderly.cell_of held knows
  rw [same] at own
  cases call with
  | loading | settling =>
      cases knows
      rcases own with own | own <;> cases own
      exact apart rfl
  | served =>
      cases knows
      rcases own with own | own <;> cases own
  | waiting | missed | refused | gone => cases knows

/-- One caller moves on, and perhaps its cell. -/
theorem Orderly.advance {old new : Call} (orderly : reception.Orderly) (key : PoolKey)
    (held : reception.calls[index]? = some old)
    (mine : ∀ pool known, old.cell? index = some (pool, known) → pool = key)
    (calls : after.calls = reception.calls.set index new)
    (apart : ∀ pool, pool ≠ key → after.cell pool = reception.cell pool)
    (own : after.cell key = reception.cell key ∨ reception.cell key = .vacant ∨
      reception.cell key = .taken index)
    (created : ∃ more, after.created = reception.created ++ more ∧ ∀ entry ∈ more, entry.1 = key)
    (once : (after.created.map Prod.fst).Nodup)
    (isShutDown : after.registry.isShutDown = reception.registry.isShutDown)
    (fits : after.CellFits key (after.cell key)) (well : after.CallFits index new) :
    after.Orderly := by
  have within : index < reception.calls.length := (List.getElem?_eq_some_iff.mp held).1
  have others : ∀ other, other ≠ index → after.calls[other]? = reception.calls[other]? := by
    intro other apart
    rw [calls, List.getElem?_set_ne apart.symm]
  refine ⟨once, ?_, ?_⟩
  · intro pool
    by_cases same : pool = key
    · rw [same]
      exact fits
    · rw [apart pool same]
      obtain ⟨more, created, added⟩ := created
      refine (orderly.cells pool).frame ⟨more, created, ?_⟩ ?_
      · intro member
        obtain ⟨entry, there, fst⟩ := List.mem_map.mp member
        exact same (fst ▸ added entry there)
      · intro other call known there knows
        rw [others other, there]
        rintro rfl
        rw [held] at there
        cases there
        exact same (mine pool known knows)
  · intro other call there
    by_cases same : other = index
    · subst same
      rw [calls, List.getElem?_set_self within] at there
      cases there
      exact well
    · rw [others other same] at there
      refine ⟨?_, ?_⟩
      · intro pool cell knows
        rw [← orderly.cell_of there knows]
        by_cases here : pool = key
        · subst here
          exact own.resolve_right fun free => orderly.alone free same there cell knows
        · exact apart pool here
      · rw [isShutDown]
        exact (orderly.calls other call there).proper

theorem cell_move (reception : Reception) (index : Nat) (key pool : PoolKey) (cell : Cell)
    (call : Call) :
    (reception.move index key cell call).cell pool =
      if pool = key then cell else reception.cell pool := by
  unfold move setCall setCell Reception.cell
  simp only [Table.find?_insert]
  split <;> rfl

/-- A caller moves on without touching the cell. -/
theorem Orderly.setCall {old new : Call} (orderly : reception.Orderly) (key : PoolKey)
    (held : reception.calls[index]? = some old)
    (mine : ∀ pool known, old.cell? index = some (pool, known) → pool = key)
    (fits : (reception.setCall index new).CellFits key (reception.cell key))
    (well : (reception.setCall index new).CallFits index new) :
    (reception.setCall index new).Orderly :=
  orderly.advance key held mine rfl (fun _ _ => rfl) (.inl rfl)
    ⟨[], (List.append_nil _).symm, by simp⟩ orderly.once rfl fits well

/-- A caller who knows of no cell moves on. -/
theorem Orderly.ignore {old new : Call} (orderly : reception.Orderly)
    (held : reception.calls[index]? = some old) (ignorant : old.cell? index = none)
    (well : (reception.setCall index new).CallFits index new) :
    (reception.setCall index new).Orderly := by
  have unknown : ∀ pool known, old.cell? index ≠ some (pool, known) := by
    intro pool known knows
    rw [ignorant] at knows
    cases knows
  refine orderly.setCall default held (fun pool known knows => absurd knows (unknown pool known)) ?_
    well
  refine (orderly.cells _).frame ⟨[], (List.append_nil _).symm, by simp⟩ ?_
  intro other call known there knows
  rw [Reception.setCall, List.getElem?_set_ne, there]
  rintro rfl
  rw [held] at there
  cases there
  exact unknown _ known knows

/-- A caller moves on together with a cell that nobody else has taken. -/
theorem Orderly.move {old new : Call} {cell : Cell} (orderly : reception.Orderly)
    (held : reception.calls[index]? = some old)
    (mine : ∀ pool known, old.cell? index = some (pool, known) → pool = key)
    (own : reception.cell key = .vacant ∨ reception.cell key = .taken index)
    (fits : (reception.move index key cell new).CellFits key cell)
    (knows : ∀ pool known, new.cell? index = some (pool, known) → pool = key ∧ known = cell)
    (proper : new.Proper reception.registry.isShutDown) :
    (reception.move index key cell new).Orderly := by
  have here : (reception.move index key cell new).cell key = cell := by
    rw [cell_move, if_pos rfl]
  refine orderly.advance key held mine rfl ?_ (.inr own) ⟨[], (List.append_nil _).symm, by simp⟩
    orderly.once rfl (here.symm ▸ fits) ⟨?_, proper⟩
  · intro pool other
    rw [cell_move, if_neg other]
  · intro pool known told
    obtain ⟨rfl, rfl⟩ := knows pool known told
    exact here

/-- A caller who comes in knows of no cell, or of one that is filled. -/
theorem Orderly.append (orderly : reception.Orderly) {call : Call}
    (well : reception.CallFits reception.calls.length call) :
    Orderly { reception with calls := reception.calls ++ [call] } := by
  refine ⟨orderly.once, ?_, ?_⟩
  · intro pool
    refine (orderly.cells pool).frame ⟨[], (List.append_nil _).symm, by simp⟩ ?_
    intro index call known held _
    exact List.getElem?_append_left (List.getElem?_eq_some_iff.mp held).1 ▸ held
  · intro index other held
    rcases Nat.lt_or_ge index reception.calls.length with before | behind
    · rw [List.getElem?_append_left before] at held
      exact ⟨(orderly.calls index other held).cell, (orderly.calls index other held).proper⟩
    · rw [List.getElem?_append_right behind] at held
      obtain ⟨rfl, same⟩ : index = reception.calls.length ∧ call = other := by
        have within := (List.getElem?_eq_some_iff.mp held).1
        rw [List.length_singleton] at within
        have here : index = reception.calls.length := by omega
        subst here
        simpa using held
      rw [← same]
      exact ⟨well.cell, well.proper⟩

/-- Callers and cells are not touched, and a shutdown is for good. -/
theorem Orderly.frame (orderly : reception.Orderly) (calls : after.calls = reception.calls)
    (cells : after.cells = reception.cells) (created : after.created = reception.created)
    (isShutDown : reception.registry.isShutDown = true → after.registry.isShutDown = true) :
    after.Orderly := by
  have cell : ∀ pool, after.cell pool = reception.cell pool := by
    intro pool
    rw [Reception.cell, cells]
    rfl
  refine ⟨created ▸ orderly.once, ?_, ?_⟩
  · intro pool
    rw [cell]
    refine (orderly.cells pool).frame ⟨[], by rw [created, List.append_nil], by simp⟩ ?_
    intro index call known held _
    rw [calls, held]
  · intro index call held
    rw [calls] at held
    have fits := orderly.calls index call held
    refine ⟨?_, ?_⟩
    · intro pool known knows
      rw [cell]
      exact fits.cell pool known knows
    · cases call with
      | refused other error => exact fun same => isShutDown (fits.proper same)
      | waiting | loading | settling | served | missed | gone => exact fits.proper

theorem orderly_start (registry : Registry) (client : Client) : (start registry client).Orderly := by
  refine ⟨List.nodup_nil, ?_, ?_⟩
  · intro pool
    exact List.not_mem_nil
  · intro index call held
    cases held

theorem Orderly.ask (orderly : reception.Orderly) (key : PoolKey) : (reception.ask key).Orderly := by
  refine orderly.append ?_
  split
  · rename_i isDown
    exact ⟨nofun, fun _ => isDown⟩
  · exact ⟨nofun, trivial⟩

theorem Orderly.look (orderly : reception.Orderly) (key : PoolKey) :
    (reception.look key).Orderly := by
  refine orderly.append ?_
  split
  · rename_i place filled
    refine ⟨?_, trivial⟩
    intro pool cell knows
    cases knows
    exact filled
  · exact ⟨nofun, trivial⟩
  · exact ⟨nofun, trivial⟩

theorem Orderly.enter (orderly : reception.Orderly) (index : Nat) :
    (reception.enter index).Orderly := by
  unfold Reception.enter
  split
  · rename_i key held
    have within : index < reception.calls.length := (List.getElem?_eq_some_iff.mp held).1
    split
    · rename_i place filled
      refine orderly.ignore held rfl ⟨?_, trivial⟩
      intro pool cell knows
      cases knows
      exact filled
    · exact orderly
    · rename_i vacant
      split
      · rename_i load begun
        refine orderly.move held nofun (.inl vacant) (.inl ⟨⟨_, List.getElem?_set_self within⟩, ?_⟩)
          ?_ (Registry.loading_of_beginLoad begun)
        · have absent := orderly.cells key
          rw [vacant] at absent
          exact absent
        · intro pool known knows
          cases knows
          exact ⟨rfl, rfl⟩
      · rename_i error begun
        exact orderly.ignore held rfl
          ⟨nofun, fun same => absurd same (Registry.error_of_beginLoad begun)⟩
      · exact orderly.ignore held rfl ⟨nofun, trivial⟩
      · exact orderly.ignore held rfl ⟨nofun, trivial⟩
  · exact orderly

theorem Orderly.absent (orderly : reception.Orderly) {loading : Loading}
    (held : reception.calls[index]? = some (.loading key loading)) :
    reception.cell key = .taken index ∧ key ∉ reception.created.map Prod.fst := by
  have taken : reception.cell key = .taken index := orderly.cell_of held rfl
  refine ⟨taken, ?_⟩
  have fits := orderly.cells key
  rw [taken] at fits
  rcases fits with ⟨-, absent⟩ | ⟨place, other, -⟩
  · exact absent
  · rw [held] at other
    cases other

/-- The load of a caller comes to nothing, and the cell is free again. -/
theorem Orderly.release (orderly : reception.Orderly) {loading : Loading} {call : Call}
    (held : reception.calls[index]? = some (.loading key loading))
    (ignorant : call.cell? index = none) (proper : call.Proper reception.registry.isShutDown) :
    (reception.move index key .vacant call).Orderly := by
  obtain ⟨taken, absent⟩ := orderly.absent held
  refine orderly.move held ?_ (.inr taken) absent ?_ proper
  · intro pool known knows
    cases knows
    rfl
  · intro pool known knows
    rw [ignorant] at knows
    cases knows

theorem Orderly.resume (orderly : reception.Orderly) {loading : Loading}
    (held : reception.calls[index]? = some (.loading key loading)) {step : LoadStep}
    (has : step.Has Trait.any key) (error : step ≠ .ended (.error .shutDown)) :
    (reception.resume index key step).Orderly := by
  have within : index < reception.calls.length := (List.getElem?_eq_some_iff.mp held).1
  obtain ⟨taken, absent⟩ := orderly.absent held
  have onward : ∀ next, step.loading? = some next →
      (reception.setCall index (.loading key next)).Orderly := by
    intro next same
    refine orderly.setCall key held ?_ ?_ ⟨?_, has next same⟩
    · intro pool known knows
      cases knows
      rfl
    · rw [taken]
      exact .inl ⟨⟨next, List.getElem?_set_self within⟩, absent⟩
    · intro pool known knows
      cases knows
      exact taken
  cases step with
  | continued load | paused load => exact onward _ rfl
  | ended result =>
      cases result with
      | ok snapshot => exact onward _ rfl
      | error cause =>
          refine orderly.release held rfl ?_
          rintro rfl
          exact absurd rfl error
  | impossible => exact orderly.release held rfl trivial

end Reception

/-- No load hears of a shutdown by itself. -/
theorem Load.step_error (load : Load) (draw : Draw) (client : Client) :
    (load.step draw client).1 ≠ .ended (.error .shutDown) := by
  unfold step
  split
  · nofun
  · unfold decode
    split <;> nofun
  · unfold recover
    split <;> nofun

namespace Reception

variable {reception : Reception}

theorem Orderly.load (orderly : reception.Orderly) (index : Nat) (draw : Draw) :
    (reception.load index draw).Orderly := by
  unfold Reception.load
  split
  · rename_i key load held
    have proper := (orderly.calls index _ held).proper
    have everywhere : reception.client.backend.records.Show Trait.any := fun _ _ _ => trivial
    obtain ⟨step, client, stepped, has, -⟩ := Load.has_step proper draw everywhere
    have error := load.step_error draw reception.client
    rw [stepped] at error
    simp only [stepped]
    have same : Orderly { reception with client } := orderly.frame rfl rfl rfl id
    exact same.resume held has error
  · exact orderly

theorem Orderly.install (orderly : reception.Orderly) (index : Nat) :
    (reception.install index).Orderly := by
  unfold Reception.install
  split
  · rename_i key snapshot held
    split
    · rename_i error refused
      exact orderly.release held rfl fun _ => Registry.error_of_install refused
    · rename_i registry installed
      obtain ⟨taken, absent⟩ := orderly.absent held
      have within : index < reception.calls.length := (List.getElem?_eq_some_iff.mp held).1
      obtain ⟨own, -⟩ : snapshot.Has Trait.any key := (orderly.calls index _ held).proper
      refine orderly.advance key held ?_ rfl (fun _ _ => rfl) (.inl rfl)
        ⟨[(snapshot.key, index)], rfl, ?_⟩ ?_ (Registry.install_settings installed).isShutDown ?_ ⟨?_, trivial⟩
      · intro pool known knows
        cases knows
        rfl
      · simp [own]
      · rw [own]
        show ((reception.created ++ [(key, index)]).map Prod.fst).Nodup
        rw [List.map_append, List.nodup_append_comm]
        exact List.nodup_cons.mpr ⟨absent, orderly.once⟩
      · show CellFits _ key (reception.cell key)
        rw [taken]
        refine .inr ⟨reception.created.length, List.getElem?_set_self within, ?_⟩
        rw [own]
        exact List.getElem?_concat_length
      · intro pool known knows
        cases knows
        exact taken
  · exact orderly

theorem Orderly.settle (orderly : reception.Orderly) (index : Nat) :
    (reception.settle index).Orderly := by
  unfold Reception.settle
  split
  · rename_i key place held
    have within : index < reception.calls.length := (List.getElem?_eq_some_iff.mp held).1
    have taken : reception.cell key = .taken index := orderly.cell_of held rfl
    have made : reception.created[place]? = some (key, index) := by
      have fits := orderly.cells key
      rw [taken] at fits
      rcases fits with ⟨⟨loading, other⟩, -⟩ | ⟨other, settling, made⟩
      · rw [held] at other
        cases other
      · rw [held] at settling
        cases settling
        exact made
    refine orderly.move held ?_ (.inr taken) ⟨index, List.getElem?_set_self within, made⟩ ?_ trivial
    · intro pool known knows
      cases knows
      rfl
    · intro pool known knows
      cases knows
      exact ⟨rfl, rfl⟩
  · exact orderly

theorem Orderly.leave (orderly : reception.Orderly) (index : Nat) :
    (reception.leave index).Orderly := by
  unfold Reception.leave
  split
  · rename_i key held
    exact orderly.ignore held rfl ⟨nofun, trivial⟩
  · rename_i key loading held
    exact orderly.release held rfl trivial
  · exact orderly

theorem Orderly.drive (orderly : reception.Orderly) (key : PoolKey)
    {action : PoolStore × Surroundings → Option (PoolStore × Surroundings)} :
    (reception.drive key (reception.registry.act? reception.client key action)).Orderly := by
  unfold Reception.drive
  cases acted : reception.registry.act? reception.client key action with
  | none => exact orderly
  | some result =>
      exact orderly.frame rfl rfl rfl (Registry.act?_settings acted).isShutDown.trans

theorem Orderly.act (orderly : reception.Orderly) (act : ReceptionAct) :
    (reception.act act).Orderly := by
  cases act with
  | ask key => exact orderly.ask key
  | look key => exact orderly.look key
  | enter index => exact orderly.enter index
  | load index draw => exact orderly.load index draw
  | install index => exact orderly.install index
  | settle index => exact orderly.settle index
  | leave index => exact orderly.leave index
  | push index mutation =>
      simp only [Reception.act, Reception.push]
      split
      · exact orderly
      · exact orderly.frame rfl rfl rfl (Registry.push_settings _ _ _).isShutDown.trans
  | notify index =>
      simp only [Reception.act, Reception.notify]
      split
      · exact orderly
      · exact orderly.frame rfl rfl rfl (Registry.notify_settings _ _).isShutDown.trans
  | work key | finishUpdate key | abandonUpdate key => exact orderly.drive key
  | shutDown => exact orderly.frame rfl rfl rfl fun _ => rfl
  | others client clock => exact orderly.frame rfl rfl rfl id

end Reception

end ClaimStore
