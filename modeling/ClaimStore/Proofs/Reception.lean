import ClaimStore.Proofs.Committing
import ClaimStore.Proofs.Reception.Retrying

/-!
One store and one worker for each pool.

Whatever the callers of a registry do, and whatever the record store answers them, a pool never gets
a second store. A load that fails leaves nothing behind, so that the next caller can try again.
-/
namespace ClaimStore

namespace Registry

variable {registry : Registry} {key : PoolKey} {load : Load}

theorem beginLoad_of_startLoad (started : registry.startLoad key = .loading load) :
    registry.isShutDown = false ∧ registry.beginLoad key = .loading load := by
  rw [startLoad_eq] at started
  split at started
  · cases started
  · rename_i isOpen
    refine ⟨by simpa using isOpen, ?_⟩
    cases found : registry.find? key with
    | none => simpa [found] using started
    | some store => simp [found] at started

theorem startLoad_policy (started : registry.startLoad key = .loading load) :
    ∃ policy, load = ⟨key, load.request, .reading, .start policy⟩ := by
  obtain ⟨-, -, now, policy, rfl⟩ := loading_of_startLoad started
  exact ⟨policy, rfl⟩

end Registry

/-- Whether a caller has come to an end without a store. -/
def Call.hasFailed : Call → Bool
  | .refused _ _ | .gone _ => true
  | .waiting _ | .loading _ _ | .settling _ _ | .served _ _ | .missed _ => false

namespace Reception

structure Sound (reception : Reception) : Prop where
  orderly : reception.Orderly
  stocked : reception.Stocked

/-- Somebody asks for a store and has it loaded in so many steps, with nothing in between. -/
def loadAlone (key : PoolKey) (index : Nat) (draw : Draw) (count : Nat) : List ReceptionAct :=
  [ReceptionAct.ask key, .enter index] ++ List.replicate count (ReceptionAct.load index draw) ++
    [ReceptionAct.install index, .settle index]

/-- What is promised to the callers of a registry. -/
structure Exclusive (reception : Reception) : Prop where
  /-- No pool gets a second store, nor a second worker. -/
  once : (reception.created.map Prod.fst).Nodup
  /-- The pools that have a store are those for which one has been created. -/
  stored : ∀ key, (reception.registry.find? key).isSome = true ↔
    key ∈ reception.created.map Prod.fst
  /-- Who has been served has been given the store that was created for the pool. -/
  served : ∀ (index : Nat) (key : PoolKey) (place : Nat), reception.calls[index]? = some (.served key place) →
    (reception.created[place]?).map Prod.fst = some key
  same : ∀ (first second : Nat) (key : PoolKey) (one other : Nat),
    reception.calls[first]? = some (.served key one) →
    reception.calls[second]? = some (.served key other) → one = other
  /-- The updates that are under way are those that the workers wait for. -/
  flying : ∀ change, change ∈ reception.flights ↔
    ∃ key store, reception.registry.find? key = some store ∧ store.flight? = some change
  /-- No two of them are updates of one record. -/
  apart : (reception.flights.map Record.key).Nodup
  /-- Who has failed has not created a store, and does not keep others from trying. -/
  failed : ∀ (index : Nat) (call : Call), reception.calls[index]? = some call →
    call.hasFailed = true →
    (∀ (place : Nat) key, reception.created[place]? ≠ some (key, index)) ∧
      ∀ key, reception.cell key ≠ .taken index
  /-- As long as a pool has no store, either somebody is loading it or anybody can try. -/
  free : ∀ key, key ∉ reception.created.map Prod.fst → reception.cell key = .vacant ∨
    ∃ (index : Nat) (loading : Loading), reception.cell key = .taken index ∧
      reception.calls[index]? = some (.loading key loading)
  /-- Who finds the cell vacant begins a load, whatever has become of those before. -/
  attempted : ∀ (index : Nat) key load, reception.calls[index]? = some (.waiting key) →
    reception.cell key = .vacant → reception.registry.startLoad key = .loading load →
    (reception.enter index).calls[index]? = some (.loading key (.underway load))
  /-- A load for which the record store gives a record that can be decoded ends with a store, if
  there has been no shutdown, whatever others do meanwhile. -/
  completed : ∀ (index : Nat) (key : PoolKey) (load : Load) draw record client snapshot,
    reception.calls[index]? = some (.loading key (.underway load)) →
    reception.registry.isShutDown = false →
    reception.client.readStep load.request load.phase = (.ended (.ok record), client) →
    Snapshot.ofRecord key record = .ok snapshot →
    ∀ first second : List ReceptionAct,
      (∀ act ∈ first ++ second, act.spares index = true) →
      ∃ place, (reception.run (.load index draw :: first ++ .install index :: second ++
        [.settle index])).calls[index]? = some (.served key place)
  /-- The next one who asks after a failure gets a store, if there has been no shutdown and one of
  the attempts that the policy allows gives a record that can be decoded. -/
  retried : ∀ key load draw record client snapshot,
    reception.cell key = .vacant → reception.registry.startLoad key = .loading load →
    reception.client.getOrCreate draw load.cursor.policy load.request =
      (some (.ok record), client) →
    Snapshot.ofRecord key record = .ok snapshot →
    ∃ count place, (reception.run (loadAlone key reception.calls.length draw count)).calls[
      reception.calls.length]? = some (.served key place)

variable {reception : Reception} {index : Nat} {key : PoolKey}

theorem Sound.run (sound : reception.Sound) (acts : List ReceptionAct) :
    (reception.run acts).Sound := by
  induction acts generalizing reception with
  | nil => exact sound
  | cons first rest ih =>
      exact ih ⟨sound.orderly.act first, sound.stocked.act sound.orderly first⟩

theorem sound_start {options : Options} {now : Timestamp} {registry : Registry}
    (made : Registry.create options now = .ok registry) (client : Client) :
    (start registry client).Sound := by
  refine ⟨orderly_start registry client, stocked_start client ?_⟩
  unfold Registry.create at made
  split at made
  · cases made
  · cases made
    rfl

/-- Who has been served has been given the store in the cell. -/
theorem Orderly.place_of_served (orderly : reception.Orderly) {place : Nat}
    (held : reception.calls[index]? = some (.served key place)) :
    reception.cell key = .filled place ∧
      ∃ creator, reception.created[place]? = some (key, creator) := by
  have filled : reception.cell key = .filled place := orderly.cell_of held rfl
  have fits := orderly.cells key
  rw [filled] at fits
  obtain ⟨creator, -, made⟩ := fits
  exact ⟨filled, creator, made⟩

/-- The creator of a store is about to be served with it or has been. -/
theorem Orderly.creator (orderly : reception.Orderly) {place : Nat}
    (made : reception.created[place]? = some (key, index)) :
    reception.calls[index]? = some (.settling key place) ∨
      reception.calls[index]? = some (.served key place) := by
  have only : ∀ {other creator : Nat}, reception.created[other]? = some (key, creator) →
      other = place ∧ creator = index := by
    intro other creator again
    have within : other < (reception.created.map Prod.fst).length := by
      rw [List.length_map]
      exact (List.getElem?_eq_some_iff.mp again).1
    have same : other = place := by
      refine (List.getElem?_inj within orderly.once).mp ?_
      rw [List.getElem?_map, List.getElem?_map, again, made]
      rfl
    subst same
    rw [made] at again
    cases again
    exact ⟨rfl, rfl⟩
  have member : key ∈ reception.created.map Prod.fst :=
    List.mem_map.mpr ⟨(key, index), List.mem_of_getElem? made, rfl⟩
  have fits := orderly.cells key
  cases cell : reception.cell key with
  | vacant =>
      rw [cell] at fits
      exact absurd member fits
  | taken caller =>
      rw [cell] at fits
      rcases fits with ⟨-, absent⟩ | ⟨other, held, again⟩
      · exact absurd member absent
      · obtain ⟨rfl, rfl⟩ := only again
        exact .inl held
  | filled other =>
      rw [cell] at fits
      obtain ⟨caller, held, again⟩ := fits
      obtain ⟨rfl, rfl⟩ := only again
      exact .inr held

theorem Orderly.failed (orderly : reception.Orderly) {call : Call}
    (held : reception.calls[index]? = some call) (failed : call.hasFailed = true) :
    (∀ (place : Nat) key, reception.created[place]? ≠ some (key, index)) ∧
      ∀ key, reception.cell key ≠ .taken index := by
  constructor
  · intro place key made
    rcases orderly.creator made with other | other <;> rw [held] at other <;> cases other <;>
      cases failed
  · intro key taken
    have fits := orderly.cells key
    rw [taken] at fits
    rcases fits with ⟨⟨loading, other⟩, -⟩ | ⟨place, other, -⟩ <;> rw [held] at other <;>
      cases other <;> cases failed

theorem Orderly.free (orderly : reception.Orderly) (absent : key ∉ reception.created.map Prod.fst) :
    reception.cell key = .vacant ∨ ∃ index loading, reception.cell key = .taken index ∧
      reception.calls[index]? = some (.loading key loading) := by
  have fits := orderly.cells key
  cases cell : reception.cell key with
  | vacant => exact .inl rfl
  | taken index =>
      rw [cell] at fits
      rcases fits with ⟨⟨loading, held⟩, -⟩ | ⟨place, -, made⟩
      · exact .inr ⟨index, loading, rfl, held⟩
      · exact absurd (List.mem_map.mpr ⟨_, List.mem_of_getElem? made, rfl⟩) absent
  | filled place =>
      rw [cell] at fits
      obtain ⟨creator, -, made⟩ := fits
      exact absurd (List.mem_map.mpr ⟨_, List.mem_of_getElem? made, rfl⟩) absent

theorem enter_reaches {load : Load} (held : reception.calls[index]? = some (.waiting key))
    (vacant : reception.cell key = .vacant)
    (started : reception.registry.startLoad key = .loading load) :
    (reception.enter index).Reaches index (.loading key (.underway load)) := by
  obtain ⟨isOpen, begun⟩ := Registry.beginLoad_of_startLoad started
  have reaches : reception.Reaches index (.waiting key) := ⟨held, isOpen⟩
  simp only [Reception.enter, held, vacant, begun]
  exact reaches.advance rfl rfl

theorem Orderly.completed (orderly : reception.Orderly) {load : Load} (draw : Draw)
    {record : Record} {client : Client} {snapshot : Snapshot}
    (reaches : reception.Reaches index (.loading key (.underway load)))
    (read : reception.client.readStep load.request load.phase = (.ended (.ok record), client))
    (decoded : Snapshot.ofRecord key record = .ok snapshot) {first second : List ReceptionAct}
    (spare : ∀ act ∈ first ++ second, act.spares index = true) :
    ∃ place, (reception.run (.load index draw :: first ++ .install index :: second ++
      [.settle index])).Reaches index (.served key place) := by
  obtain ⟨own, -⟩ : (Loading.underway load).Has Trait.any key :=
    (orderly.calls index _ reaches.held).proper
  have stepped : load.step draw reception.client = (.ended (.ok snapshot), client) := by
    simp [Load.step_eq, read, Load.conclude, Load.decode, own, decoded]
  have found := (reaches.load stepped rfl).1.run fun act member =>
    spare act (List.mem_append_left second member)
  have created := found.install.run fun act member => spare act (List.mem_append_right first member)
  have served := created.settle
  have path : reception.run (.load index draw :: first ++ .install index :: second ++
      [.settle index]) =
        ((((reception.load index draw).run first).install index).run second).settle index := by
    simp only [List.cons_append, run_append, run_cons, run_nil, Reception.act]
  rw [← path] at served
  exact ⟨_, served⟩

theorem retried {load : Load} (vacant : reception.cell key = .vacant)
    (started : reception.registry.startLoad key = .loading load) {draw : Draw} {record : Record}
    {client : Client} {snapshot : Snapshot}
    (read : reception.client.getOrCreate draw load.cursor.policy load.request =
      (some (.ok record), client))
    (decoded : Snapshot.ofRecord key record = .ok snapshot) :
    ∃ count place, (reception.run (loadAlone key reception.calls.length draw count)).calls[
      reception.calls.length]? = some (.served key place) := by
  obtain ⟨isOpen, -⟩ := Registry.beginLoad_of_startLoad started
  obtain ⟨policy, start⟩ := Registry.startLoad_policy started
  have asked : (reception.ask key).calls[reception.calls.length]? = some (.waiting key) := by
    simp [ask, isOpen]
  have entered : ((reception.ask key).enter reception.calls.length).Reaches reception.calls.length
      (.loading key (.underway load)) := enter_reaches asked vacant started
  have client : ((reception.ask key).enter reception.calls.length).client = reception.client := by
    obtain ⟨-, begun⟩ := Registry.beginLoad_of_startLoad started
    have still : (reception.ask key).cell key = .vacant := vacant
    have begins : (reception.ask key).registry.beginLoad key = .loading load := begun
    simp only [enter, asked, still, begins]
    rfl
  rw [start] at entered read
  rw [← client] at read
  obtain ⟨count, found⟩ := entered.attempts draw read decoded
  have served := found.install.settle.held
  have path : reception.run (loadAlone key reception.calls.length draw count) =
      ((((reception.ask key).enter reception.calls.length).run
        (List.replicate count (.load reception.calls.length draw))).install
          reception.calls.length).settle reception.calls.length := by
    simp only [loadAlone, run_append, run_cons, run_nil, act]
  rw [← path] at served
  exact ⟨count, _, served⟩

/-- However many callers ask for stores at once, whatever fails, and whenever there is a shutdown: a
pool gets at most one store and one worker, all who are served for it are given this one, no two
updates of one record are under way, and who fails leaves nothing behind, so that the next one can
load the pool if the record store answers. -/
theorem one_store_for_each_pool {options : Options} {now : Timestamp} {registry : Registry}
    (made : Registry.create options now = .ok registry) (client : Client)
    (acts : List ReceptionAct) : ((start registry client).run acts).Exclusive := by
  have sound := (sound_start made client).run acts
  generalize (start registry client).run acts = reception at sound
  obtain ⟨orderly, stocked⟩ := sound
  refine ⟨orderly.once, stocked.stored, ?_, ?_, stocked.flying, stocked.single,
    fun _ _ held failed => orderly.failed held failed, fun _ absent => orderly.free absent,
    fun _ _ _ held vacant started => (enter_reaches held vacant started).held, ?_,
    fun _ _ _ _ _ _ vacant started read decoded => retried vacant started read decoded⟩
  · intro index key place held
    obtain ⟨-, creator, created⟩ := orderly.place_of_served held
    rw [created]
    rfl
  · intro first second key one other held again
    have filled := (orderly.place_of_served held).1
    rw [(orderly.place_of_served again).1] at filled
    cases filled
    rfl
  · intro index key load draw record client snapshot held isOpen read decoded first second spare
    obtain ⟨place, served⟩ := orderly.completed draw ⟨held, isOpen⟩ read decoded spare
    exact ⟨place, served.held⟩

/-- Two callers ask for a pool, and the first one goes away while it loads. -/
def sampleCalls : List ReceptionAct :=
  [.ask Desk.samplePool, .ask Desk.samplePool, .enter 0, .enter 1, .leave 0]

theorem one_store_for_each_pool_retried :
    Registry.create Fleet.sampleOptions .epoch = .ok Fleet.sampleRegistry ∧
      ((start Fleet.sampleRegistry .empty).run sampleCalls).Exclusive ∧
      ∃ count place, (((start Fleet.sampleRegistry .empty).run sampleCalls).run
        (loadAlone Desk.samplePool 2 .shortest count)).calls[2]? =
          some (.served Desk.samplePool place) := by
  have exclusive := one_store_for_each_pool Fleet.sampleRegistry_created .empty sampleCalls
  refine ⟨Fleet.sampleRegistry_created, exclusive, ?_⟩
  have storable : Storage.poolFormat.isStorable (.empty Desk.samplePool) = true := by
    decide +kernel
  have isOpen : Fleet.sampleRegistry.isShutDown = false := rfl
  have begun : Fleet.sampleRegistry.beginLoad Desk.samplePool =
      .loading (.start Desk.samplePool .epoch .none) := by
    simp [Registry.beginLoad, storable, Fleet.sampleRegistry, Fleet.sampleOptions]
  have started : Fleet.sampleRegistry.startLoad Desk.samplePool =
      .loading (.start Desk.samplePool .epoch .none) := by
    rw [Registry.startLoad_eq, isOpen, begun]
    rfl
  have reached : (start Fleet.sampleRegistry .empty).run sampleCalls =
      { start Fleet.sampleRegistry .empty with
        cells := Table.empty.insert Desk.samplePool .vacant
        calls := [.gone Desk.samplePool, .waiting Desk.samplePool] } := by
    simp [sampleCalls, Reception.act, ask, enter, leave, start, move, setCell, setCall, isOpen, begun,
      Reception.cell, Table.find?_insert, Table.insert_insert]
  rw [reached] at exclusive ⊢
  let load : Load := .start Desk.samplePool .epoch .none
  exact exclusive.retried Desk.samplePool load .shortest load.request.record _ _ rfl started rfl
    (Snapshot.ofRecord_encode storable _ rfl)

end Reception

end ClaimStore
