import ClaimStore.Proofs.Fleet.Reading
import ClaimStore.Proofs.Fleet.Registries
import ClaimStore.Proofs.Worker.Turns

/-!
What is handed on between the stores of pools and their records.

A trait is something that states of a pool have and that their records show. If those who change a
pool keep up a trait, then so does everything on the way: snapshots, batches, updates and loads.
Besides this each of them belongs to its pool and to no other.
-/
namespace ClaimStore

/-- Something that the states of a pool may have. What is read from a record that shows it has it,
and what is written of a state that has it shows it. -/
structure Trait where
  state : PoolKey → PoolState → Prop
  record : PoolKey → Record → Prop
  empty : ∀ pool, state pool (.empty pool)
  read : ∀ {pool stored snapshot}, record pool stored →
    Snapshot.ofRecord pool stored = .ok snapshot → state pool snapshot.state
  write : ∀ {pool content} {stored : Record}, state pool content →
    Storage.poolFormat.isStorable content = true →
    stored.value = Storage.poolFormat.encode content → record pool stored

/-- A trait that all states have. -/
def Trait.any : Trait where
  state _ _ := True
  record _ _ := True
  empty _ := trivial
  read _ _ := trivial
  write _ _ _ := trivial

variable {trait : Trait} {pool : PoolKey}

def Mutation.Keeps (mutation : Mutation) (trait : Trait) (pool : PoolKey) : Prop :=
  ∀ before after, trait.state pool before → mutation before = .ok after → trait.state pool after

def Snapshot.Has (snapshot : Snapshot) (trait : Trait) (pool : PoolKey) : Prop :=
  snapshot.key = pool ∧ trait.state pool snapshot.state

theorem Snapshot.has_of_read {stored : Record} {snapshot : Snapshot}
    (shown : trait.record pool stored) (read : ofRecord pool stored = .ok snapshot) :
    snapshot.Has trait pool :=
  ⟨(ofRecord_fields read).1, trait.read shown read⟩

/-- All records of pools show the trait. -/
def Records.Show (records : Records) (trait : Trait) : Prop :=
  ∀ pool stored, records.find? pool.text = some stored → trait.record pool stored

namespace Records.Show

variable {records : Records} {record : Record}

theorem put (shows : records.Show trait)
    (own : ∀ pool : PoolKey, record.key = pool.text → trait.record pool record) :
    (records.put record).Show trait := by
  intro pool stored found
  rw [Records.put, Table.find?_insert] at found
  split at found
  · rename_i same
    cases found
    exact own pool same.symm
  · exact shows pool stored found

theorem erase (shows : records.Show trait) (text : String) :
    Records.Show (records.erase text) trait := by
  intro pool stored found
  rw [Table.find?_erase] at found
  split at found
  · contradiction
  · exact shows pool stored found

/-- A state of a pool is put where its record belongs. -/
theorem put_state {content : PoolState} (shows : records.Show trait)
    (key : record.key = pool.text) (has : trait.state pool content)
    (storable : Storage.poolFormat.isStorable content = true)
    (value : record.value = Storage.poolFormat.encode content) :
    (records.put record).Show trait := by
  refine shows.put ?_
  intro other same
  rw [← PoolKey.text_injective (key.symm.trans same)]
  exact trait.write has storable value

end Records.Show

namespace Batch

def Has (batch : Batch) (trait : Trait) (pool : PoolKey) : Prop :=
  batch.before.Has trait pool ∧ trait.state pool batch.candidate

variable {batch : Batch}

/-- Whatever comes of a batch, it is drawn from the batch itself or from a record that the store
gives back. -/
theorem Has.conclude (has : batch.Has trait pool) {result : Except StoreError (List Record)}
    (shown : ∀ found, result = .ok found →
      ∀ stored ∈ found, stored.key = pool.text → trait.record pool stored) :
    (batch.conclude result).snapshot.Has trait pool := by
  cases result with
  | error error => exact has.1
  | ok found =>
      simp only [Batch.conclude]
      split
      · exact ⟨has.1.1, has.2⟩
      · rename_i stored matching
        split
        · rename_i snapshot read
          have same : stored.key = batch.before.key.text :=
            of_decide_eq_true (List.find?_some matching :)
          rw [has.1.1] at read same
          exact Snapshot.has_of_read
            (shown found rfl stored (List.mem_of_find?_eq_some matching) same) read
        · exact has.1

theorem Has.conclude_reply (has : batch.Has trait pool) {now : Timestamp}
    {result : Except StoreError (List Record)}
    (storable : Storage.poolFormat.isStorable batch.candidate = true)
    (reply : UpdateReply [batch.change now] result) :
    (batch.conclude result).snapshot.Has trait pool := by
  refine has.conclude ?_
  intro found given stored member _
  cases reply with
  | failed error => cases given
  | foreign =>
      cases given
      rw [List.map_cons, List.map_nil, List.mem_singleton] at member
      subst member
      exact trait.write has.2 storable rfl

theorem Has.conclude_end (has : batch.Has trait pool) {change : Record} {records after : Records}
    {result : Except StoreError (List Record)} (shows : records.Show trait)
    (key : change.key = pool.text) (ends : UpdateEnd change records result after) :
    (batch.conclude result).snapshot.Has trait pool := by
  refine has.conclude ?_
  intro found given stored member _
  cases ends with
  | failed error => cases given
  | refused other held mismatch =>
      cases given
      rw [List.mem_singleton.mp member]
      exact shows pool other (key ▸ held)
  | written other held same =>
      cases given
      cases member

end Batch

/-- What a worker has in hand belongs to its pool and has the trait. -/
def Phase.Has (trait : Trait) (pool : PoolKey) : Phase → Prop
  | .applying batch rest =>
      batch.Has trait pool ∧ ∀ request ∈ rest, request.mutation.Keeps trait pool
  | .awaiting batch change _ =>
      batch.Has trait pool ∧ change.key = pool.text ∧
        Storage.poolFormat.isStorable batch.candidate = true ∧
        change.value = Storage.poolFormat.encode batch.candidate
  | .concluding _ conclusion | .adopting _ conclusion => conclusion.snapshot.Has trait pool
  | .idle | .taking | .resolving _ _ | .stopped | .died => True

namespace PoolStore

structure Has (store : PoolStore) (trait : Trait) (pool : PoolKey) : Prop where
  snapshot : store.snapshot.Has trait pool
  waiting : ∀ request ∈ store.queue.waiting, request.mutation.Keeps trait pool
  phase : store.phase.Has trait pool

theorem has_start {snapshot : Snapshot} (has : snapshot.Has trait pool) :
    (start snapshot).Has trait pool :=
  ⟨has, by simp [start, RequestQueue.empty], trivial⟩

variable {store next : PoolStore} {around after : Surroundings}

theorem Has.step {now : Timestamp} (has : store.Has trait pool)
    (step : Step now (store, around) (next, after)) : next.Has trait pool := by
  have working := has.phase
  cases step with
  | wake idle same => exact ⟨has.snapshot, same ▸ has.waiting, trivial⟩
  | rest taking passed =>
      rcases passed with rfl | rfl <;> exact ⟨has.snapshot, has.waiting, trivial⟩
  | take requests waiting taking split some =>
      have kept := has.waiting
      rw [split] at kept
      exact ⟨has.snapshot, fun request member => kept request (List.mem_append_right _ member),
        ⟨has.snapshot, has.snapshot.2⟩,
        fun request member => kept request (List.mem_append_left _ member)⟩
  | accept applying accepted =>
      rw [applying] at working
      obtain ⟨⟨before, candidate⟩, rest⟩ := working
      exact ⟨has.snapshot, has.waiting, ⟨before, rest _ List.mem_cons_self _ _ candidate accepted⟩,
        fun request member => rest request (List.mem_cons_of_mem _ member)⟩
  | refuse applying refused =>
      rw [applying] at working
      exact ⟨has.snapshot, has.waiting, working.1,
        fun request member => working.2 request (List.mem_cons_of_mem _ member)⟩
  | abandon applying quiet =>
      rw [applying] at working
      exact ⟨has.snapshot, has.waiting, working.1.1⟩
  | @send _ _ batch _ _ applying storable quiet =>
      rw [applying] at working
      exact ⟨has.snapshot, has.waiting, working.1, congrArg PoolKey.text working.1.1.1, storable,
        rfl⟩
  | conclude concluding =>
      rw [concluding] at working
      exact ⟨has.snapshot, has.waiting, working⟩
  | adopt adopting =>
      rw [adopting] at working
      exact ⟨working, has.waiting, trivial⟩
  | finish resolving => exact ⟨has.snapshot, has.waiting, trivial⟩
  | resolve resolving => exact ⟨has.snapshot, has.waiting, trivial⟩

theorem Has.turn (has : store.Has trait pool) (turn : Turn (store, around) (next, after)) :
    next.Has trait pool ∧ after.client.backend.records = around.client.backend.records := by
  cases turn with
  | step now step => exact ⟨has.step step, step.frame.1.records⟩
  | answered applying storable records reply =>
      have working := has.phase
      rw [applying] at working
      exact ⟨⟨has.snapshot, has.waiting, working.1.conclude_reply storable reply⟩, records⟩
  | die applying => exact ⟨⟨has.snapshot, has.waiting, trivial⟩, rfl⟩

/-- The update of a worker replaces the record of its own pool, by one that shows the trait, or no
record. -/
theorem Has.finish (has : store.Has trait pool)
    (shows : around.client.backend.records.Show trait)
    (finished : finishUpdate? (store, around) = some (next, after)) :
    next.Has trait pool ∧ after.client.backend.records.Show trait := by
  obtain ⟨batch, change, delay, result, client, awaiting, rfl, rfl, ends, -⟩ :=
    end_of_finishUpdate? finished
  have working := has.phase
  rw [awaiting] at working
  obtain ⟨own, key, storable, value⟩ := working
  refine ⟨⟨has.snapshot, has.waiting, own.conclude_end shows key ends⟩, ?_⟩
  generalize client.backend.records = records at ends
  cases ends with
  | failed error | refused => exact shows
  | written stored found same => exact shows.put_state key own.2 storable value

theorem Has.abandon (has : store.Has trait pool)
    (abandoned : abandonUpdate? (store, around) = some (next, after)) :
    next.Has trait pool ∧ after.client.backend.records = around.client.backend.records := by
  obtain ⟨batch, change, delay, client, awaiting, rfl, rfl, quiet⟩ :=
    end_of_abandonUpdate? abandoned
  have working := has.phase
  rw [awaiting] at working
  exact ⟨⟨has.snapshot, has.waiting, working.1.1⟩, quiet.records⟩

end PoolStore

/-- A load reads the record of its own pool, or creates it with the empty pool. -/
def Loading.Has (trait : Trait) (pool : PoolKey) : Loading → Prop
  | .underway load =>
      load.key = pool ∧
        (∃ now, load.request = ⟨pool.text, Storage.poolFormat.encode (.empty pool), now⟩) ∧
        Storage.poolFormat.isStorable (.empty pool) = true
  | .found snapshot => snapshot.Has trait pool

/-- What a step of a load leaves behind belongs to its pool. -/
def LoadStep.Has (step : LoadStep) (trait : Trait) (pool : PoolKey) : Prop :=
  ∀ loading, step.loading? = some loading → loading.Has trait pool

theorem LoadStep.has_of_loading {step : LoadStep} {loading : Loading}
    (same : step.loading? = some loading) (has : loading.Has trait pool) : step.Has trait pool := by
  intro other found
  rw [same] at found
  cases found
  exact has

theorem LoadStep.has_of_none {step : LoadStep} (none : step.loading? = none) :
    step.Has trait pool := by
  intro loading found
  rw [none] at found
  cases found

/-- A load that is started is one of the pool that is asked for. -/
theorem Registry.has_of_startLoad {registry : Registry} {loading : Loading}
    (started : (registry.startLoad pool).loading? = some loading) : loading.Has trait pool := by
  cases made : registry.startLoad pool with
  | loading load =>
      rw [made] at started
      cases started
      obtain ⟨-, storable, now, policy, rfl⟩ := loading_of_startLoad made
      exact ⟨rfl, ⟨now, rfl⟩, storable⟩
  | failed | loaded | timeless =>
      rw [made] at started
      cases started

namespace Load

variable {load : Load}

theorem has_decode {stored : Record} (own : load.key = pool) (shown : trait.record pool stored) :
    (LoadStep.ended (load.decode stored)).Has trait pool := by
  unfold decode
  rw [own]
  split
  · rename_i snapshot read
    exact LoadStep.has_of_loading rfl (Snapshot.has_of_read shown read)
  · exact LoadStep.has_of_none rfl

theorem has_step (has : (Loading.underway load).Has trait pool) (draw : Draw) {client : Client}
    (shows : client.backend.records.Show trait) :
    ∃ step after, load.step draw client = (step, after) ∧ step.Has trait pool ∧
      after.backend.records.Show trait := by
  obtain ⟨step, after, stepped, -, move⟩ := load.step_move draw client
  obtain ⟨own, ⟨now, request⟩, storable⟩ := has
  refine ⟨step, after, stepped, ?_⟩
  generalize after.backend.records = records at move
  have key : load.request.record.key = pool.text := by rw [request]; rfl
  have value : load.request.record.value = Storage.poolFormat.encode (.empty pool) := by
    rw [request]; rfl
  cases move with
  | found stored held =>
      rw [request] at held
      exact ⟨has_decode own (shows pool stored held), shows⟩
  | created absent =>
      exact ⟨has_decode own (trait.write (trait.empty pool) storable value),
        shows.put_state key (trait.empty pool) storable value⟩
  | onward | paused =>
      exact ⟨LoadStep.has_of_loading rfl ⟨own, ⟨now, request⟩, storable⟩, shows⟩
  | failed | stuck => exact ⟨LoadStep.has_of_none rfl, shows⟩

end Load

end ClaimStore
