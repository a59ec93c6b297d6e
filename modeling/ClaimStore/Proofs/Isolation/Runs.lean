import ClaimStore.Proofs.Isolation.System
import ClaimStore.Proofs.Isolation.Traits

/-!
What holds of a registry at any time.

Everything at the place of a pool belongs to that pool. The requests of the pool under watch are held
by its own store alone.
-/
namespace ClaimStore

/-- Whatever the act brings from outside keeps up the trait. -/
def BranchAct.Keeps (trait : Trait) : BranchAct → Prop
  | .member (.push pool mutation) => mutation.Keeps trait pool
  | .put record => ∀ pool : PoolKey, record.key = pool.text → trait.record pool record
  | _ => True

namespace Branch

structure Sound (trait : Trait) (branch : Branch) : Prop where
  records : branch.records.Show trait
  stores : ∀ pool store, branch.registry.find? pool = some store → store.Has trait pool
  held : ∀ pool store, branch.registry.find? pool = some store →
    ∀ id ∈ store.held, id < branch.next ∧ (pool ≠ branch.key → id ∉ branch.asked)
  loads : ∀ pool loading, branch.member.loads.find? pool = some loading → loading.Has trait pool
  told : ∀ answer ∈ branch.registry.answers, answer.1 < branch.next
  asked : ∀ id ∈ branch.asked, id < branch.next

variable {trait : Trait} {branch : Branch} {registry : Registry} {client : Client}

theorem sound_start {key : PoolKey} (created : ∃ options now, Registry.create options now = .ok registry)
    (shows : client.backend.records.Show trait) : (start key registry client).Sound trait := by
  obtain ⟨options, now, made⟩ := created
  unfold Registry.create at made
  split at made
  · cases made
  · cases made
    refine ⟨shows, ?_, ?_, ?_, ?_, ?_⟩
    · intro pool store found
      cases found
    · intro pool store found
      cases found
    · intro pool loading found
      cases found
    · intro answer given
      cases given
    · intro id held
      cases held

/-- What has to be looked at after an act: the stores, loads and answers that are new. -/
theorem Sound.update (sound : branch.Sound trait) {member : Member} {asked : List Nat}
    (records : client.backend.records.Show trait)
    (stores : ∀ pool store, member.registry.find? pool = some store →
      branch.registry.find? pool = some store ∨
        store.Has trait pool ∧
          ∀ id ∈ store.held, id ≤ branch.next ∧ (pool ≠ branch.key → id ∉ asked))
    (loads : ∀ pool loading, member.loads.find? pool = some loading →
      branch.member.loads.find? pool = some loading ∨ loading.Has trait pool)
    (told : ∀ answer ∈ member.registry.answers,
      answer ∈ branch.registry.answers ∨ answer.1 ≤ branch.next)
    (more : ∀ id ∈ asked, id ∈ branch.asked ∨ id = branch.next) :
    Sound trait ⟨branch.key, client, member, branch.next + 1, asked⟩ := by
  refine ⟨records, ?_, ?_, ?_, ?_, ?_⟩
  · intro pool store found
    rcases stores pool store found with early | ⟨has, -⟩
    · exact sound.stores pool store early
    · exact has
  · intro pool store found id held
    rcases stores pool store found with early | ⟨-, own⟩
    · obtain ⟨bound, apart⟩ := sound.held pool store early id held
      refine ⟨Nat.lt_succ_of_lt bound, fun other member => ?_⟩
      rcases more id member with before | rfl
      · exact apart other before
      · exact Nat.lt_irrefl _ bound
    · exact ⟨Nat.lt_succ_of_le (own id held).1, (own id held).2⟩
  · intro pool loading found
    rcases loads pool loading found with early | has
    · exact sound.loads pool loading early
    · exact has
  · intro answer given
    rcases told answer given with early | late
    · exact Nat.lt_succ_of_lt (sound.told answer early)
    · exact Nat.lt_succ_of_le late
  · intro id member
    rcases more id member with early | rfl
    · exact Nat.lt_succ_of_lt (sound.asked id early)
    · exact Nat.lt_succ_self _

/-- An act that leaves stores, loads and answers alone. -/
theorem Sound.around (sound : branch.Sound trait) {member : Member}
    (records : client.backend.records.Show trait)
    (stores : member.registry.stores = branch.registry.stores)
    (answers : member.registry.answers = branch.registry.answers)
    (loads : member.loads = branch.member.loads) :
    Sound trait ⟨branch.key, client, member, branch.next + 1, branch.asked⟩ := by
  refine sound.update records ?_ ?_ ?_ fun id member => .inl member
  · intro pool store found
    rw [Registry.find?, stores] at found
    exact .inl found
  · intro pool loading found
    rw [loads] at found
    exact .inl found
  · intro answer given
    rw [answers] at given
    exact .inl given

/-- The store of one pool is replaced, and requests that it has held are answered. -/
theorem Sound.moved (sound : branch.Sound trait) {member : Member} {pool : PoolKey}
    {store : PoolStore} {told : List (Nat × Answer)} {asked : List Nat}
    (records : client.backend.records.Show trait)
    (moves : branch.registry.Moves member.registry pool store told)
    (loads : ∀ pool loading, member.loads.find? pool = some loading →
      branch.member.loads.find? pool = some loading ∨ loading.Has trait pool)
    (has : store.Has trait pool)
    (held : ∀ id ∈ store.held, id ≤ branch.next ∧ (pool ≠ branch.key → id ∉ asked))
    (answered : ∀ answer ∈ told, answer.1 ≤ branch.next)
    (more : ∀ id ∈ asked, id ∈ branch.asked ∨ id = branch.next) :
    Sound trait ⟨branch.key, client, member, branch.next + 1, asked⟩ := by
  refine sound.update records ?_ loads ?_ more
  · intro place other found
    rw [moves.stores] at found
    split at found
    · rename_i here
      subst here
      cases found
      exact .inr ⟨has, held⟩
    · exact .inl found
  · intro answer given
    rw [moves.told] at given
    rcases List.mem_append.mp given with early | late
    · exact .inl early
    · exact .inr (answered answer late)

/-- Only loads have changed. -/
theorem Sound.reload (sound : branch.Sound trait) {member : Member}
    (records : client.backend.records.Show trait) (registry : member.registry = branch.registry)
    (loads : ∀ pool loading, member.loads.find? pool = some loading →
      branch.member.loads.find? pool = some loading ∨ loading.Has trait pool) :
    Sound trait ⟨branch.key, client, member, branch.next + 1, branch.asked⟩ := by
  refine sound.update records ?_ loads ?_ fun _ member => .inl member
  · intro pool store found
    rw [registry] at found
    exact .inl found
  · intro answer given
    rw [registry] at given
    exact .inl given

theorem find?_of_erase {α : Type} {table : Table PoolKey α} {pool place : PoolKey} {value : α}
    (found : (table.erase pool).find? place = some value) : table.find? place = some value := by
  rw [Table.find?_erase] at found
  split at found
  · contradiction
  · exact found

theorem Sound.ask (sound : branch.Sound trait) (pool : PoolKey) (hasWaited : Bool) :
    Sound trait ⟨branch.key, branch.client, branch.member.ask pool hasWaited, branch.next + 1,
      branch.asked⟩ := by
  refine sound.reload sound.records (branch.member.ask_registry pool hasWaited) ?_
  intro place loading found
  rw [Member.find?_ask] at found
  split at found
  · rename_i here
    subst here
    rcases Option.or_eq_some_iff.mp found with early | ⟨-, started⟩
    · exact .inl early
    · exact .inr (Registry.has_of_startLoad started)
  · exact .inl found

theorem Sound.resume (sound : branch.Sound trait) {pool : PoolKey} {step : LoadStep}
    (records : client.backend.records.Show trait) (has : step.Has trait pool) :
    Sound trait ⟨branch.key, client, branch.member.resume pool step, branch.next + 1,
      branch.asked⟩ := by
  refine sound.reload records (branch.member.resume_registry pool step) ?_
  intro place loading found
  rw [Member.find?_resume] at found
  split at found
  · rename_i here
    subst here
    exact .inr (has loading found)
  · exact .inl found

theorem Sound.load (sound : branch.Sound trait) (pool : PoolKey) (draw : Draw) :
    Sound trait ⟨branch.key, (branch.member.load branch.client pool draw).2,
      (branch.member.load branch.client pool draw).1, branch.next + 1, branch.asked⟩ := by
  unfold Member.load
  split
  · rename_i load found
    obtain ⟨step, after, stepped, has, shows⟩ :=
      Load.has_step (sound.loads pool _ found) draw sound.records
    rw [stepped]
    exact sound.resume shows has
  · exact sound.around sound.records rfl rfl rfl

theorem Sound.install (sound : branch.Sound trait) (pool : PoolKey) :
    Sound trait ⟨branch.key, branch.client, branch.member.install pool, branch.next + 1,
      branch.asked⟩ := by
  unfold Member.install
  split
  · rename_i snapshot found
    have has : snapshot.Has trait pool := sound.loads pool _ found
    split
    · exact sound.reload sound.records rfl fun _ _ found => .inl (find?_of_erase found)
    · rename_i registry installed
      have moves := Registry.install_moves installed
      rw [has.1] at moves
      exact sound.moved sound.records moves (fun _ _ found => .inl (find?_of_erase found))
        (PoolStore.has_start has) (fun _ held => by cases held) (fun _ given => by cases given)
        fun _ member => .inl member
  · exact sound.around sound.records rfl rfl rfl

theorem Sound.push (sound : branch.Sound trait) {pool : PoolKey} {mutation : Mutation}
    (keeps : mutation.Keeps trait pool) (log : Log) :
    Sound trait ⟨branch.key, branch.client,
      { branch.member with registry := branch.registry.push pool ⟨branch.next, mutation⟩, log },
      branch.next + 1,
      if pool = branch.key then branch.asked ++ [branch.next] else branch.asked⟩ := by
  have more : ∀ id ∈ (if pool = branch.key then branch.asked ++ [branch.next] else branch.asked),
      id ∈ branch.asked ∨ id = branch.next := by
    intro id member
    split at member
    · rcases List.mem_append.mp member with early | new
      · exact .inl early
      · exact .inr (List.mem_singleton.mp new)
    · exact .inl member
  rcases branch.registry.push_cases pool ⟨branch.next, mutation⟩ with
    ⟨same, -⟩ | ⟨answered, -⟩ | ⟨store, found, -, moves⟩
  · rw [same]
    exact sound.update sound.records (fun _ _ found => .inl found) (fun _ _ found => .inl found)
      (fun _ given => .inl given) more
  · rw [answered]
    refine sound.update sound.records (fun _ _ found => .inl found) (fun _ _ found => .inl found)
      ?_ more
    intro answer given
    rcases List.mem_append.mp given with early | new
    · exact .inl early
    · rw [List.mem_singleton.mp new]
      exact .inr (Nat.le_refl _)
  · have has := sound.stores pool store found
    refine sound.moved sound.records moves (fun _ _ found => .inl found)
      ⟨has.snapshot, ?_, has.phase⟩ ?_ (fun _ given => by cases given) more
    · intro request member
      rcases List.mem_append.mp member with early | new
      · exact has.waiting request early
      · rw [List.mem_singleton.mp new]
        exact keeps
    · intro id held
      rw [PoolStore.held, List.map_append, ← List.append_assoc] at held
      rcases List.mem_append.mp held with early | new
      · obtain ⟨bound, apart⟩ := sound.held pool store found id early
        refine ⟨Nat.le_of_lt bound, fun other => ?_⟩
        rw [if_neg other]
        exact apart other
      · rw [List.map_singleton, List.mem_singleton] at new
        subst new
        refine ⟨Nat.le_refl _, fun other => ?_⟩
        rw [if_neg other]
        exact fun member => Nat.lt_irrefl _ (sound.asked _ member)

theorem Sound.notify (sound : branch.Sound trait) (pool : PoolKey) :
    Sound trait ⟨branch.key, branch.client,
      { branch.member with registry := branch.registry.notify pool }, branch.next + 1,
      branch.asked⟩ := by
  unfold Registry.notify
  split
  · exact sound.around sound.records rfl rfl rfl
  · rename_i store found
    have has := sound.stores pool store found
    refine sound.moved sound.records (branch.registry.moves_insert pool store.trigger)
      (fun _ _ found => .inl found) ⟨has.snapshot, has.waiting, has.phase⟩ ?_
      (fun _ given => by cases given) fun _ member => .inl member
    intro id held
    obtain ⟨bound, apart⟩ := sound.held pool store found id held
    exact ⟨Nat.le_of_lt bound, apart⟩

/-- What the actions of workers have in common: they keep up the trait and answer requests that they
hold. -/
def Proper (trait : Trait) (pool : PoolKey)
    (action : PoolStore × Surroundings → Option (PoolStore × Surroundings)) : Prop :=
  ∀ {store next around after}, store.Has trait pool → around.client.backend.records.Show trait →
    action (store, around) = some (next, after) →
    next.Has trait pool ∧ after.client.backend.records.Show trait ∧
      ∃ told, after.answers = around.answers ++ told ∧
        PoolStore.Serves store.held next.held told

theorem proper_work (batchSize : Nat) (isShutDown : Bool) (pool : PoolKey) :
    Proper trait pool (PoolStore.step? batchSize isShutDown) := by
  intro store next around after has shows stepped
  have turn := PoolStore.turn_of_step? stepped
  obtain ⟨kept, records⟩ := has.turn turn
  refine ⟨kept, ?_, turn.serves⟩
  rw [records]
  exact shows

theorem proper_finishUpdate (pool : PoolKey) : Proper trait pool PoolStore.finishUpdate? := by
  intro store next around after has shows finished
  obtain ⟨kept, written⟩ := has.finish shows finished
  refine ⟨kept, written, [], ?_⟩
  obtain ⟨batch, change, delay, result, client, awaiting, rfl, rfl, -, -⟩ :=
    PoolStore.end_of_finishUpdate? finished
  simp only [PoolStore.held, awaiting, List.append_nil]
  exact ⟨trivial, PoolStore.Serves.refl _⟩

theorem proper_abandonUpdate (pool : PoolKey) : Proper trait pool PoolStore.abandonUpdate? := by
  intro store next around after has shows abandoned
  obtain ⟨kept, records⟩ := has.abandon abandoned
  refine ⟨kept, by rw [records]; exact shows, [], ?_⟩
  obtain ⟨batch, change, delay, client, awaiting, rfl, rfl, -⟩ :=
    PoolStore.end_of_abandonUpdate? abandoned
  simp only [PoolStore.held, awaiting, List.append_nil]
  exact ⟨trivial, PoolStore.Serves.refl _⟩

theorem Sound.drive (sound : branch.Sound trait) {pool : PoolKey}
    {action : PoolStore × Surroundings → Option (PoolStore × Surroundings)}
    (proper : Proper trait pool action) (watched : PoolKey) :
    let result := branch.member.drive watched branch.client pool
      (branch.registry.act? branch.client pool action)
    Sound trait ⟨branch.key, result.2, result.1, branch.next + 1, branch.asked⟩ := by
  unfold Member.drive
  cases acted : branch.registry.act? branch.client pool action with
  | none => exact sound.around sound.records rfl rfl rfl
  | some result =>
      obtain ⟨registry, client⟩ := result
      obtain ⟨store, next, around, found, done, rfl, moves⟩ := Registry.act?_moves acted
      obtain ⟨has, shows, told, whole, serves⟩ :=
        proper (sound.stores pool store found) sound.records done
      have kept : ∀ id ∈ store.held, id ≤ branch.next ∧ (pool ≠ branch.key → id ∉ branch.asked) := by
        intro id held
        obtain ⟨bound, apart⟩ := sound.held pool store found id held
        exact ⟨Nat.le_of_lt bound, apart⟩
      refine sound.moved shows (moves told whole) (fun _ _ found => .inl found) has ?_ ?_
        fun _ member => .inl member
      · intro id held
        exact kept id (serves.whole.subset (List.mem_append_right _ held))
      · intro answer given
        exact (kept answer.1
          (serves.whole.subset (List.mem_append_left _ (List.mem_map_of_mem given)))).1

theorem Sound.act (sound : branch.Sound trait) {act : BranchAct} (keeps : act.Keeps trait) :
    (branch.act act).Sound trait := by
  cases act with
  | member act =>
      cases act with
      | ask pool hasWaited => exact sound.ask pool hasWaited
      | load pool draw => exact sound.load pool draw
      | install pool => exact sound.install pool
      | leave pool =>
          exact sound.reload sound.records rfl fun _ _ found => .inl (find?_of_erase found)
      | push pool mutation =>
          have pushed := sound.push keeps
            (branch.member.push branch.key pool ⟨branch.next, mutation⟩).log
          simpa [Branch.act, effect, Member.act, Member.push, MemberAct.isRequest] using pushed
      | notify pool => exact sound.notify pool
      | work pool => exact sound.drive (proper_work _ _ pool) branch.key
      | finishUpdate pool => exact sound.drive (proper_finishUpdate pool) branch.key
      | abandonUpdate pool => exact sound.drive (proper_abandonUpdate pool) branch.key
      | shutDown | tick => exact sound.around sound.records rfl rfl rfl
  | cache pool change => exact sound.around sound.records rfl rfl rfl
  | put record => exact sound.around (sound.records.put keeps) rfl rfl rfl
  | remove text => exact sound.around (sound.records.erase text) rfl rfl rfl
  | delay | faults | pass => exact sound.around sound.records rfl rfl rfl

theorem Sound.run (sound : branch.Sound trait) {acts : List BranchAct}
    (keeps : ∀ act ∈ acts, act.Keeps trait) : (branch.run acts).Sound trait := by
  induction acts generalizing branch with
  | nil => exact sound
  | cons first rest ih =>
      exact ih (sound.act (keeps first List.mem_cons_self))
        fun act member => keeps act (List.mem_cons_of_mem _ member)

end Branch

end ClaimStore
