import ClaimStore.Proofs.Fleet.Reading
import ClaimStore.Proofs.Fleet.Registries

/-!
What holds of every registry at any time.

Its worker for the pool under watch keeps up its log, goes by coherent snapshots only, and has not
sent a batch twice. Its other workers neither answer requests for that pool nor change its record.
-/
namespace ClaimStore

/-- The record of a pool is the same as before, or it has been created with the empty pool. -/
def Records.Opened (pool : PoolKey) (before after : Records) : Prop :=
  after.find? pool.text = before.find? pool.text ∨
    before.find? pool.text = none ∧ Storage.poolFormat.isStorable (.empty pool) = true ∧
      ∃ now, after.find? pool.text =
        some ⟨pool.text, Storage.poolFormat.encode (.empty pool), .first, now⟩

/-- A load reads the record of its pool, which it creates with the empty pool. What it has found of
the pool under watch is coherent. -/
def Loading.Serves (key : PoolKey) (records : List Record) (pool : PoolKey) : Loading → Prop
  | .underway load =>
      load.key = pool ∧
        (∃ now, load.request = ⟨pool.text, Storage.poolFormat.encode (.empty pool), now⟩) ∧
        Storage.poolFormat.isStorable (.empty pool) = true
  | .found snapshot => snapshot.key = pool ∧ (pool = key → snapshot.Coherent key records)

theorem Loading.Serves.grow {key pool : PoolKey} {records more : List Record} {loading : Loading}
    (serves : loading.Serves key records pool) (grown : records ⊆ more) :
    loading.Serves key more pool := by
  cases loading with
  | underway load => exact serves
  | found snapshot => exact ⟨serves.1, fun same => (serves.2 same).grow grown⟩

def LoadStep.Serves (key : PoolKey) (records : List Record) (pool : PoolKey) : LoadStep → Prop
  | .continued next | .paused next _ => (Loading.underway next).Serves key records pool
  | .ended (.ok snapshot) => (Loading.found snapshot).Serves key records pool
  | .ended (.error _) | .impossible => True

theorem LoadStep.serves_decode {key pool : PoolKey} {records : List Record} {load : Load}
    {stored : Record} (own : load.key = pool) (known : pool = key → stored ∈ records) :
    (LoadStep.ended (load.decode stored)).Serves key records pool := by
  subst own
  cases read : Snapshot.ofRecord load.key stored with
  | error fault =>
      rw [Load.decode, read]
      trivial
  | ok snapshot =>
      rw [Load.decode, read]
      refine ⟨(Snapshot.ofRecord_fields read).1, ?_⟩
      rintro rfl
      exact Snapshot.coherent_of_read (known rfl) read

/-- The log is kept up, and the batch in hand does not count as committed before it has been
concluded. Without a worker there is nothing in the log. -/
def Log.Watches (log : Log) (key : PoolKey) (records : List Record) (verdict : Nat → Bool)
    (answers : List (Nat × Answer)) : Option PoolStore → Prop
  | none => log = .empty
  | some store =>
      store.Coherent key records ∧ log.Fits verdict store answers ∧
        (store.phase.isOpen = true → verdict (log.batches.length - 1) = false)

theorem Log.Watches.grow {log : Log} {key : PoolKey} {records more : List Record}
    {verdict : Nat → Bool} {answers : List (Nat × Answer)} {store? : Option PoolStore}
    (watches : log.Watches key records verdict answers store?) (grown : records ⊆ more) :
    log.Watches key more verdict answers store? := by
  cases store? with
  | none => exact watches
  | some store => exact ⟨watches.1.grow grown, watches.2⟩

theorem Log.Watches.told {log : Log} {key : PoolKey} {records : List Record}
    {verdict : Nat → Bool} {answers more : List (Nat × Answer)} {store? : Option PoolStore}
    (watches : log.Watches key records verdict answers store?)
    (apart : ∀ answer ∈ more, answer.1 ∉ log.ids) :
    log.Watches key records verdict (answers ++ more) store? := by
  cases store? with
  | none => exact watches
  | some store =>
      obtain ⟨coherent, fits, undecided⟩ := watches
      refine ⟨coherent, fits.frame rfl rfl ?_, undecided⟩
      intro ids within
      exact answersTo_append_apart (fun answer member held => apart answer member (within held)) _

/-- The batches of a log are still the same batches of another one. -/
def Log.Grows (log more : Log) : Prop :=
  ∀ (index : Nat) (taken : Taken), log.batches[index]? = some taken →
    more.batches[index]? = some taken

namespace Member

/-- What is known of a registry. `verdict` says which batches of its worker for the pool under watch
have been committed, `records` are the records of that pool so far, and `next` is greater than the
number of any request. -/
structure Sound (key : PoolKey) (records : List Record) (verdict : Nat → Bool) (next : Nat)
    (member : Member) : Prop where
  clock : member.registry.clock.isSome = true
  numbered : ∀ id ∈ member.log.ids, id < next
  answered : ∀ answer ∈ member.registry.answers, answer.1 < next
  known : ∀ index, verdict index = true → index < member.log.batches.length
  loading : ∀ pool loading, member.loads.find? pool = some loading →
    loading.Serves key records pool ∧ (pool = key → member.registry.find? key = none)
  stores : ∀ pool store, member.registry.find? pool = some store →
    store.Knows (fun snapshot => snapshot.key = pool) ∧
      (pool ≠ key → ∀ id ∈ store.held, id < next ∧ id ∉ member.log.ids)
  watches : member.log.Watches key records verdict member.registry.answers
    (member.registry.find? key)

variable {member : Member} {key pool : PoolKey} {records more : List Record}
variable {verdict : Nat → Bool} {next : Nat} {registry : Registry} {store : PoolStore}

theorem sound_start (created : ∃ options now, Registry.create options now = .ok registry) :
    (start registry).Sound key records (fun _ => false) next := by
  obtain ⟨options, now, made⟩ := created
  unfold Registry.create at made
  split at made
  · cases made
  · cases made
    refine ⟨rfl, ?_, ?_, ?_, ?_, ?_, rfl⟩
    · intro id held
      cases held
    · intro answer given
      cases given
    · intro index committed
      cases committed
    · intro pool loading found
      cases found
    · intro pool store found
      cases found

theorem Sound.grow (sound : member.Sound key records verdict next) (grown : records ⊆ more) :
    member.Sound key more verdict next := by
  refine ⟨sound.clock, sound.numbered, sound.answered, sound.known, ?_, sound.stores,
    sound.watches.grow grown⟩
  intro pool loading found
  obtain ⟨serves, unloaded⟩ := sound.loading pool loading found
  exact ⟨serves.grow grown, unloaded⟩

theorem Sound.later (sound : member.Sound key records verdict next) :
    member.Sound key records verdict (next + 1) := by
  refine ⟨sound.clock, ?_, ?_, sound.known, sound.loading, ?_, sound.watches⟩
  · intro id held
    exact Nat.lt_succ_of_lt (sound.numbered id held)
  · intro answer given
    exact Nat.lt_succ_of_lt (sound.answered answer given)
  · intro pool store found
    obtain ⟨knows, apart⟩ := sound.stores pool store found
    refine ⟨knows, ?_⟩
    intro other id held
    obtain ⟨early, foreign⟩ := apart other id held
    exact ⟨Nat.lt_succ_of_lt early, foreign⟩

theorem Sound.fresh (sound : member.Sound key records verdict next) : next ∉ member.log.ids :=
  fun held => Nat.lt_irrefl _ (sound.numbered next held)

theorem Sound.reload (sound : member.Sound key records verdict next)
    {loads : Table PoolKey Loading}
    (loading : ∀ pool loading, loads.find? pool = some loading →
      loading.Serves key records pool ∧ (pool = key → member.registry.find? key = none)) :
    Sound key records verdict next { member with loads } :=
  ⟨sound.clock, sound.numbered, sound.answered, sound.known, loading, sound.stores, sound.watches⟩

theorem Sound.erase (sound : member.Sound key records verdict next) (pool : PoolKey) :
    Sound key records verdict next { member with loads := member.loads.erase pool } := by
  apply sound.reload
  intro other loading found
  rw [Table.find?_erase] at found
  split at found
  · cases found
  · exact sound.loading other loading found

theorem Sound.insert (sound : member.Sound key records verdict next) {loading : Loading}
    (serves : loading.Serves key records pool)
    (unloaded : pool = key → member.registry.find? key = none) :
    Sound key records verdict next { member with loads := member.loads.insert pool loading } := by
  apply sound.reload
  intro other held found
  rw [Table.find?_insert] at found
  split at found
  · rename_i same
    cases found
    rw [same]
    exact ⟨serves, unloaded⟩
  · exact sound.loading other held found

theorem Sound.elsewhere (sound : member.Sound key records verdict next)
    {answers : List (Nat × Answer)} (other : pool ≠ key)
    (moves : member.registry.Moves registry pool store answers)
    (knows : store.Knows fun snapshot => snapshot.key = pool)
    (held : ∀ id ∈ store.held, id < next ∧ id ∉ member.log.ids)
    (apart : ∀ answer ∈ answers, answer.1 < next ∧ answer.1 ∉ member.log.ids) :
    Sound key records verdict next { member with registry } := by
  have same : registry.find? key = member.registry.find? key := moves.other (Ne.symm other)
  refine ⟨?_, sound.numbered, ?_, sound.known, ?_, ?_, ?_⟩
  · exact moves.clock ▸ sound.clock
  · intro answer given
    change answer ∈ registry.answers at given
    rw [moves.told] at given
    rcases List.mem_append.mp given with early | late
    · exact sound.answered answer early
    · exact (apart answer late).1
  · intro place loading found
    rw [same]
    exact sound.loading place loading found
  · intro place found place?
    change registry.find? place = some found at place?
    rw [moves.stores] at place?
    split at place?
    · rename_i here
      cases place?
      rw [here]
      exact ⟨knows, fun _ => held⟩
    · exact sound.stores place found place?
  · change member.log.Watches key records verdict registry.answers (registry.find? key)
    rw [same, moves.told]
    exact sound.watches.told fun answer given => (apart answer given).2

theorem Sound.unloading (sound : member.Sound key records verdict next)
    (present : member.registry.find? key = some store) : member.loads.find? key = none := by
  cases found : member.loads.find? key with
  | none => rfl
  | some loading =>
      have absent := (sound.loading key loading found).2 rfl
      rw [present] at absent
      cases absent

theorem Sound.here (sound : member.Sound key records verdict next) {log : Log}
    {verdict' : Nat → Bool} {later : Nat} {answers : List (Nat × Answer)} (le : next ≤ later)
    (unloading : member.loads.find? key = none)
    (moves : member.registry.Moves registry key store answers)
    (numbered : ∀ id ∈ log.ids, id < later)
    (fresh : ∀ id ∈ log.ids, id ∈ member.log.ids ∨ next ≤ id)
    (own : ∀ answer ∈ answers, answer.1 ∈ log.ids)
    (known : ∀ index, verdict' index = true → index < log.batches.length)
    (watches : log.Watches key more verdict' (member.registry.answers ++ answers) (some store)) :
    Sound key more verdict' later { member with registry, log } := by
  refine ⟨?_, numbered, ?_, known, ?_, ?_, ?_⟩
  · exact moves.clock ▸ sound.clock
  · intro answer given
    change answer ∈ registry.answers at given
    rw [moves.told] at given
    rcases List.mem_append.mp given with early | late
    · exact Nat.lt_of_lt_of_le (sound.answered answer early) le
    · exact numbered _ (own answer late)
  · intro place loading found
    have other : place ≠ key := by
      intro same
      rw [same, unloading] at found
      cases found
    refine ⟨?_, fun same => absurd same other⟩
    have serves := (sound.loading place loading found).1
    cases loading with
    | underway load => exact serves
    | found snapshot => exact ⟨serves.1, fun same => absurd same other⟩
  · intro place found place?
    change registry.find? place = some found at place?
    rw [moves.stores] at place?
    split at place?
    · rename_i same
      cases place?
      rw [same]
      exact ⟨PoolStore.Knows.grow watches.1 fun _ coherent => coherent.1,
        fun other => absurd rfl other⟩
    · obtain ⟨knows, apart⟩ := sound.stores place found place?
      refine ⟨knows, ?_⟩
      intro other id held
      obtain ⟨early, foreign⟩ := apart other id held
      refine ⟨Nat.lt_of_lt_of_le early le, ?_⟩
      intro member
      rcases fresh id member with old | new
      · exact foreign old
      · omega
  · change log.Watches key more verdict' registry.answers (registry.find? key)
    rw [moves.same, moves.told]
    exact watches

theorem Sound.refused (sound : member.Sound key records verdict next) (answer : Answer) :
    Sound key records verdict (next + 1)
      { member with registry := member.registry.answer next answer } := by
  have later := sound.later
  refine ⟨later.clock, later.numbered, ?_, later.known, later.loading, later.stores, ?_⟩
  · intro given member
    rcases List.mem_append.mp member with early | late
    · exact later.answered given early
    · rw [List.mem_singleton.mp late]
      exact Nat.lt_succ_self next
  · apply Log.Watches.told later.watches
    intro given member
    rw [List.mem_singleton.mp member]
    exact sound.fresh

theorem Sound.ask (sound : member.Sound key records verdict next) (pool : PoolKey)
    (hasWaited : Bool) : (member.ask pool hasWaited).Sound key records verdict next := by
  simp only [Member.ask]
  split
  · exact sound
  · split
    · rename_i load started
      obtain ⟨absent, storable, now, policy, rfl⟩ := Registry.loading_of_startLoad started
      have serves : (Loading.underway (.start pool now policy)).Serves key records pool :=
        ⟨rfl, ⟨now, rfl⟩, storable⟩
      apply sound.insert serves
      intro same
      exact same ▸ absent
    · exact sound

theorem Sound.install (sound : member.Sound key records verdict next) (pool : PoolKey) :
    (member.install pool).Sound key records verdict next := by
  unfold Member.install
  split
  · rename_i snapshot found
    obtain ⟨⟨rfl, coherent⟩, unloaded⟩ := sound.loading pool _ found
    have erased := sound.erase snapshot.key
    simp only
    split
    · exact erased
    · rename_i registry installed
      have moves := Registry.install_moves installed
      by_cases same : snapshot.key = key
      · have empty : member.log = .empty := by
          have watches := sound.watches
          rw [unloaded same] at watches
          exact watches
        have unloading : (member.loads.erase snapshot.key).find? key = none := by
          rw [Table.find?_erase, if_pos same.symm]
        have watches : member.log.Watches key records verdict (member.registry.answers ++ [])
            (some (.start snapshot)) := by
          rw [empty]
          refine ⟨⟨coherent same, trivial⟩, Log.fits_start _ _ _, ?_⟩
          intro opened
          cases opened
        rw [same] at moves
        exact erased.here (Nat.le_refl next) unloading moves sound.numbered
          (fun _ held => .inl held) (by rintro _ ⟨⟩) sound.known watches
      · apply erased.elsewhere same moves ⟨rfl, trivial⟩
        · intro id held
          cases held
        · intro answer given
          cases given
  · exact sound

theorem Sound.resume (sound : member.Sound key records verdict next) {step : LoadStep}
    (serves : step.Serves key records pool)
    (unloaded : pool = key → member.registry.find? key = none) :
    (member.resume pool step).Sound key records verdict next := by
  cases step with
  | continued load | paused load length => exact sound.insert serves unloaded
  | ended result =>
      cases result with
      | ok snapshot => exact sound.insert serves unloaded
      | error error => exact sound.erase pool
  | impossible => exact sound.erase pool

/-- A step of a load. What it finds in the record of the pool under watch is coherent, once that
record is among those that are known. -/
theorem Sound.load (sound : member.Sound key records verdict next) (client : Client)
    (pool : PoolKey) (draw : Draw) :
    ∃ after later, member.load client pool draw = (after, later) ∧
      (client.Honest → later.Honest) ∧ after.log = member.log ∧
      Records.Opened key client.backend.records later.backend.records ∧
      ∀ more, records ⊆ more →
        (∀ stored, later.backend.records.find? key.text = some stored → stored ∈ more) →
        after.Sound key more verdict next := by
  cases found : member.loads.find? pool with
  | none =>
      simp only [Member.load, found]
      exact ⟨_, _, rfl, id, rfl, .inl rfl, fun _ grown _ => sound.grow grown⟩
  | some loading =>
      cases loading with
      | found snapshot =>
          simp only [Member.load, found]
          exact ⟨_, _, rfl, id, rfl, .inl rfl, fun _ grown _ => sound.grow grown⟩
      | underway load =>
          obtain ⟨serves, unloaded⟩ := sound.loading pool _ found
          obtain ⟨own, ⟨now, request⟩, storable⟩ := serves
          obtain ⟨step, later, stepped, honest, move⟩ := load.step_move draw client
          simp only [Member.load, found, stepped]
          refine ⟨_, _, rfl, honest, member.resume_log pool step, ?_⟩
          generalize later.backend.records = ends at move
          cases move with
          | found stored held =>
              refine ⟨.inl rfl, fun more grown known => (sound.grow grown).resume ?_ unloaded⟩
              apply LoadStep.serves_decode own
              rintro rfl
              rw [request] at held
              exact known stored held
          | created absent =>
              have stored : ∀ place : PoolKey,
                  (client.backend.records.put load.request.record).find? place.text =
                    if place = pool then some load.request.record
                    else client.backend.records.find? place.text := by
                intro place
                simp only [Records.put, Table.find?_insert, ReadRequest.record, request,
                  PoolKey.text_injective.eq_iff]
              refine ⟨?_, fun more grown known => (sound.grow grown).resume ?_ unloaded⟩
              · by_cases same : key = pool
                · subst same
                  refine .inr ⟨?_, storable, now, ?_⟩
                  · rw [request] at absent
                    exact absent
                  · rw [stored, if_pos rfl, ReadRequest.record, request]
                · left
                  rw [stored, if_neg same]
              · apply LoadStep.serves_decode own
                rintro rfl
                exact known _ ((stored _).trans (if_pos rfl))
          | onward phase =>
              refine ⟨.inl rfl, fun more grown known => (sound.grow grown).resume ?_ unloaded⟩
              exact ⟨own, ⟨now, request⟩, storable⟩
          | paused cursor length =>
              refine ⟨.inl rfl, fun more grown known => (sound.grow grown).resume ?_ unloaded⟩
              exact ⟨own, ⟨now, request⟩, storable⟩
          | failed error =>
              exact ⟨.inl rfl, fun more grown known => (sound.grow grown).resume trivial unloaded⟩
          | stuck =>
              exact ⟨.inl rfl, fun more grown known => (sound.grow grown).resume trivial unloaded⟩

theorem Sound.push (sound : member.Sound key records verdict next) (pool : PoolKey)
    (mutation : Mutation) :
    (member.push key pool ⟨next, mutation⟩).Sound key records verdict (next + 1) := by
  simp only [Member.push]
  rcases member.registry.push_cases pool ⟨next, mutation⟩ with
    ⟨pushed, closed⟩ | ⟨pushed, closed⟩ | ⟨store, found, opened, moves⟩
  · simp only [pushed, closed, Bool.false_eq_true, and_false, if_false]
    exact sound.later
  · simp only [pushed, closed, Bool.false_eq_true, and_false, if_false]
    exact sound.refused .shutDown
  · obtain ⟨knows, apart⟩ := sound.stores pool store found
    by_cases same : pool = key
    · subst same
      simp only [opened, and_self, if_true]
      have watches := sound.watches
      rw [found] at watches
      obtain ⟨coherent, fits, undecided⟩ := watches
      have ids : (member.log.enqueue ⟨next, mutation⟩).ids = member.log.ids ++ [next] :=
        List.map_append
      apply sound.here (Nat.le_succ next) (sound.unloading found) moves
      · intro id held
        rw [ids] at held
        rcases List.mem_append.mp held with early | late
        · exact Nat.lt_succ_of_lt (sound.numbered id early)
        · rw [List.mem_singleton.mp late]
          exact Nat.lt_succ_self next
      · intro id held
        rw [ids] at held
        rcases List.mem_append.mp held with early | late
        · exact .inl early
        · rw [List.mem_singleton.mp late]
          exact .inr (Nat.le_refl next)
      · intro answer given
        cases given
      · exact sound.known
      · rw [List.append_nil]
        exact ⟨coherent, fits.enqueue rfl rfl sound.numbered sound.answered, undecided⟩
    · simp only [same, false_and, if_false]
      apply sound.later.elsewhere same moves knows
      · intro id held
        simp only [PoolStore.held, List.map_append, List.mem_append, List.map_cons, List.map_nil,
          List.mem_singleton] at held
        rcases held with working | waiting | own
        · obtain ⟨early, foreign⟩ := apart same id (List.mem_append_left _ working)
          exact ⟨Nat.lt_succ_of_lt early, foreign⟩
        · obtain ⟨early, foreign⟩ := apart same id (List.mem_append_right _ waiting)
          exact ⟨Nat.lt_succ_of_lt early, foreign⟩
        · rw [own]
          exact ⟨Nat.lt_succ_self next, sound.fresh⟩
      · intro answer given
        cases given

theorem Sound.notify (sound : member.Sound key records verdict next) (pool : PoolKey) :
    Sound key records verdict next
      { member with registry := member.registry.notify pool } := by
  unfold Registry.notify
  cases found : member.registry.find? pool with
  | none => exact sound
  | some store =>
      obtain ⟨knows, apart⟩ := sound.stores pool store found
      have moves := member.registry.moves_insert pool store.trigger
      by_cases same : pool = key
      · subst same
        have watches := sound.watches
        rw [found] at watches
        obtain ⟨coherent, fits, undecided⟩ := watches
        have triggered : member.log.Watches pool records verdict (member.registry.answers ++ [])
            (some store.trigger) := by
          rw [List.append_nil]
          exact ⟨coherent, fits.frame rfl rfl fun _ _ => rfl, undecided⟩
        exact sound.here (Nat.le_refl next) (sound.unloading found) moves sound.numbered
          (fun _ held => .inl held) (by rintro _ ⟨⟩) sound.known triggered
      · apply sound.elsewhere same moves knows (apart same)
        intro answer given
        cases given

theorem Sound.work (sound : member.Sound key records verdict next) {client later : Client}
    (honest : client.Honest) (pool : PoolKey) {registry : Registry}
    (worked : member.registry.step? client pool = some (registry, later)) :
    Client.Quiet client later ∧ ∃ log : Log,
      member.drive key client pool (some (registry, later)) = (⟨registry, member.loads, log⟩, later) ∧
      log.ids = member.log.ids ∧
      member.log.Grows log ∧
      Sound key records verdict next ⟨registry, member.loads, log⟩ := by
  obtain ⟨store, after, around, found, stepped, rfl, moves⟩ := Registry.act?_moves worked
  obtain ⟨now, clock⟩ := Option.isSome_iff_exists.mp sound.clock
  have step : PoolStore.Step now (store, member.registry.surroundings client pool) (after, around) :=
    PoolStore.step_of_step? clock honest stepped
  obtain ⟨quiet, -, -, fewer, answers, told, own⟩ := step.frame
  have moves := moves answers told
  obtain ⟨knows, apart⟩ := sound.stores pool store found
  refine ⟨quiet, ?_⟩
  by_cases same : pool = key
  · subst same
    have watches := sound.watches
    rw [found] at watches
    obtain ⟨coherent, fits, undecided⟩ := watches
    have ids := member.log.note_ids store after
    refine ⟨member.log.note store after, ?_, ids, fun _ _ => member.log.note_batches store after, ?_⟩
    · simp [Member.drive, found, moves.same, Log.noteAt]
    · apply sound.here (Nat.le_refl next) (sound.unloading found) moves
      · intro id held
        exact sound.numbered id (ids ▸ held)
      · intro id held
        exact .inl (ids ▸ held)
      · intro answer given
        rw [ids]
        exact fits.held (own answer given)
      · intro index committed
        have early := sound.known index committed
        have kept := member.log.note_batches store after (List.getElem?_eq_getElem early)
        exact (List.getElem?_eq_some_iff.mp kept).1
      · refine ⟨coherent.step step, told ▸ fits.step step undecided, ?_⟩
        intro opened
        rcases member.log.note_step step with ⟨batches, opens, -⟩ | ⟨taken, batches, -⟩
        · rw [batches]
          exact undecided (opens opened)
        · rw [batches, List.length_append, List.length_singleton, Nat.add_sub_cancel,
            ← Bool.not_eq_true]
          intro committed
          exact Nat.lt_irrefl _ (sound.known _ committed)
  · refine ⟨member.log, ?_, rfl, fun _ _ held => held, ?_⟩
    · simp [Member.drive, same]
    · apply sound.elsewhere same moves
      · exact knows.step (fun _ own => own) step
      · intro id held
        exact apart same id (fewer held)
      · intro answer given
        exact apart same _ (own answer given)

theorem Sound.conclude (sound : member.Sound key records verdict next) {batch : Batch}
    {change : Record} {delay : Nat} {conclusion : Conclusion} {verdict' : Nat → Bool}
    (found : member.registry.find? key = some store)
    (awaiting : store.phase = .awaiting batch change delay)
    (moves : member.registry.Moves registry key
      { store with phase := .concluding batch conclusion } [])
    (grown : records ⊆ more) (coherent : conclusion.snapshot.Coherent key more)
    (kept : ∀ index, index + 1 ≠ member.log.batches.length → verdict' index = verdict index)
    (last : conclusion.isCommitted = verdict' (member.log.batches.length - 1)) :
    Sound key more verdict' next { member with registry } := by
  have watches := sound.watches
  rw [found] at watches
  obtain ⟨own, fits, -⟩ := watches
  obtain ⟨-, earlier, taken, batches, holds⟩ := fits.working awaiting rfl
  obtain ⟨rfl, -, -, told⟩ := holds
  have size : member.log.batches.length = earlier.length + 1 := by
    rw [batches, List.length_append, List.length_singleton]
  rw [size, Nat.add_sub_cancel] at last
  apply sound.here (Nat.le_refl next) (sound.unloading found) moves sound.numbered
  · intro id held
    exact .inl held
  · intro answer given
    cases given
  · intro index committed
    by_cases here : index + 1 = member.log.batches.length
    · omega
    · rw [kept index here] at committed
      exact sound.known index committed
  · rw [List.append_nil]
    refine ⟨⟨own.1.grow grown, coherent⟩, ?_, by rintro ⟨⟩⟩
    refine fits.hold batches rfl ?_ ⟨rfl, last, told⟩
    intro index early
    apply kept
    omega

theorem Sound.concludeElsewhere (sound : member.Sound key records verdict next) {batch : Batch}
    {change : Record} {delay : Nat} {conclusion : Conclusion} (other : pool ≠ key)
    (found : member.registry.find? pool = some store)
    (awaiting : store.phase = .awaiting batch change delay)
    (moves : member.registry.Moves registry pool
      { store with phase := .concluding batch conclusion } [])
    (own : conclusion.snapshot.key = batch.before.key) :
    Sound key records verdict next { member with registry } := by
  obtain ⟨⟨snapshot, working⟩, apart⟩ := sound.stores pool store found
  rw [awaiting] at working
  apply sound.elsewhere other moves
  · exact ⟨snapshot, own.trans working.1⟩
  · intro id held
    apply apart other id
    simpa [PoolStore.held, awaiting] using held
  · intro answer given
    cases given

theorem drive_kept {client later : Client} {after : PoolStore} {answers : List (Nat × Answer)}
    (found : member.registry.find? pool = some store) (busy : store.phase ≠ .taking)
    (moves : member.registry.Moves registry pool after answers) :
    member.drive key client pool (some (registry, later)) = ({ member with registry }, later) := by
  simp [drive, found, moves.same, Log.noteAt, member.log.note_of_ne after busy]

theorem Sound.abandon (sound : member.Sound key records verdict next) {client later : Client}
    (pool : PoolKey) {registry : Registry}
    (abandoned : member.registry.act? client pool PoolStore.abandonUpdate? =
      some (registry, later)) :
    Client.Quiet client later ∧
      member.drive key client pool (some (registry, later)) = ({ member with registry }, later) ∧
      Sound key records verdict next { member with registry } := by
  obtain ⟨store, after, around, found, ended, rfl, moves⟩ := Registry.act?_moves abandoned
  obtain ⟨batch, change, delay, client', awaiting, rfl, rfl, quiet⟩ :=
    PoolStore.end_of_abandonUpdate? ended
  have moves := moves [] (List.append_nil _).symm
  refine ⟨quiet, drive_kept found (by simp [awaiting]) moves, ?_⟩
  by_cases same : pool = key
  · subst same
    have watches := sound.watches
    rw [found] at watches
    obtain ⟨⟨-, coherent⟩, -, undecided⟩ := watches
    rw [awaiting] at coherent undecided
    exact sound.conclude found awaiting moves (fun _ held => held) coherent.1.forget
      (fun _ _ => rfl) (undecided rfl).symm
  · exact sound.concludeElsewhere same found awaiting moves rfl

/-- The update of another pool ends. It does not concern the record of the pool under watch. -/
theorem Sound.finishElsewhere (sound : member.Sound key records verdict next)
    {client later : Client} (other : pool ≠ key) {registry : Registry}
    (finished : member.registry.act? client pool PoolStore.finishUpdate? =
      some (registry, later)) :
    (client.Honest → later.Honest) ∧
      later.backend.records.find? key.text = client.backend.records.find? key.text ∧
      member.drive key client pool (some (registry, later)) = ({ member with registry }, later) ∧
      Sound key records verdict next { member with registry } := by
  obtain ⟨store, after, around, found, ended, rfl, moves⟩ := Registry.act?_moves finished
  obtain ⟨batch, change, delay, result, later, awaiting, rfl, rfl, ends, honest⟩ :=
    PoolStore.end_of_finishUpdate? ended
  have moves := moves [] (List.append_nil _).symm
  obtain ⟨⟨-, working⟩, -⟩ := sound.stores pool store found
  rw [awaiting] at working
  obtain ⟨own, place⟩ := working
  refine ⟨honest, ?_, drive_kept found (by simp [awaiting]) moves, ?_⟩
  · apply ends.elsewhere
    rw [place, own]
    exact fun same => other (PoolKey.text_injective same).symm
  · exact sound.concludeElsewhere other found awaiting moves (batch.conclude_key result)

/-- What an act may do to a registry and to the record of the pool under watch, if no update of that
pool comes to an end. -/
structure Passes (key : PoolKey) (records : List Record) (verdict : Nat → Bool) (next : Nat)
    (before : Member) (client : Client) (result : Member × Client) : Prop where
  honest : result.2.Honest
  grows : before.log.Grows result.1.log
  fresh : ∀ id ∈ result.1.log.ids, id ∈ before.log.ids ∨ id = next
  opened : Records.Opened key client.backend.records result.2.backend.records
  sound : ∀ more, records ⊆ more →
    (∀ stored, result.2.backend.records.find? key.text = some stored → stored ∈ more) →
    result.1.Sound key more verdict (next + 1)

theorem Sound.passes {after : Member} {client later : Client} (honest : later.Honest)
    (log : after.log = member.log)
    (same : later.backend.records.find? key.text = client.backend.records.find? key.text)
    (sound : after.Sound key records verdict next) :
    Passes key records verdict next member client (after, later) := by
  refine ⟨honest, ?_, ?_, .inl same, fun more grown _ => sound.later.grow grown⟩
  · rw [log]
    exact fun _ _ found => found
  · rw [log]
    exact fun _ held => .inl held

theorem Sound.act (sound : member.Sound key records verdict next) {client : Client}
    (honest : client.Honest) {memberAct : MemberAct} (other : memberAct ≠ .finishUpdate key) :
    Passes key records verdict next member client (member.act key next client memberAct) := by
  cases memberAct with
  | ask pool hasWaited =>
      exact (sound.ask pool hasWaited).passes honest (member.ask_log pool hasWaited) rfl
  | load pool draw =>
      obtain ⟨after, later, loaded, kept, log, opened, sound⟩ := sound.load client pool draw
      simp only [Member.act, loaded]
      refine ⟨kept honest, ?_, ?_, opened, fun more grown known => (sound more grown known).later⟩
      · rw [log]
        exact fun _ _ found => found
      · rw [log]
        exact fun _ held => .inl held
  | install pool => exact (sound.install pool).passes honest (member.install_log pool) rfl
  | leave pool => exact (sound.erase pool).passes honest rfl rfl
  | push pool mutation =>
      refine ⟨honest, ?_, ?_, .inl rfl, fun more grown _ => (sound.push pool mutation).grow grown⟩
      · simp only [Member.act, Member.push]
        split <;> exact fun _ _ found => found
      · intro id held
        simp only [Member.act, Member.push] at held
        split at held
        · simpa [Log.ids, Log.enqueue] using held
        · exact .inl held
  | notify pool => exact (sound.notify pool).passes honest rfl rfl
  | work pool =>
      cases worked : member.registry.step? client pool with
      | none =>
          simp only [Member.act, worked, drive]
          exact sound.passes honest rfl rfl
      | some result =>
          obtain ⟨registry, later⟩ := result
          obtain ⟨quiet, log, driven, ids, grows, sound⟩ := sound.work honest pool worked
          simp only [Member.act, worked, driven]
          refine ⟨quiet.honest honest, grows, ?_, ?_, fun more grown _ => sound.later.grow grown⟩
          · intro id held
            exact .inl (ids ▸ held)
          · left
            rw [quiet.records]
  | finishUpdate pool =>
      have elsewhere : pool ≠ key := fun same => other (same ▸ rfl)
      cases finished : member.registry.act? client pool PoolStore.finishUpdate? with
      | none =>
          simp only [Member.act, finished, drive]
          exact sound.passes honest rfl rfl
      | some result =>
          obtain ⟨registry, later⟩ := result
          obtain ⟨kept, same, driven, sound⟩ := sound.finishElsewhere elsewhere finished
          simp only [Member.act, finished, driven]
          exact sound.passes (kept honest) rfl same
  | abandonUpdate pool =>
      cases abandoned : member.registry.act? client pool PoolStore.abandonUpdate? with
      | none =>
          simp only [Member.act, abandoned, drive]
          exact sound.passes honest rfl rfl
      | some result =>
          obtain ⟨registry, later⟩ := result
          obtain ⟨quiet, driven, sound⟩ := sound.abandon pool abandoned
          simp only [Member.act, abandoned, driven]
          exact sound.passes (quiet.honest honest) rfl (by rw [quiet.records])
  | shutDown =>
      have shut : Sound key records verdict next
          { member with registry := member.registry.shutDown } :=
        ⟨sound.clock, sound.numbered, sound.answered, sound.known, sound.loading, sound.stores,
          sound.watches⟩
      exact shut.passes honest rfl rfl
  | tick now =>
      have ticked : Sound key records verdict next
          { member with registry := { member.registry with clock := some now } } :=
        ⟨rfl, sound.numbered, sound.answered, sound.known, sound.loading, sound.stores,
          sound.watches⟩
      exact ticked.passes honest rfl rfl

end Member

end ClaimStore
