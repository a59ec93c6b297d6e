import ClaimStore.Proofs.Desk
import ClaimStore.Proofs.Ledger

/-!
A batch from its start to its end, all or nothing.

The worker is alone with the record store here. A batch then ends in one of three ways, and what
holds before it tells which one. Every step of the worker is on the way to that end.
-/
namespace ClaimStore

namespace Taken

/-- The update that commits a batch gets to the stored records. -/
structure Reaches (taken : Taken) (timeout : Duration) (client : Client) : Prop where
  storable : Storage.poolFormat.isStorable taken.batch.candidate = true
  accepted : client.backend.faults.internalUpdates = 0
  carriedOut : client.backend.faults.failedUpdates = 0
  inTime : client.backend.updateDelay.getD 0 ≤ timeout.ceilMillis

/-- The record of the pool, of which the snapshot before the batch is an image. -/
def stored? (taken : Taken) (records : Records) : Option Record :=
  records.find? taken.before.key.text

/-- Every record that can be found under the key of the pool bears this key. -/
def Keyed (taken : Taken) (records : Records) : Prop :=
  ∀ stored, taken.stored? records = some stored → stored.key = taken.before.key.text

/-- What has to hold before a batch for it to end in this way. -/
def Due (taken : Taken) (timeout : Duration) (client : Client) : CommitOutcome → Prop
  | .committed =>
      taken.Reaches timeout client ∧ ∃ stored,
        taken.stored? client.backend.records = some stored ∧
          stored.version = taken.before.version
  | .conflict =>
      taken.Reaches timeout client ∧ ∃ stored state,
        taken.stored? client.backend.records = some stored ∧
          stored.version ≠ taken.before.version ∧
          (Storage.poolFormat.decode (.ofChunks [stored.value])).1 = .ok state
  | .storeFailure =>
      ¬taken.Reaches timeout client ∨
        taken.stored? client.backend.records = none ∨
        ∃ stored error, taken.stored? client.backend.records = some stored ∧
          stored.version ≠ taken.before.version ∧
          (Storage.poolFormat.decode (.ofChunks [stored.value])).1 = .error error

/-- What a batch makes of the stored records when it ends with this conclusion. -/
def Stores (taken : Taken) (now : Timestamp) (records : Records) : Conclusion → Records → Prop
  | .committed snapshot, after =>
      snapshot = ⟨taken.before.version.next, taken.before.key, taken.batch.candidate⟩ ∧
        (∃ stored, taken.stored? after = some stored ∧ stored.Holds snapshot ∧
          stored.modified = now) ∧
        ∀ key, key ≠ taken.before.key.text → after.find? key = records.find? key
  | .conflict snapshot, after =>
      after = records ∧ snapshot.key = taken.before.key ∧
        ∃ stored, taken.stored? records = some stored ∧ stored.Holds snapshot
  | .storeFailure snapshot, after =>
      after = records ∧ snapshot = ⟨.invalid, taken.before.key, taken.before.state⟩

/-- What a batch that ends in this way leaves behind: the snapshot, the stored records, the cache, and
the answers. A commit writes the record of the pool and no other one. A rollback writes none, empties
the cache, and shows what the record of the pool holds, or else the state before the batch without a
version. -/
def Leaves (taken : Taken) (now : Timestamp) (before : Surroundings) (snapshot : Snapshot)
    (after : Surroundings) : CommitOutcome → Prop
  | .committed =>
      snapshot = ⟨taken.before.version.next, taken.before.key, taken.batch.candidate⟩ ∧
        (∃ stored, taken.stored? after.client.backend.records = some stored ∧
          stored.Holds snapshot ∧ stored.modified = now) ∧
        (∀ key, key ≠ taken.before.key.text → after.client.backend.records.find? key =
          before.client.backend.records.find? key) ∧
        after.cache = before.cache ∧
        after.answers = before.answers ++ taken.refusals ++
          taken.batch.pending.map fun id => (id, .committed)
  | .conflict =>
      snapshot.key = taken.before.key ∧
        (∃ stored, taken.stored? before.client.backend.records = some stored ∧
          stored.Holds snapshot) ∧
        after.client.backend.records = before.client.backend.records ∧
        after.cache = ⟨.empty, before.cache.invalidations + 1⟩ ∧
        after.answers = before.answers ++ taken.refusals ++
          taken.batch.pending.map fun id => (id, .rolledBack)
  | .storeFailure =>
      snapshot = ⟨.invalid, taken.before.key, taken.before.state⟩ ∧
        after.client.backend.records = before.client.backend.records ∧
        after.cache = ⟨.empty, before.cache.invalidations + 1⟩ ∧
        after.answers = before.answers ++ taken.refusals ++
          taken.batch.pending.map fun id => (id, .rolledBack)

variable {taken : Taken} {timeout : Duration} {client sent : Client} {now : Timestamp}

theorem Due.unique {outcome other : CommitOutcome} (due : taken.Due timeout client outcome)
    (also : taken.Due timeout client other) : outcome = other := by
  cases outcome <;> cases other <;> grind [Due]

/-- A batch that was begun with `client` has to end with this conclusion, and the stored records are
as it leaves them. -/
structure Decided (taken : Taken) (timeout : Duration) (now : Timestamp) (client : Client)
    (conclusion : Conclusion) (after : Client) : Prop where
  due : taken.Due timeout client conclusion.outcome
  stores : taken.Stores now client.backend.records conclusion after.backend.records

theorem decided_abandoned (missed : ¬taken.Reaches timeout client)
    (records : sent.backend.records = client.backend.records) :
    taken.Decided timeout now client taken.batch.abandoned sent :=
  ⟨.inl missed, records, rfl⟩

/-- The update that commits a batch writes its candidate at the next version, and nothing else. -/
theorem stores_written (taken : Taken) (now : Timestamp)
    (storable : Storage.poolFormat.isStorable taken.batch.candidate = true) (records : Records) :
    taken.Stores now records (.committed taken.batch.committed)
      (records.write (taken.batch.change now)) := by
  have own := taken.batch.committed.holds_record now storable
  refine ⟨rfl, ⟨_, ?_, own, rfl⟩, ?_⟩
  · rw [stored?, Records.find?_write]
    exact if_pos rfl
  · intro key other
    rw [Records.find?_write]
    exact if_neg other

/-- An update that is on its way and in time decides about the batch. -/
theorem decided_finishUpdate (keyed : taken.Keyed client.backend.records)
    (storable : Storage.poolFormat.isStorable taken.batch.candidate = true)
    (accepted : client.backend.faults.internalUpdates = 0)
    (inTime : client.backend.updateDelay.getD 0 ≤ timeout.ceilMillis)
    (faults : sent.backend.faults = client.backend.faults)
    (records : sent.backend.records = client.backend.records) :
    let ended := sent.finishUpdate [taken.batch.change now]
    taken.Decided timeout now client (taken.batch.conclude ended.1) ended.2 := by
  unfold Client.finishUpdate Client.record Backend.finishUpdate
  rw [faults, records]
  by_cases broken : 0 < client.backend.faults.failedUpdates
  · simp only [if_pos broken]
    refine decided_abandoned ?_ rfl
    intro reaches
    rw [reaches.carriedOut] at broken
    exact Nat.lt_irrefl 0 broken
  · have reaches : taken.Reaches timeout client :=
      ⟨storable, accepted, Nat.eq_zero_of_not_pos broken, inTime⟩
    simp only [if_neg broken]
    rcases client.backend.records.update_single (taken.batch.change now) with
      ⟨missing, absent⟩ | ⟨_, _, updated, ends⟩
    · simp only [missing]
      exact ⟨.inr (.inl absent), rfl, rfl⟩
    · simp only [updated]
      cases ends with
      | written stored found same =>
          exact ⟨⟨reaches, stored, found, same⟩, taken.stores_written now storable _⟩
      | refused stored found other =>
          have own : stored.key = taken.batch.before.key.text := keyed stored found
          rcases Snapshot.ofRecord_cases taken.batch.before.key stored with
            ⟨state, decoded, read⟩ | ⟨error, decoded, read⟩
          · rw [Batch.conclude_read own read]
            exact ⟨⟨reaches, stored, state, found, other, decoded⟩, rfl, rfl, stored, found,
              own, rfl, decoded⟩
          · rw [Batch.conclude_unread own read]
            exact ⟨.inr (.inr ⟨stored, error, found, other, decoded⟩), rfl, rfl⟩

end Taken

/-- The cache of a pool after a batch with this conclusion. -/
def TokenCache.conclude (cache : TokenCache) (conclusion : Conclusion) : TokenCache :=
  if conclusion.isCommitted then cache else ⟨.empty, cache.invalidations + 1⟩

theorem Surroundings.conclude_cache (around : Surroundings) (conclusion : Conclusion) :
    (around.conclude conclusion).cache = around.cache.conclude conclusion := by
  unfold conclude TokenCache.conclude
  split <;> rfl

/-- What a batch leaves behind when all of its requests have been told how it has ended. -/
theorem Taken.Decided.leaves {taken : Taken} {timeout : Duration} {now : Timestamp}
    {before after : Surroundings} {conclusion : Conclusion}
    (decided : taken.Decided timeout now before.client conclusion after.client)
    (cache : after.cache = before.cache.conclude conclusion)
    (answers : after.answers = before.answers ++ taken.refusals ++
      taken.batch.pending.map fun id => (id, .ofCommit conclusion.isCommitted)) :
    taken.Leaves now before conclusion.snapshot after conclusion.outcome := by
  have stores := decided.stores
  cases conclusion with
  | committed snapshot =>
      obtain ⟨own, written, others⟩ := stores
      exact ⟨own, written, others, cache, answers⟩
  | conflict snapshot =>
      obtain ⟨records, own, read⟩ := stores
      exact ⟨own, read, records, cache, answers⟩
  | storeFailure snapshot =>
      obtain ⟨records, own⟩ := stores
      exact ⟨own, records, cache, answers⟩

namespace PoolStore

/-- A worker begins with a batch. -/
def begin (store : PoolStore) (requests : List Request) (around : Surroundings) :
    PoolStore × Surroundings :=
  ({ store with phase := .applying (.start store.snapshot) requests },
    around.countBatch requests.length)

/-- The next step of a worker that is alone with the record store, where every update ends by itself
or after the timeout. -/
def timedStep? (timeout : Duration) (batchSize : Nat) (isShutDown : Bool)
    (state : PoolStore × Surroundings) : Option (PoolStore × Surroundings) :=
  match state.1.phase with
  | .awaiting _ _ delay =>
      if timeout.ceilMillis < delay then abandonUpdate? state else finishUpdate? state
  | _ => step? batchSize isShutDown state

/-- Steps until the worker has no batch in hand, at most `fuel` of them. -/
def workFor (timeout : Duration) (batchSize : Nat) (isShutDown : Bool) :
    (fuel : Nat) → PoolStore × Surroundings → PoolStore × Surroundings
  | 0, state => state
  | fuel + 1, state =>
      if state.1.phase.isWorking then
        match timedStep? timeout batchSize isShutDown state with
        | none => state
        | some next => workFor timeout batchSize isShutDown fuel next
      else state

/-- A batch from its start to its end. -/
def processBatch (timeout : Duration) (batchSize : Nat) (isShutDown : Bool)
    (requests : List Request) (store : PoolStore) (around : Surroundings) :
    PoolStore × Surroundings :=
  let begun := store.begin requests around
  workFor timeout batchSize isShutDown begun.1.workAhead begun

section

variable {timeout : Duration} {batchSize : Nat} {isShutDown : Bool} {now : Timestamp}
variable {taken : Taken} {start store : PoolStore} {before around : Surroundings}

theorem take_eq_begin {requests : List Request} {queue : RequestQueue}
    (taken : store.queue.takeBatch batchSize = (requests, queue)) (some : requests ≠ [])
    (around : Surroundings) :
    store.take batchSize around = begin { store with queue } requests around := by
  cases requests with
  | nil => exact absurd rfl some
  | cons request rest =>
      unfold take
      rw [taken]
      rfl

theorem timedStep?_workAhead {state next : PoolStore × Surroundings}
    (stepped : timedStep? timeout batchSize isShutDown state = some next) :
    next.1.workAhead < state.1.workAhead := by
  unfold timedStep? at stepped
  split at stepped
  · rename_i batch change delay phase
    split at stepped
    · simp only [abandonUpdate?, phase, Option.some.injEq] at stepped
      subst stepped
      simp [workAhead, phase]
    · simp only [finishUpdate?, phase, Option.some.injEq] at stepped
      subst stepped
      simp [workAhead, phase]
  · exact step?_workAhead stepped

/-- How far a batch has come that was begun by `start` and `before`. -/
inductive Underway (taken : Taken) (timeout : Duration) (now : Timestamp) (start : PoolStore)
    (before : Surroundings) : PoolStore × Surroundings → Prop
  | applying {snapshot : Snapshot} {around : Surroundings} (done rest : List Request)
      (split : taken.requests = done ++ rest)
      (clock : around.clock = some now) (client : around.client = before.client)
      (cache : around.cache = before.cache)
      (answers : around.answers = before.answers ++ taken.before.state.refusals done) :
      Underway taken timeout now start before
        ({ start with snapshot, phase := .applying (taken.after done) rest }, around)
  | awaiting {snapshot : Snapshot} {around : Surroundings}
      (storable : Storage.poolFormat.isStorable taken.batch.candidate = true)
      (accepted : before.client.backend.faults.internalUpdates = 0)
      (faults : around.client.backend.faults = before.client.backend.faults)
      (records : around.client.backend.records = before.client.backend.records)
      (cache : around.cache = before.cache)
      (answers : around.answers = before.answers ++ taken.refusals) :
      Underway taken timeout now start before
        ({ start with
            snapshot
            phase := .awaiting taken.batch (taken.batch.change now)
              (before.client.backend.updateDelay.getD 0) },
          around)
  | concluding {snapshot : Snapshot} {around : Surroundings} (conclusion : Conclusion)
      (decided : taken.Decided timeout now before.client conclusion around.client)
      (cache : around.cache = before.cache)
      (answers : around.answers = before.answers ++ taken.refusals) :
      Underway taken timeout now start before
        ({ start with snapshot, phase := .concluding taken.batch conclusion }, around)
  | adopting {snapshot : Snapshot} {around : Surroundings} (conclusion : Conclusion)
      (decided : taken.Decided timeout now before.client conclusion around.client)
      (cache : around.cache = before.cache.conclude conclusion)
      (answers : around.answers = before.answers ++ taken.refusals) :
      Underway taken timeout now start before
        ({ start with snapshot, phase := .adopting taken.batch conclusion }, around)
  | resolving {around : Surroundings} (conclusion : Conclusion) (done rest : List Nat)
      (split : taken.batch.pending = done ++ rest)
      (decided : taken.Decided timeout now before.client conclusion around.client)
      (cache : around.cache = before.cache.conclude conclusion)
      (answers : around.answers = before.answers ++ taken.refusals ++
        done.map fun id => (id, .ofCommit conclusion.isCommitted)) :
      Underway taken timeout now start before
        ({ start with
            snapshot := conclusion.snapshot
            phase := .resolving (.ofCommit conclusion.isCommitted) rest },
          around)
  | ended {around : Surroundings} (conclusion : Conclusion)
      (decided : taken.Decided timeout now before.client conclusion around.client)
      (cache : around.cache = before.cache.conclude conclusion)
      (answers : around.answers = before.answers ++ taken.refusals ++
        taken.batch.pending.map fun id => (id, .ofCommit conclusion.isCommitted)) :
      Underway taken timeout now start before
        ({ start with snapshot := conclusion.snapshot, phase := .taking }, around)

theorem underway_begin (timeout : Duration) (start : PoolStore) (requests : List Request)
    (clock : before.clock = some now) :
    Underway ⟨start.snapshot, requests⟩ timeout now start before (start.begin requests before) :=
  .applying [] requests rfl clock rfl rfl (List.append_nil _).symm

/-- The commit begins when the mutations of all requests have been applied. -/
theorem underway_commit (honest : before.client.Honest) (clock : around.clock = some now)
    (client : around.client = before.client) (cache : around.cache = before.cache)
    (answers : around.answers = before.answers ++ taken.refusals) (snapshot : Snapshot)
    (phase : Phase) :
    Underway taken timeout now start before
      (({ start with snapshot, phase } : PoolStore).commit taken.batch around) := by
  unfold commit
  cases storable : Storage.poolFormat.isStorable taken.batch.candidate with
  | false =>
      have missed : ¬taken.Reaches timeout before.client := by
        intro reaches
        rw [reaches.storable] at storable
        cases storable
      exact .concluding _ (Taken.decided_abandoned missed (by rw [client])) cache answers
  | true =>
      simp only [clock]
      unfold send Client.startUpdate Backend.startUpdate
      rw [client]
      by_cases broken : 0 < before.client.backend.faults.internalUpdates
      · have missed : ¬taken.Reaches timeout before.client := by
          intro reaches
          rw [reaches.accepted] at broken
          exact Nat.lt_irrefl 0 broken
        simp only [if_pos broken]
        exact .concluding _ (Taken.decided_abandoned missed rfl) cache answers
      · rw [Client.Honest] at honest
        simp only [if_neg broken, honest, Nat.lt_irrefl, if_false]
        exact .awaiting storable (Nat.eq_zero_of_not_pos broken) rfl rfl cache answers

/-- A batch that is underway gets on, and stays on its way. -/
theorem Underway.step (batchSize : Nat) (isShutDown : Bool) (honest : before.client.Honest)
    (keyed : taken.Keyed before.client.backend.records) {state : PoolStore × Surroundings}
    (underway : Underway taken timeout now start before state)
    (working : state.1.phase.isWorking = true) :
    ∃ next, timedStep? timeout batchSize isShutDown state = some next ∧
      Underway taken timeout now start before next := by
  cases underway with
  | applying done rest split clock client cache answers =>
      cases rest with
      | nil =>
          rw [List.append_nil] at split
          subst split
          exact ⟨_, rfl, underway_commit honest clock client cache answers _ _⟩
      | cons request rest =>
          have whole : taken.requests = (done ++ [request]) ++ rest := by
            rw [split, List.append_assoc]
            rfl
          cases result : request.mutation (taken.after done).candidate with
          | ok candidate =>
              obtain ⟨batch, silent⟩ := Taken.after_accept result
              simp only [timedStep?, step?, Batch.add, result]
              refine ⟨_, rfl, ?_⟩
              rw [← batch]
              exact .applying _ rest whole clock client cache (by rw [silent, answers])
          | error failure =>
              obtain ⟨batch, told⟩ := Taken.after_refuse result
              simp only [timedStep?, step?, Batch.add, result]
              refine ⟨_, rfl, ?_⟩
              rw [← batch]
              refine .applying _ rest whole clock client cache ?_
              rw [told, ← List.append_assoc, ← answers]
              rfl
  | @awaiting _ around storable accepted faults records cache answers =>
      by_cases late : timeout.ceilMillis < before.client.backend.updateDelay.getD 0
      · have missed : ¬taken.Reaches timeout before.client :=
          fun reaches => Nat.not_lt.mpr reaches.inTime late
        refine ⟨_, if_pos late, ?_⟩
        exact .concluding _ (Taken.decided_abandoned missed records) cache answers
      · refine ⟨_, if_neg late, ?_⟩
        exact .concluding _ (Taken.decided_finishUpdate keyed storable accepted
          (Nat.not_lt.mp late) faults records) cache answers
  | @concluding _ around conclusion decided cache answers =>
      obtain ⟨same, client, -⟩ := around.conclude_frame conclusion
      refine ⟨_, rfl, .adopting conclusion (client ▸ decided) ?_ (same.trans answers)⟩
      rw [around.conclude_cache, cache]
  | adopting conclusion decided cache answers =>
      refine ⟨_, rfl, .resolving conclusion [] _ rfl decided cache ?_⟩
      exact answers.trans (List.append_nil _).symm
  | resolving conclusion done rest split decided cache answers =>
      cases rest with
      | nil =>
          rw [List.append_nil] at split
          exact ⟨_, rfl, .ended conclusion decided cache (split ▸ answers)⟩
      | cons request rest =>
          refine ⟨_, rfl, .resolving conclusion (done ++ [request]) rest ?_ decided cache ?_⟩
          · rw [split, List.append_assoc]
            rfl
          · rw [List.map_append, ← List.append_assoc, ← answers]
            rfl
  | ended conclusion decided cache answers => cases working

theorem Underway.workFor (batchSize : Nat) (isShutDown : Bool) (honest : before.client.Honest)
    (keyed : taken.Keyed before.client.backend.records) (fuel : Nat)
    {state : PoolStore × Surroundings} (underway : Underway taken timeout now start before state)
    (enough : state.1.workAhead ≤ fuel) :
    let last := PoolStore.workFor timeout batchSize isShutDown fuel state
    Underway taken timeout now start before last ∧ last.1.phase.isWorking = false := by
  induction fuel generalizing state with
  | zero =>
      refine ⟨underway, ?_⟩
      rw [← Bool.not_eq_true]
      intro working
      obtain ⟨next, stepped, -⟩ := underway.step batchSize isShutDown honest keyed working
      have less := timedStep?_workAhead stepped
      omega
  | succ fuel ih =>
      unfold PoolStore.workFor
      cases working : state.1.phase.isWorking with
      | false => exact ⟨underway, working⟩
      | true =>
          obtain ⟨next, stepped, onward⟩ :=
            underway.step batchSize isShutDown honest keyed working
          have less := timedStep?_workAhead stepped
          simp only [if_true, stepped]
          exact ih onward (by omega)

/-- The state before a batch is the candidate when all mutations of the batch fail. -/
theorem candidate_of_pending_eq_nil (none : taken.batch.pending = []) :
    taken.batch.candidate = taken.before.state := by
  have accepted : taken.before.state.accepted taken.requests = [] := List.map_eq_nil_iff.mp none
  have same := (PoolState.serve_accepted taken.before.state taken.requests).1
  rw [accepted] at same
  exact same.symm

/-- A batch is committed as a whole or not at all, also one whose mutations all fail. There are
three ways in which it can end, and what holds before it decides which one. The record and the
snapshot become the candidate at the same version; or the snapshot becomes what the record holds, or
the state before the batch without its version, and the records are as they were. -/
theorem batch_all_or_nothing (timeout : Duration) (batchSize : Nat) (isShutDown : Bool)
    (requests : List Request) (store : PoolStore) (around : Surroundings) (now : Timestamp)
    (clock : around.clock = some now) (honest : around.client.Honest)
    (keyed : Taken.Keyed ⟨store.snapshot, requests⟩ around.client.backend.records) :
    let taken : Taken := ⟨store.snapshot, requests⟩
    ∃ outcome snapshot after,
      store.processBatch timeout batchSize isShutDown requests around =
        ({ store with snapshot, phase := .taking }, after) ∧
      (∀ other, taken.Due timeout around.client other ↔ other = outcome) ∧
      taken.Leaves now around snapshot after outcome ∧
      (taken.batch.pending = [] → taken.batch.candidate = store.snapshot.state) := by
  intro taken
  have begun := underway_begin timeout store requests clock
  obtain ⟨ended, rested⟩ :=
    begun.workFor batchSize isShutDown honest keyed _ (Nat.le_refl _)
  change Underway taken timeout now store around
    (store.processBatch timeout batchSize isShutDown requests around) at ended
  change (store.processBatch timeout batchSize isShutDown requests around).1.phase.isWorking =
    false at rested
  generalize store.processBatch timeout batchSize isShutDown requests around = last at *
  cases ended with
  | ended conclusion decided cache answers =>
      refine ⟨conclusion.outcome, conclusion.snapshot, _, rfl, ?_,
        decided.leaves cache answers, candidate_of_pending_eq_nil⟩
      intro outcome
      refine ⟨fun due => due.unique decided.due, ?_⟩
      rintro rfl
      exact decided.due
  | applying | awaiting | concluding | adopting | resolving => cases rested

/-- A batch without a successful mutation is committed like any other. -/
theorem batch_all_or_nothing_failing :
    let request : Request := ⟨0, .fail (.failed "out of order")⟩
    ∃ after stored,
      (PoolStore.start Desk.sampleStart).processBatch (.ofMillis 5000) 8 false [request]
          Desk.sampleAround =
        ({ PoolStore.start Desk.sampleStart with
            snapshot := { Desk.sampleStart with version := Version.first.next }
            phase := .taking },
          after) ∧
      after.client.backend.records.find? Desk.samplePool.text = some stored ∧
      stored.version = Version.first.next ∧
      (Storage.poolFormat.decode (.ofChunks [stored.value])).1 = .ok (.empty Desk.samplePool) ∧
      after.cache = Desk.sampleAround.cache ∧
      after.answers = [(0, .failed (.failed "out of order"))] := by
  intro request
  have found : Taken.stored? ⟨Desk.sampleStart, [request]⟩ Desk.sampleClient.backend.records =
      some (Desk.sampleStart.record .epoch) :=
    (Table.find?_insert _ _ _ _).trans (if_pos rfl)
  have keyed : Taken.Keyed ⟨Desk.sampleStart, [request]⟩ Desk.sampleClient.backend.records := by
    intro stored held
    rw [found] at held
    cases held
    rfl
  obtain ⟨outcome, snapshot, after, processed, due, leaves, -⟩ :=
    batch_all_or_nothing (.ofMillis 5000) 8 false [request] (.start Desk.sampleStart)
      Desk.sampleAround .epoch rfl rfl keyed
  have committed : CommitOutcome.committed = outcome := by
    refine (due .committed).mp ⟨⟨?_, rfl, rfl, Nat.zero_le _⟩, _, found, rfl⟩
    decide +kernel
  subst committed
  obtain ⟨rfl, ⟨stored, written, holds, -⟩, -, cache, answers⟩ := leaves
  exact ⟨after, stored, processed, written, holds.version, holds.decoded, cache, answers⟩

end

end PoolStore

end ClaimStore
