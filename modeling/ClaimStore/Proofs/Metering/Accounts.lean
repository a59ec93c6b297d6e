import ClaimStore.Proofs.Metering.Workers

/-!
The accounts of a registry.

Over all pools, what is counted on one side is counted on the other one or can be told from the phases
of the workers. What an act does to the stores, the caches, the meters and the answers is said once;
that the accounts stay in balance follows for each way of it.
-/
namespace ClaimStore

namespace Table

variable {κ α : Type} [DecidableEq κ] {table : Table κ α} {key : κ} {old : α}

theorem total_replace (found : table.find? key = some old) (value : α) (weight : α → Nat) :
    (table.insert key value).total weight + weight old = table.total weight + weight value := by
  have inserted := table.total_insert key value weight
  rwa [found, Option.map_some, Option.getD_some] at inserted

theorem total_new (absent : table.find? key = none) (value : α) (weight : α → Nat) :
    (table.insert key value).total weight = table.total weight + weight value := by
  have inserted := table.total_insert key value weight
  rwa [absent, Option.map_none, Option.getD_none, Nat.add_zero] at inserted

theorem mem_values_of_find? (found : table.find? key = some old) : old ∈ table.values := by
  obtain ⟨entries⟩ := table
  simp only [find?, values] at found ⊢
  induction entries with
  | nil => cases found
  | cons entry rest ih =>
      rw [findIn] at found
      split at found
      · cases found
        exact List.mem_cons_self
      · exact List.mem_cons_of_mem _ (ih found)

end Table

theorem PoolCaches.total_change (caches : PoolCaches) (key : PoolKey)
    (step : TokenCache → TokenCache) :
    (caches.change key step).total TokenCache.invalidations + (caches.slice key).invalidations =
      caches.total TokenCache.invalidations + (step (caches.slice key)).invalidations := by
  have inserted := Table.total_insert caches key (step (caches.slice key)) TokenCache.invalidations
  have own : ((caches.find? key).map TokenCache.invalidations).getD 0 =
      (caches.slice key).invalidations := by
    unfold slice
    cases caches.find? key <;> rfl
  rwa [own] at inserted

theorem TokenCache.invalidations_drops (cache : TokenCache) (act : CacheAct) :
    (cache.act act).invalidations = cache.invalidations + act.drops := by
  cases act <;> rfl

namespace Registry

/-- The stores, the caches and what has been counted and answered. How many stores there are is
measured and not counted. -/
structure SameAccounts (before after : Registry) : Prop where
  stores : after.stores = before.stores
  caches : after.caches = before.caches
  meters : ∃ loadedStores, after.meters = { before.meters with loadedStores }
  answers : after.answers = before.answers

theorem SameAccounts.refl (registry : Registry) : SameAccounts registry registry :=
  ⟨rfl, rfl, ⟨_, rfl⟩, rfl⟩

/-- The store of one pool is replaced or added. -/
def withStore (registry : Registry) (key : PoolKey) (store : PoolStore) : Registry :=
  { registry with stores := registry.stores.insert key store }

/-- The accounts of a registry, where others have emptied caches so many times. -/
structure Balanced (registry : Registry) (dropped : Nat) : Prop where
  sampled : registry.meters.batches = registry.meters.batchSizes.length
  timed : registry.meters.timedCommits = registry.meters.commits
  committed : registry.meters.batches =
    registry.meters.commits + registry.stores.total fun store => store.phase.uncommitted
  /-- Who dies has not served all requests of the batch. -/
  served : (∀ key store, registry.find? key = some store → store.phase ≠ .died) →
    registry.meters.batchSizes.sum = countAnswers Answer.isServed registry.answers +
      registry.stores.total fun store => store.inHand.length
  failed : registry.meters.mutationFailures = countAnswers Answer.isFailed registry.answers
  rolledBack : registry.meters.invalidations = registry.meters.rollbacks
  emptied : registry.caches.total TokenCache.invalidations =
    registry.meters.invalidations + dropped
  outcome : ∀ key store, registry.find? key = some store → store.phase.TellsOutcome

variable {registry after : Registry} {client : Client} {key : PoolKey} {store next : PoolStore}
variable {dropped : Nat}

theorem balanced_create {options : Options} {now : Timestamp}
    (made : create options now = .ok registry) : registry.Balanced 0 := by
  unfold create at made
  split at made <;> cases made
  refine ⟨rfl, rfl, rfl, fun _ => rfl, rfl, rfl, rfl, ?_⟩
  intro key store found
  cases found

theorem Balanced.same (balanced : registry.Balanced dropped)
    (same : registry.SameAccounts after) : after.Balanced dropped := by
  obtain ⟨sampled, timed, committed, served, failed, rolledBack, emptied, outcome⟩ := balanced
  obtain ⟨stores, caches, ⟨loadedStores, meters⟩, answers⟩ := same
  have find : after.find? = registry.find? := by
    funext key
    rw [find?, stores]
    rfl
  refine ⟨?_, ?_, ?_, ?_, ?_, ?_, ?_, ?_⟩ <;> simp only [stores, caches, meters, answers, find]
  · exact sampled
  · exact timed
  · exact committed
  · exact served
  · exact failed
  · exact rolledBack
  · exact emptied
  · exact outcome

theorem stores_install {snapshot : Snapshot} (installed : registry.install snapshot = .ok after) :
    after.stores = registry.stores.insert snapshot.key (.start snapshot) := by
  unfold Registry.install at installed
  split at installed <;> cases installed
  rfl

theorem total_install {snapshot : Snapshot} (absent : registry.find? snapshot.key = none)
    (installed : registry.install snapshot = .ok after) (weight : PoolStore → Nat)
    (light : weight (.start snapshot) = 0) :
    after.stores.total weight = registry.stores.total weight := by
  rw [stores_install installed, Table.total_new absent, light, Nat.add_zero]

theorem total_requeue (found : registry.find? key = some store) (weight : PoolStore → Nat)
    (same : weight next = weight store) :
    (registry.withStore key next).stores.total weight = registry.stores.total weight := by
  have replaced := Table.total_replace found next weight
  rw [same] at replaced
  exact Nat.add_right_cancel replaced

/-- A store comes that has done nothing yet. -/
theorem Balanced.install {snapshot : Snapshot} (balanced : registry.Balanced dropped)
    (absent : registry.find? snapshot.key = none)
    (installed : registry.install snapshot = .ok after) : after.Balanced dropped := by
  have moved := install_moves installed
  have ensured := PoolCaches.total_change registry.caches snapshot.key id
  have fresh := total_install absent installed
  unfold Registry.install at installed
  split at installed <;> cases installed
  refine ⟨balanced.sampled, balanced.timed, ?_, ?_, balanced.failed, balanced.rolledBack, ?_, ?_⟩
  · exact balanced.committed.trans (congrArg _ (fresh _ rfl).symm)
  · intro alive
    refine (balanced.served fun place other there => ?_).trans (congrArg _ (fresh _ rfl).symm)
    refine alive place other ((moved.other ?_).trans there)
    rintro rfl
    cases absent.symm.trans there
  · exact (Nat.add_right_cancel ensured).trans balanced.emptied
  · exact moved.every _ balanced.outcome trivial

/-- Only the queue of a store and its trigger have changed. -/
theorem Balanced.requeue (balanced : registry.Balanced dropped)
    (found : registry.find? key = some store) (phase : next.phase = store.phase) :
    (registry.withStore key next).Balanced dropped := by
  have inHand : next.inHand = store.inHand := by simp only [PoolStore.inHand, phase]
  have alike : ∀ weight : PoolStore → Nat, weight next = weight store →
      (registry.withStore key next).stores.total weight = registry.stores.total weight :=
    total_requeue found
  have moved := registry.moves_insert key next
  refine ⟨balanced.sampled, balanced.timed, ?_, ?_, balanced.failed, balanced.rolledBack,
    balanced.emptied, ?_⟩
  · exact balanced.committed.trans (congrArg _ (alike _ (by rw [phase])).symm)
  · intro alive
    refine (balanced.served fun place other there => ?_).trans
      (congrArg _ (alike _ (by rw [inHand])).symm)
    by_cases here : place = key
    · subst here
      cases found.symm.trans there
      exact phase ▸ alive place next moved.same
    · exact alive place other ((moved.other here).trans there)
  · exact moved.every _ balanced.outcome (phase ▸ balanced.outcome key store found)

theorem Balanced.reject (balanced : registry.Balanced dropped) (request : Nat) :
    (registry.answer request .shutDown).Balanced dropped := by
  have silent : ∀ among, among .shutDown = false →
      countAnswers among (registry.answers ++ [(request, .shutDown)]) =
        countAnswers among registry.answers := by
    intro among untold
    rw [countAnswers_append, countAnswers_single, untold]
    rfl
  obtain ⟨sampled, timed, committed, served, failed, rolledBack, emptied, outcome⟩ := balanced
  refine ⟨sampled, timed, committed, fun alive => ?_, ?_, rolledBack, emptied, outcome⟩
  · exact (served alive).trans (congrArg (· + _) (silent _ rfl).symm)
  · exact failed.trans (silent _ rfl).symm

/-- What a worker adds to the accounts of all pools is what it adds to its own. -/
theorem Balanced.work {around : Surroundings} (balanced : registry.Balanced dropped)
    (found : registry.find? key = some store)
    (tally : store.Tally next (registry.surroundings client key) around) :
    (registry.withWorker key next around).Balanced dropped := by
  have replaced := Table.total_replace found next
  have changed := PoolCaches.total_change registry.caches key fun _ => around.cache
  have moved : ∀ place, (registry.withWorker key next around).find? place =
      if place = key then some next else registry.find? place :=
    fun place => registry.stores.find?_insert key place next
  obtain ⟨sampled, timed, committed, served, failed, rolledBack, emptied, outcome⟩ := balanced
  constructor
  · have step := tally.sampled
    simp only [withWorker, surroundings] at step ⊢
    omega
  · have step := tally.timed
    simp only [withWorker, surroundings] at step ⊢
    omega
  · have step := tally.committed
    have weighed := replaced fun store => store.phase.uncommitted
    simp only [withWorker, surroundings] at step ⊢
    omega
  · intro alive
    have lives : next.phase ≠ .died := alive key next (by rw [moved, if_pos rfl])
    have step := tally.served lives
    have weighed := replaced fun store => store.inHand.length
    have before := served fun place other there => by
      by_cases here : place = key
      · subst here
        rw [found] at there
        cases there
        exact tally.alive
      · exact alive place other (by rw [moved, if_neg here, there])
    simp only [withWorker, surroundings] at step ⊢
    omega
  · have step := tally.failed
    simp only [withWorker, surroundings] at step ⊢
    omega
  · have step := tally.rolledBack
    simp only [withWorker, surroundings] at step ⊢
    omega
  · have step := tally.emptied
    simp only [withWorker, surroundings] at step ⊢
    omega
  · intro place other there
    rw [moved] at there
    split at there
    · cases there
      exact tally.outcome
    · exact outcome place other there

theorem Balanced.cache (balanced : registry.Balanced dropped) (key : PoolKey) (act : CacheAct) :
    Balanced { registry with caches := registry.caches.change key fun cache => cache.act act }
      (dropped + act.drops) := by
  obtain ⟨sampled, timed, committed, served, failed, rolledBack, emptied, outcome⟩ := balanced
  refine ⟨sampled, timed, committed, served, failed, rolledBack, ?_, outcome⟩
  have changed := PoolCaches.total_change registry.caches key fun cache => cache.act act
  rw [TokenCache.invalidations_drops] at changed
  simp only
  omega

/-- Every update that the record store has been asked for has been counted by the client, has been
given up, or is under way. -/
structure Paid (registry : Registry) (client : Client) (timeouts : Nat) : Prop where
  direct : client.Direct
  settled : client.meters.update.total + timeouts +
    (registry.stores.total fun store => store.phase.inFlight) = client.backend.updateCalls

variable {later : Client} {timeouts : Nat}

theorem Paid.same (paid : registry.Paid client timeouts)
    (inFlight : (after.stores.total fun store => store.phase.inFlight) =
      registry.stores.total fun store => store.phase.inFlight)
    (untouched : client.Untouched later) : after.Paid later timeouts := by
  refine ⟨untouched.direct paid.direct, ?_⟩
  rw [inFlight, untouched.counted, untouched.called]
  exact paid.settled

theorem Paid.work {around : Surroundings} {givenUp : Nat} (paid : registry.Paid client timeouts)
    (found : registry.find? key = some store)
    (dues : store.Dues next client around.client givenUp) :
    (registry.withWorker key next around).Paid around.client (timeouts + givenUp) := by
  refine ⟨dues.direct, ?_⟩
  have before := paid.settled
  have step := dues.settled
  have weighed := Table.total_replace found next fun store => store.phase.inFlight
  simp only [withWorker]
  omega

end Registry

end ClaimStore
