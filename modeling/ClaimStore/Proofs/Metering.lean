import ClaimStore.Proofs.Metering.Moves

/-!
The meters account for every request.

Batches, commits, failed mutations, invalidations and updates are counted in different places, some
before and some after what they count, and an update that is given up is not counted by the client at
all. When no batch is in progress, the counts still agree with each other, with the answers that were
given, with the caches and with the record store.
-/
namespace ClaimStore

section Lookups

variable {κ α : Type} [DecidableEq κ]

theorem lookup_eq_some_iff {entries : List (κ × α)} {key : κ} {value : α}
    (distinct : (entries.map Prod.fst).Nodup) :
    entries.lookup key = some value ↔ (key, value) ∈ entries := by
  induction entries with
  | nil => exact ⟨nofun, nofun⟩
  | cons entry rest ih =>
      obtain ⟨other, held⟩ := entry
      rw [List.map_cons, List.nodup_cons] at distinct
      obtain ⟨absent, distinct⟩ := distinct
      by_cases here : key = other
      · subst here
        have missing : (key, value) ∉ rest := fun member =>
          absent (List.mem_map.mpr ⟨(key, value), member, rfl⟩)
        simp [missing, eq_comm]
      · have apart : (key == other) = false := beq_false_of_ne here
        simp [List.lookup_cons, apart, here, ih distinct]

/-- Whoever looks up all keys comes upon each value once. -/
theorem countP_lookup {entries : List (Nat × α)} {bound : Nat}
    (distinct : (entries.map Prod.fst).Nodup)
    (early : ∀ key ∈ entries.map Prod.fst, key < bound) (among : α → Bool) :
    ((List.range bound).countP fun key => (entries.lookup key).any among) =
      entries.countP fun entry => among entry.2 := by
  have picked : ((entries.filter fun entry => among entry.2).map Prod.fst).Nodup :=
    (List.filter_sublist.map Prod.fst).nodup distinct
  rw [List.countP_eq_length_filter, List.countP_eq_length_filter, ← List.length_map Prod.fst]
  refine List.Perm.length_eq
    ((List.perm_ext_iff_of_nodup (List.nodup_range.filter _) picked).mpr fun key => ?_)
  simp only [List.mem_filter, List.mem_range, Option.any_eq_true, lookup_eq_some_iff distinct,
    List.mem_map]
  constructor
  · rintro ⟨-, value, member, told⟩
    exact ⟨(key, value), ⟨member, told⟩, rfl⟩
  · rintro ⟨⟨_, value⟩, ⟨member, told⟩, rfl⟩
    exact ⟨early _ (List.mem_map_of_mem member), value, member, told⟩

end Lookups

namespace Audit

variable {audit after : Audit}

theorem Move.balanced (move : Move audit after) (balanced : audit.registry.Balanced audit.dropped) :
    after.registry.Balanced after.dropped := by
  cases move with
  | aside same client => exact balanced.same same
  | install absent installed client => exact balanced.install absent installed
  | @requeue reception key store next found phase registry client =>
      show reception.registry.Balanced audit.dropped
      rw [registry]
      exact balanced.requeue found phase
  | @reject reception request registry client =>
      show reception.registry.Balanced audit.dropped
      rw [registry]
      exact balanced.reject request
  | @work reception key store next around givenUp found tally dues registry client =>
      show reception.registry.Balanced audit.dropped
      rw [registry]
      exact balanced.work found (tally (balanced.outcome key store found))
  | cache key act => exact balanced.cache key act

theorem Move.paid (move : Move audit after)
    (paid : audit.registry.Paid audit.client audit.timeouts) :
    after.registry.Paid after.client after.timeouts := by
  cases move with
  | @aside reception same client =>
      have stores : reception.registry.stores = audit.registry.stores := same.stores
      refine paid.same ?_ client
      show (reception.registry.stores.total _) = _
      rw [stores]
  | @install reception snapshot absent installed client =>
      show reception.registry.Paid reception.client audit.timeouts
      rw [client]
      exact paid.same (Registry.total_install absent installed _ rfl) (.refl _)
  | @requeue reception key store next found phase registry client =>
      show reception.registry.Paid reception.client audit.timeouts
      rw [client, registry]
      exact paid.same (Registry.total_requeue found _ (by rw [phase])) (.refl _)
  | @reject reception request registry client =>
      show reception.registry.Paid reception.client audit.timeouts
      rw [client, registry]
      exact paid.same rfl (.refl _)
  | @work reception key store next around givenUp found tally dues registry client =>
      show reception.registry.Paid reception.client (audit.timeouts + givenUp)
      rw [client, registry]
      exact paid.work found (dues paid.direct)
  | cache key act => exact paid.same rfl (.refl _)

/-- What holds at any time. -/
structure Sound (audit : Audit) : Prop where
  reception : audit.reception.Sound
  distinct : audit.reception.Distinct
  balanced : audit.registry.Balanced audit.dropped
  paid : audit.registry.Paid audit.client audit.timeouts

theorem sound_start {options : Options} {now : Timestamp} {registry : Registry} {client : Client}
    (made : Registry.create options now = .ok registry) (direct : client.Direct)
    (counted : client.meters.update.total = client.backend.updateCalls) :
    (start registry client).Sound := by
  refine ⟨Reception.sound_start made client, Reception.distinct_start made client,
    Registry.balanced_create made, direct, ?_⟩
  unfold Registry.create at made
  split at made <;> cases made
  exact counted

theorem Sound.act (sound : audit.Sound) (act : AuditAct)
    (untouched : ∀ client clock, act = .reception (.others client clock) →
      audit.client.Untouched client) : (audit.act act).Sound := by
  have move := move_act sound.reception act untouched
  have balanced := move.balanced sound.balanced
  have paid := move.paid sound.paid
  obtain ⟨⟨orderly, stocked⟩, distinct, -, -⟩ := sound
  cases act with
  | reception act =>
      exact ⟨⟨orderly.act act, stocked.act orderly act⟩, distinct.act ⟨orderly, stocked⟩ act,
        balanced, paid⟩
  | cache | finishShutdown =>
      obtain ⟨once, early, kept, apart⟩ := distinct
      exact ⟨⟨orderly.frame rfl rfl rfl id, stocked.frame rfl rfl rfl⟩,
        ⟨once, early, kept, apart⟩, balanced, paid⟩

theorem Sound.run (sound : audit.Sound) {acts : List AuditAct} (sole : Sole acts audit) :
    (audit.run acts).Sound := by
  induction acts generalizing audit with
  | nil => exact sound
  | cons first rest ih => exact ih (sound.act first sole.1) sole.2

/-- No worker is in the middle of a batch. -/
def AtRest (audit : Audit) : Prop :=
  ∀ store ∈ audit.registry.stores.values, store.phase.isBetween = true

instance (audit : Audit) : Decidable audit.AtRest := List.decidableBAll _ _

/-- What the meters of a registry and of its client say of each other, of the requests, of the caches
and of the record store. -/
structure Reconciled (audit : Audit) : Prop where
  batches : audit.registry.meters.batches =
    audit.registry.meters.committed + audit.registry.meters.conflicts +
      audit.registry.meters.storeFailures
  sizes : audit.registry.meters.batchSizes.length = audit.registry.meters.batches
  durations : audit.registry.meters.timedCommits = audit.registry.meters.batches
  served : audit.registry.meters.batchSizes.sum = audit.count Answer.isServed
  failed : audit.registry.meters.mutationFailures = audit.count Answer.isFailed
  rolledBack : audit.registry.meters.invalidations =
    audit.registry.meters.conflicts + audit.registry.meters.storeFailures
  /-- Unless somebody else empties a cache, the caches have been emptied as often as is counted. -/
  emptied : audit.registry.caches.total TokenCache.invalidations =
    audit.registry.meters.invalidations + audit.dropped
  updates : audit.client.meters.update.total + audit.timeouts = audit.client.backend.updateCalls

theorem Sound.count (sound : audit.Sound) (among : Answer → Bool) :
    audit.count among = countAnswers among audit.registry.answers :=
  countP_lookup sound.distinct.once sound.distinct.early among

theorem Sound.reconciled (sound : audit.Sound) (rests : audit.AtRest) : audit.Reconciled := by
  have owes := fun store (there : store ∈ audit.registry.stores.values) =>
    PoolStore.owes_nothing (rests store there)
  have uncommitted : (audit.registry.stores.total fun store => store.phase.uncommitted) = 0 :=
    Table.total_eq_zero fun store there => (owes store there).1
  have inHand : (audit.registry.stores.total fun store => store.inHand.length) = 0 :=
    Table.total_eq_zero fun store there => (owes store there).2.1
  have inFlight : (audit.registry.stores.total fun store => store.phase.inFlight) = 0 :=
    Table.total_eq_zero fun store there => (owes store there).2.2.1
  have alive : ∀ key store, audit.registry.find? key = some store → store.phase ≠ .died :=
    fun key store found => (owes store (Table.mem_values_of_find? found)).2.2.2
  obtain ⟨sampled, timed, committed, served, failed, rolledBack, emptied, -⟩ := sound.balanced
  have served := served alive
  rw [uncommitted, Nat.add_zero] at committed
  rw [inHand, Nat.add_zero, ← sound.count] at served
  rw [← sound.count] at failed
  have settled := sound.paid.settled
  rw [inFlight, Nat.add_zero] at settled
  exact ⟨committed, sampled.symm, timed.trans committed.symm, served, failed, rolledBack, emptied,
    settled⟩

/-- For a registry with any number of pools, whatever its callers and workers do, whatever faults the
record store has, and whenever there is a shutdown: if nobody else updates records, then as soon as no
batch is in progress every batch has been counted with its size, timed and committed or rolled back;
the sizes add up to the requests that have been answered otherwise than by a shutdown; every failed
mutation and every rollback has been counted, and the caches have been emptied as often, unless others
have done so; and every update that the record store has been asked for has been counted by the client
or given up. A batch whose worker has died is in progress for good. -/
theorem metrics_account_for_every_request {options : Options} {now : Timestamp}
    {registry : Registry} {client : Client} (made : Registry.create options now = .ok registry)
    (direct : client.Direct) (counted : client.meters.update.total = client.backend.updateCalls)
    {acts : List AuditAct} (sole : Sole acts (start registry client))
    (rests : ((start registry client).run acts).AtRest) :
    ((start registry client).run acts).Reconciled :=
  ((sound_start made direct counted).run sole).reconciled rests

/-- Nobody uses the record store but through the registry. -/
theorem sole_of_alone {acts : List AuditAct}
    (alone : ∀ client clock, .reception (.others client clock) ∉ acts) (audit : Audit) :
    Sole acts audit := by
  induction acts generalizing audit with
  | nil => trivial
  | cons first rest ih =>
      refine ⟨fun client clock same => ?_, ih (fun client clock member => ?_) _⟩
      · exact absurd (same ▸ List.mem_cons_self) (alone client clock)
      · exact alone client clock (List.mem_cons_of_mem _ member)

def otherPool : PoolKey := ⟨"h", "t", "i", "n", "other"⟩

/-- The next update will fail. -/
def sampleClient : Client :=
  { Client.empty with backend := { Backend.empty with faults := { failedUpdates := 1 } } }

def sampleVisitor : Client := (sampleClient.create [⟨"unrelated", [], .first, .epoch⟩]).2

def sampleWork (key : PoolKey) (count : Nat) : List ReceptionAct :=
  List.replicate count (.work key)

def sampleLoad (index : Nat) (key : PoolKey) : List ReceptionAct :=
  [.ask key, .enter index, .load index .shortest, .load index .shortest, .install index,
    .settle index]

/-- One update fails while another one is given up. The first worker then meets a conflict, since it
no longer knows which version is stored, and commits its third batch. The last request finds its queue
closed. -/
def sampleCalls : List ReceptionAct :=
  let key := Desk.samplePool
  let deposit (amount : UInt64) : List ReceptionAct :=
    [ReceptionAct.push 0 (.ofTransition (.deposit amount)), .notify 0]
  let commit : List ReceptionAct := sampleWork key 4 ++ .finishUpdate key :: sampleWork key 5
  sampleLoad 0 key ++ sampleLoad 1 otherPool ++
    [ReceptionAct.push 0 (.fail (.failed "no")), .push 1 .keep, .notify 1] ++ deposit 5 ++
    sampleWork otherPool 4 ++ sampleWork key 5 ++ [ReceptionAct.finishUpdate key,
    .abandonUpdate otherPool] ++ sampleWork key 5 ++ sampleWork otherPool 5 ++
    deposit 3 ++ commit ++ deposit 2 ++ commit ++
    [ReceptionAct.shutDown, .work key, .push 0 .keep, .work key]

/-- Somebody creates a record first, and empties a cache at last. -/
def sampleActs : List AuditAct :=
  .reception (.others sampleVisitor (some .epoch)) ::
    (sampleCalls.map .reception ++ [.cache otherPool .invalidate, .finishShutdown])

theorem metrics_account_for_every_request_mixed :
    Registry.create Fleet.sampleOptions .epoch = .ok Fleet.sampleRegistry ∧ sampleClient.Direct ∧
      Sole sampleActs (start Fleet.sampleRegistry sampleClient) ∧
      let audit := (start Fleet.sampleRegistry sampleClient).run sampleActs
      audit.AtRest ∧ audit.registry.meters.batchSizes = [1, 2, 1, 1] ∧
        audit.registry.meters.committed = 1 ∧ audit.registry.meters.conflicts = 1 ∧
        audit.timeouts = 1 ∧ audit.Reconciled := by
  have direct : sampleClient.Direct := ⟨rfl, rfl⟩
  have sole : Sole sampleActs (start Fleet.sampleRegistry sampleClient) := by
    refine ⟨fun client clock same => ?_, sole_of_alone (fun client clock => ?_) _⟩
    · cases same
      exact sampleClient.create_untouched _
    · simp [sampleCalls, sampleLoad, sampleWork]
  have facts : let audit := (start Fleet.sampleRegistry sampleClient).run sampleActs
      audit.AtRest ∧ audit.registry.meters.batchSizes = [1, 2, 1, 1] ∧
        audit.registry.meters.committed = 1 ∧ audit.registry.meters.conflicts = 1 ∧
        audit.timeouts = 1 := by
    decide +kernel
  obtain ⟨rests, sizes, committed, conflicts, timeouts⟩ := facts
  exact ⟨Fleet.sampleRegistry_created, direct, sole, rests, sizes, committed, conflicts, timeouts,
    metrics_account_for_every_request Fleet.sampleRegistry_created direct rfl sole rests⟩

end Audit

end ClaimStore
