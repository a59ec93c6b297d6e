import ClaimStore.Proofs.Desk
import ClaimStore.Proofs.Fleet.Runs

/-!
No update is lost, and none is made twice.

However the workers of several registries get in each other's way, the record of a pool goes from one
batch to the next, and a batch that is not part of that chain has told its requests so.
-/
namespace ClaimStore

namespace Fleet

variable {fleet : Fleet} {origin : Record → Prop} {index place id : Nat} {member : Member}
variable {taken : Taken}

/-- The requests whose mutations the stored value reflects. -/
def reflected (fleet : Fleet) : List Nat := fleet.applied.map Request.id

theorem batch?_eq_some {writer : Nat × Nat} (known : fleet.batch? writer = some taken) :
    ∃ member, fleet.members[writer.1]? = some member ∧
      member.log.batches[writer.2]? = some taken := by
  exact Option.bind_eq_some_iff.mp known

theorem mem_applied {request : Request} :
    request ∈ fleet.applied ↔ ∃ writer ∈ fleet.ledger.writers, ∃ taken,
      fleet.batch? writer = some taken ∧
        request ∈ taken.before.state.accepted taken.requests := by
  unfold applied Ledger.applied
  rw [List.mem_flatMap]
  constructor
  · rintro ⟨writer, written, held⟩
    cases known : fleet.batch? writer with
    | none => simp [known] at held
    | some taken =>
        rw [known] at held
        exact ⟨writer, written, taken, known, held⟩
  · rintro ⟨writer, written, taken, known, held⟩
    refine ⟨writer, written, ?_⟩
    rw [known]
    exact held

theorem mem_reflected : id ∈ fleet.reflected ↔ ∃ writer ∈ fleet.ledger.writers, ∃ taken,
    fleet.batch? writer = some taken ∧ id ∈ taken.batch.pending := by
  unfold reflected
  rw [List.mem_map]
  constructor
  · rintro ⟨request, applied, rfl⟩
    obtain ⟨writer, written, taken, known, accepted⟩ := mem_applied.mp applied
    exact ⟨writer, written, taken, known, List.mem_map_of_mem accepted⟩
  · rintro ⟨writer, written, taken, known, pending⟩
    obtain ⟨request, accepted, rfl⟩ := List.mem_map.mp pending
    exact ⟨request, mem_applied.mpr ⟨writer, written, taken, known, accepted⟩, rfl⟩

theorem Sound.fits (sound : fleet.Sound origin) (found : fleet.members[index]? = some member)
    (held : member.log ≠ .empty) :
    ∃ store, member.registry.find? fleet.key = some store ∧
      member.log.Fits (fleet.verdict index) store member.registry.answers := by
  have watches := (sound.members index member found).watches
  cases present : member.registry.find? fleet.key with
  | none =>
      rw [present] at watches
      exact absurd watches held
  | some store =>
      rw [present] at watches
      exact ⟨store, rfl, watches.2.1⟩

theorem ne_empty_of_batch {log : Log} (found : log.batches[place]? = some taken) :
    log ≠ .empty := by
  rintro rfl
  cases found

/-- A request is in one batch at most, of all registries. -/
theorem Sound.batch_unique (sound : fleet.Sound origin) {left right : Nat × Nat}
    {first second : Taken} (here : fleet.batch? left = some first)
    (there : fleet.batch? right = some second) (held : id ∈ first.ids) (shared : id ∈ second.ids) :
    left = right := by
  obtain ⟨one, oneFound, oneBatch⟩ := batch?_eq_some here
  obtain ⟨other, otherFound, otherBatch⟩ := batch?_eq_some there
  obtain ⟨_, -, oneFits⟩ := sound.fits oneFound (ne_empty_of_batch oneBatch)
  obtain ⟨_, -, otherFits⟩ := sound.fits otherFound (ne_empty_of_batch otherBatch)
  by_cases same : left.1 = right.1
  · rw [same, otherFound] at oneFound
    cases oneFound
    exact Prod.ext same (oneFits.batch_unique oneBatch otherBatch held shared)
  · have owned := oneFits.taken_ids (List.mem_of_getElem? oneBatch) held
    have also := otherFits.taken_ids (List.mem_of_getElem? otherBatch) shared
    exact absurd also (sound.apart _ _ one other same oneFound otherFound id owned)

theorem Sound.reflected_nodup (sound : fleet.Sound origin) : fleet.reflected.Nodup := by
  unfold reflected applied Ledger.applied
  rw [List.map_flatMap, List.nodup_flatMap]
  constructor
  · intro writer written
    cases known : fleet.batch? writer with
    | none => exact List.nodup_nil
    | some taken =>
        obtain ⟨member, found, batch⟩ := batch?_eq_some known
        obtain ⟨_, -, fits⟩ := sound.fits found (ne_empty_of_batch batch)
        exact fits.pending_nodup (List.mem_of_getElem? batch)
  · apply sound.ledger.once.imp
    intro left right apart id here there
    cases first : fleet.batch? left with
    | none => simp [first] at here
    | some taken =>
        cases second : fleet.batch? right with
        | none => simp [second] at there
        | some other =>
            simp only [first, Option.map_some, Option.getD_some] at here
            simp only [second, Option.map_some, Option.getD_some] at there
            exact apart (sound.batch_unique first second (Taken.pending_ids here)
              (Taken.pending_ids there))

theorem Sound.reflected_iff (sound : fleet.Sound origin)
    (found : fleet.members[index]? = some member) (batch : member.log.batches[place]? = some taken)
    (pending : id ∈ taken.batch.pending) :
    id ∈ fleet.reflected ↔ (index, place) ∈ fleet.ledger.writers := by
  have here : fleet.batch? (index, place) = some taken := by
    simp only [batch?, found, Option.bind_some, batch]
  rw [mem_reflected]
  constructor
  · rintro ⟨writer, written, other, known, shared⟩
    have same := sound.batch_unique known here (Taken.pending_ids shared)
      (Taken.pending_ids pending)
    exact same ▸ written
  · intro written
    exact ⟨_, written, taken, here, pending⟩

/-- However many registries share a store, and whatever fails there: every record of a pool but the
first is the one before it as the requests of one batch have changed it, no batch comes twice, and
the requests of a batch are told that they have been committed if it is in the chain, and that they
have been rolled back if it is not. -/
theorem committed_exactly_once (key : PoolKey) (client : Client) (registries : List Registry)
    (acts : List FleetAct) (honest : client.Honest)
    (created : ∀ registry ∈ registries, ∃ options now, Registry.create options now = .ok registry)
    (stored : ∀ record, client.backend.records.find? key.text = some record →
      record.key = key.text ∧ record.version.isValid = true)
    (few : (run acts (start key client registries)).ledger.writers.length < UInt32.size - 1) :
    let fleet := run acts (start key client registries)
    fleet.ledger.records.getLast? = fleet.client.backend.records.find? key.text ∧
    fleet.ledger.IsChain (Ledger.Follows key fleet.batch?) ∧
    (∀ entry ∈ fleet.ledger.tail, entry.2.isSome = true) ∧
    fleet.ledger.writers.Nodup ∧ fleet.reflected.Nodup ∧
    ∀ (index : Nat) (member : Member), fleet.members[index]? = some member →
      member.log.ids.Pairwise (· < ·) ∧
      member.log.queued = member.log.batches.flatMap Taken.requests ++
        ((member.registry.find? key).map fun store => store.queue.waiting).getD [] ∧
      ∀ (place : Nat) (taken : Taken), member.log.batches[place]? = some taken →
        (∀ id ∈ taken.batch.pending,
          (id ∈ fleet.reflected ↔ (index, place) ∈ fleet.ledger.writers) ∧
          ∀ answer, (id, answer) ∈ member.registry.answers →
            answer = .ofCommit ((index, place) ∈ fleet.ledger.writers)) ∧
        (place + 1 < member.log.batches.length ∨
            (member.registry.find? key).any (fun store => store.phase.isWorking) = false →
          taken.Told ((index, place) ∈ fleet.ledger.writers) member.registry.answers) := by
  intro fleet
  have begun : (start key client registries).Sound fun _ => True := by
    apply sound_start honest created
    intro record found
    exact ⟨(stored record found).1, (stored record found).2, trivial⟩
  have sound : fleet.Sound fun _ => True := begun.run acts (fun _ _ => trivial) few
  have own : fleet.key = key := key_run acts _
  refine ⟨own ▸ sound.ledger.last, own ▸ sound.ledger.chained, sound.linked, sound.ledger.once,
    sound.reflected_nodup, ?_⟩
  intro index member found
  have watches := (sound.members index member found).watches
  rw [own] at watches
  cases present : member.registry.find? key with
  | none =>
      rw [present] at watches
      have empty : member.log = .empty := watches
      rw [empty]
      refine ⟨List.Pairwise.nil, rfl, ?_⟩
      intro place taken batch
      cases batch
  | some store =>
      rw [present] at watches
      obtain ⟨-, fits, -⟩ := watches
      refine ⟨fits.ordered, fits.stream, ?_⟩
      intro place taken batch
      constructor
      · intro id pending
        refine ⟨sound.reflected_iff found batch pending, ?_⟩
        intro answer given
        exact fits.settled batch pending given
      · intro passed
        exact fits.told place taken batch passed

def sampleOptions : Options := ⟨.ofMillis 5000, .none, none⟩

def sampleRegistry : Registry :=
  ⟨sampleOptions, some .epoch, .empty, .empty, false, {}, []⟩

theorem sampleRegistry_created : Registry.create sampleOptions .epoch = .ok sampleRegistry := by
  have sound : sampleOptions.fault? = none := by decide +kernel
  rw [Registry.create, sound]
  rfl

/-- Two registries that use an empty store. The second one finds the record that the first one has
created. -/
def sampleLoads : List FleetAct :=
  let key := Desk.samplePool
  [.member 0 (.ask key false), .member 0 (.load key .shortest), .member 0 (.load key .shortest),
    .member 0 (.install key), .member 1 (.ask key false), .member 1 (.load key .shortest),
    .member 1 (.install key)]

/-- Both commit a deposit at once, so the second one is rolled back. -/
def sampleRace : List FleetAct :=
  let key := Desk.samplePool
  let begin (index : Nat) (amount : UInt64) : List FleetAct :=
    [FleetAct.member index (.push key (.ofTransition (.deposit amount))),
      .member index (.notify key)] ++
      List.replicate 4 (FleetAct.member index (.work key))
  let finish (index : Nat) : List FleetAct :=
    .member index (.finishUpdate key) :: List.replicate 5 (FleetAct.member index (.work key))
  sampleLoads ++ begin 0 5 ++ begin 1 7 ++ finish 0 ++ finish 1

theorem committed_exactly_once_race :
    let fleet := run sampleRace (start Desk.samplePool .empty [sampleRegistry, sampleRegistry])
    fleet.ledger.writers = [(0, 0)] ∧ fleet.reflected.Nodup ∧
      ∃ (member : Member) (taken : Taken), fleet.members[1]? = some member ∧
        member.log.batches[0]? = some taken ∧ taken.Told false member.registry.answers ∧
        ∀ id ∈ taken.batch.pending, id ∉ fleet.reflected := by
  intro fleet
  have facts : fleet.ledger.writers = [(0, 0)] ∧
      (fleet.members[1]?.any fun member => member.log.batches[0]?.isSome &&
        !(member.registry.find? Desk.samplePool).any fun store => store.phase.isWorking) = true := by
    subst fleet
    decide +kernel
  obtain ⟨writers, second⟩ := facts
  subst fleet
  have created : ∀ registry ∈ [sampleRegistry, sampleRegistry], ∃ options now,
      Registry.create options now = .ok registry := by
    intro registry member
    have same : registry = sampleRegistry := by simpa using member
    exact ⟨sampleOptions, .epoch, same ▸ sampleRegistry_created⟩
  obtain ⟨-, -, -, -, once, served⟩ := committed_exactly_once Desk.samplePool .empty
    [sampleRegistry, sampleRegistry] sampleRace rfl created (by rintro _ ⟨⟩)
    (by rw [writers]; decide)
  generalize run sampleRace _ = fleet at *
  refine ⟨writers, once, ?_⟩
  cases found : fleet.members[1]? with
  | none => simp [found] at second
  | some member =>
      rw [found, Option.any_some, Bool.and_eq_true, Bool.not_eq_true'] at second
      obtain ⟨held, rested⟩ := second
      obtain ⟨taken, batch⟩ := Option.isSome_iff_exists.mp held
      obtain ⟨-, -, told⟩ := served 1 member found
      obtain ⟨settled, passed⟩ := told 0 taken batch
      have unwritten : ((1, 0) : Nat × Nat) ∉ fleet.ledger.writers := by
        rw [writers]
        decide
      have passed := passed (.inr rested)
      rw [decide_eq_false unwritten] at passed
      refine ⟨member, taken, rfl, batch, passed, ?_⟩
      intro id pending reflected
      exact unwritten ((settled id pending).1.mp reflected)

end Fleet

end ClaimStore
