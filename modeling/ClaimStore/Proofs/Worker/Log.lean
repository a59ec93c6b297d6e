import ClaimStore.Proofs.Serving
import ClaimStore.Proofs.Worker.Steps
import Mathlib.Data.List.Nodup

/-!
The log of a worker: the requests that were queued, and the batches that were taken.

The log and the answers given so far tell how far the worker has come. Every request is in one batch
or still waits, and an answer is given to it once, when the batch is applied or resolved.
-/
namespace ClaimStore

def answersTo (ids : List Nat) (answers : List (Nat × Answer)) : List (Nat × Answer) :=
  answers.filter fun answer => answer.1 ∈ ids

theorem answersTo_append (ids : List Nat) (answers more : List (Nat × Answer)) :
    answersTo ids (answers ++ more) = answersTo ids answers ++ answersTo ids more :=
  List.filter_append _ _

theorem answersTo_eq_nil {ids : List Nat} {answers : List (Nat × Answer)}
    (apart : ∀ answer ∈ answers, answer.1 ∉ ids) : answersTo ids answers = [] := by
  rw [answersTo, List.filter_eq_nil_iff]
  intro answer member
  simpa using apart answer member

theorem answersTo_append_apart {ids : List Nat} {more : List (Nat × Answer)}
    (apart : ∀ answer ∈ more, answer.1 ∉ ids) (answers : List (Nat × Answer)) :
    answersTo ids (answers ++ more) = answersTo ids answers := by
  rw [answersTo_append, answersTo_eq_nil apart, List.append_nil]

/-- The requests that a worker has taken at once, and the snapshot before them. -/
structure Taken where
  before : Snapshot
  requests : List Request

namespace Taken

def ids (taken : Taken) : List Nat := taken.requests.map Request.id

def after (taken : Taken) (done : List Request) : Batch where
  before := taken.before
  candidate := taken.before.state.serve done
  pending := (taken.before.state.accepted done).map Request.id

def batch (taken : Taken) : Batch := taken.after taken.requests

def refusals (taken : Taken) : List (Nat × Answer) := taken.before.state.refusals taken.requests

theorem pending_ids {taken : Taken} {id : Nat} (member : id ∈ taken.batch.pending) :
    id ∈ taken.ids := by
  obtain ⟨request, accepted, rfl⟩ := List.mem_map.mp member
  exact List.mem_map_of_mem ((PoolState.accepted_sublist _ _).subset accepted)

theorem after_accept {taken : Taken} {done : List Request} {request : Request}
    {candidate : PoolState} (accepted : request.mutation (taken.after done).candidate = .ok candidate) :
    taken.after (done ++ [request]) =
        { taken.after done with candidate, pending := (taken.after done).pending ++ [request.id] } ∧
      taken.before.state.refusals (done ++ [request]) = taken.before.state.refusals done := by
  obtain ⟨next, kept, silent⟩ := PoolState.serve_of_ok accepted
  simp only [after] at next kept silent ⊢
  simp only [PoolState.serve_append, PoolState.accepted_append, PoolState.refusals_append, next,
    kept, silent, List.map_append, List.map_cons, List.map_nil, List.append_nil, and_self]

theorem after_refuse {taken : Taken} {done : List Request} {request : Request}
    {failure : MutationFailure}
    (refused : request.mutation (taken.after done).candidate = .error failure) :
    taken.after (done ++ [request]) = taken.after done ∧
      taken.before.state.refusals (done ++ [request]) =
        taken.before.state.refusals done ++ [(request.id, .failed failure)] := by
  obtain ⟨next, dropped, told⟩ := PoolState.serve_of_error refused
  simp only [after] at next dropped told ⊢
  simp only [PoolState.serve_append, PoolState.accepted_append, PoolState.refusals_append, next,
    dropped, told, List.append_nil, and_self]

/-- The answers to all requests of a batch that came to an end. -/
def Told (taken : Taken) (verdict : Bool) (answers : List (Nat × Answer)) : Prop :=
  answersTo taken.ids answers =
    taken.refusals ++ taken.batch.pending.map fun request => (request, Answer.ofCommit verdict)

theorem Told.answered {taken : Taken} {verdict : Bool} {answers : List (Nat × Answer)}
    (told : taken.Told verdict answers) {answer : Nat × Answer}
    (member : answer ∈ answersTo taken.ids answers) :
    answer ∈ taken.refusals ∨ answer.1 ∈ taken.batch.pending ∧ answer.2 = .ofCommit verdict := by
  rw [told] at member
  rcases List.mem_append.mp member with refused | resolved
  · exact .inl refused
  · obtain ⟨request, given, rfl⟩ := List.mem_map.mp resolved
    exact .inr ⟨given, rfl⟩

theorem refusals_ids {taken : Taken} {done rest : List Request}
    (split : taken.requests = done ++ rest) {answer : Nat × Answer}
    (member : answer ∈ taken.before.state.refusals done) :
    answer ∈ taken.refusals ∧ answer.1 ∈ taken.ids := by
  have refused : answer ∈ taken.refusals := by
    rw [refusals, split, PoolState.refusals_append]
    exact List.mem_append_left _ member
  refine ⟨refused, ?_⟩
  exact (PoolState.ids_perm taken.before.state taken.requests).mem_iff.mpr
    (List.mem_append_left _ (List.mem_map_of_mem refused))

end Taken

namespace Phase

def isWorking : Phase → Bool
  | .applying _ _ | .awaiting _ _ _ | .concluding _ _ | .adopting _ _ | .resolving _ _ => true
  | .idle | .taking | .stopped | .died => false

/-- Whether the commit of the batch in hand has not been concluded. -/
def isOpen : Phase → Bool
  | .applying _ _ | .awaiting _ _ _ => true
  | _ => false

/-- Whether the requests of the batch in hand whose mutations succeed have to wait. -/
def isPending : Phase → Bool
  | .applying _ _ | .awaiting _ _ _ | .concluding _ _ | .adopting _ _ => true
  | _ => false

/-- How far a worker has come with the batch in hand. -/
def Holds (taken : Taken) (verdict : Bool) (answers : List (Nat × Answer)) : Phase → Prop
  | .applying batch rest =>
      ∃ done, taken.requests = done ++ rest ∧ batch = taken.after done ∧
        answersTo taken.ids answers = taken.before.state.refusals done
  | .awaiting batch change _ =>
      batch = taken.batch ∧ (∃ now, change = taken.batch.change now) ∧
        Storage.poolFormat.isStorable taken.batch.candidate = true ∧
        answersTo taken.ids answers = taken.refusals
  | .concluding batch conclusion | .adopting batch conclusion =>
      batch = taken.batch ∧ conclusion.isCommitted = verdict ∧
        answersTo taken.ids answers = taken.refusals
  | .resolving answer pending =>
      answer = .ofCommit verdict ∧
        ∃ done, taken.batch.pending = done ++ pending ∧
          answersTo taken.ids answers = taken.refusals ++ done.map fun request => (request, answer)
  | .idle | .taking | .stopped | .died => False

variable {phase : Phase} {taken : Taken} {verdict : Bool} {answers after : List (Nat × Answer)}

theorem Holds.answered (holds : phase.Holds taken verdict answers) {answer : Nat × Answer}
    (member : answer ∈ answersTo taken.ids answers) :
    answer ∈ taken.refusals ∨
      answer.1 ∈ taken.batch.pending ∧ answer.2 = .ofCommit verdict ∧ phase.isPending = false := by
  cases phase with
  | applying batch rest =>
      obtain ⟨done, split, -, told⟩ := holds
      rw [told] at member
      exact .inl (Taken.refusals_ids split member).1
  | awaiting batch change delay =>
      obtain ⟨-, -, -, told⟩ := holds
      rw [told] at member
      exact .inl member
  | concluding batch conclusion | adopting batch conclusion =>
      obtain ⟨-, -, told⟩ := holds
      rw [told] at member
      exact .inl member
  | resolving settled pending =>
      obtain ⟨rfl, done, split, told⟩ := holds
      rw [told] at member
      rcases List.mem_append.mp member with refused | resolved
      · exact .inl refused
      · obtain ⟨request, given, rfl⟩ := List.mem_map.mp resolved
        exact .inr ⟨split ▸ List.mem_append_left _ given, rfl, rfl⟩
  | idle | taking | stopped | died => exact holds.elim

theorem Holds.same (holds : phase.Holds taken verdict answers)
    (same : answersTo taken.ids after = answersTo taken.ids answers) :
    phase.Holds taken verdict after := by
  cases phase with
  | applying batch rest =>
      obtain ⟨done, split, batch, told⟩ := holds
      exact ⟨done, split, batch, same.trans told⟩
  | awaiting batch change delay =>
      obtain ⟨batch, sent, storable, told⟩ := holds
      exact ⟨batch, sent, storable, same.trans told⟩
  | concluding batch conclusion | adopting batch conclusion =>
      obtain ⟨batch, concluded, told⟩ := holds
      exact ⟨batch, concluded, same.trans told⟩
  | resolving answer pending =>
      obtain ⟨answer, done, split, told⟩ := holds
      exact ⟨answer, done, split, same.trans told⟩
  | idle | taking | stopped | died => exact holds

theorem Holds.isWorking (holds : phase.Holds taken verdict answers) : phase.isWorking = true := by
  cases phase <;> first | rfl | exact holds.elim

end Phase

/-- The requests that were queued for a worker, and the batches that it has taken, oldest first. -/
structure Log where
  queued : List Request
  batches : List Taken

namespace Log

def empty : Log := ⟨[], []⟩

def enqueue (log : Log) (request : Request) : Log :=
  { log with queued := log.queued ++ [request] }

/-- Notes what a step of the worker shows: a batch that was taken. -/
def note (log : Log) (before after : PoolStore) : Log :=
  match before.phase, after.phase with
  | .taking, .applying _ requests =>
      { log with batches := log.batches ++ [⟨before.snapshot, requests⟩] }
  | _, _ => log

def ids (log : Log) : List Nat := log.queued.map Request.id

/-- The store and the answers are as the log tells. `verdict` says which batches have been
committed. -/
structure Fits (log : Log) (verdict : Nat → Bool) (store : PoolStore)
    (answers : List (Nat × Answer)) : Prop where
  stream : log.queued = log.batches.flatMap Taken.requests ++ store.queue.waiting
  ordered : log.ids.Pairwise (· < ·)
  filled : ∀ taken ∈ log.batches, taken.requests ≠ []
  waiting : answersTo (store.queue.waiting.map Request.id) answers = []
  told : ∀ index taken, log.batches[index]? = some taken →
    index + 1 < log.batches.length ∨ store.phase.isWorking = false →
    taken.Told (verdict index) answers
  inHand : store.phase.isWorking = true → ∃ earlier taken, log.batches = earlier ++ [taken] ∧
    store.phase.Holds taken (verdict earlier.length) answers

variable {log : Log} {verdict : Nat → Bool} {store : PoolStore} {answers : List (Nat × Answer)}

theorem fits_start (snapshot : Snapshot) (verdict : Nat → Bool) (answers : List (Nat × Answer)) :
    empty.Fits verdict (.start snapshot) answers := by
  refine ⟨rfl, List.Pairwise.nil, ?_, ?_, ?_, ?_⟩
  · intro taken member
    cases member
  · exact answersTo_eq_nil (by rintro _ _ ⟨⟩)
  · intro index taken found
    cases found
  · intro working
    cases working

theorem Fits.taken_ids (fits : log.Fits verdict store answers) {taken : Taken}
    (member : taken ∈ log.batches) : taken.ids ⊆ log.ids := by
  intro id held
  obtain ⟨request, requested, rfl⟩ := List.mem_map.mp held
  refine List.mem_map_of_mem ?_
  rw [fits.stream]
  exact List.mem_append_left _ (List.mem_flatMap.mpr ⟨taken, member, requested⟩)

theorem Fits.waiting_ids (fits : log.Fits verdict store answers) :
    store.queue.waiting.map Request.id ⊆ log.ids := by
  intro id held
  obtain ⟨request, requested, rfl⟩ := List.mem_map.mp held
  refine List.mem_map_of_mem ?_
  rw [fits.stream]
  exact List.mem_append_right _ requested

/-- Only the queue, the phase and the answers to the queued requests matter. -/
theorem Fits.frame (fits : log.Fits verdict store answers) {next : PoolStore}
    {after : List (Nat × Answer)} (queue : next.queue.waiting = store.queue.waiting)
    (phase : next.phase = store.phase)
    (same : ∀ ids, ids ⊆ log.ids → answersTo ids after = answersTo ids answers) :
    log.Fits verdict next after := by
  refine ⟨queue ▸ fits.stream, fits.ordered, fits.filled, ?_, ?_, ?_⟩
  · rw [queue, same _ fits.waiting_ids]
    exact fits.waiting
  · intro index taken found passed
    have told := fits.told index taken found (phase ▸ passed)
    exact (same _ (fits.taken_ids (List.mem_of_getElem? found))).trans told
  · intro working
    rw [phase] at working ⊢
    obtain ⟨earlier, taken, batches, holds⟩ := fits.inHand working
    have member : taken ∈ log.batches := by
      rw [batches]
      exact List.mem_append_right _ List.mem_cons_self
    exact ⟨earlier, taken, batches, holds.same (same _ (fits.taken_ids member))⟩

/-- The last batch shares no request with earlier ones or with the queue. -/
theorem Fits.apart (fits : log.Fits verdict store answers) {earlier : List Taken} {taken : Taken}
    (batches : log.batches = earlier ++ [taken]) :
    (∀ other ∈ earlier, ∀ id ∈ taken.ids, id ∉ other.ids) ∧
      ∀ id ∈ taken.ids, id ∉ store.queue.waiting.map Request.id := by
  have ordered := fits.ordered
  rw [ids, fits.stream, batches, List.flatMap_append, List.map_append, List.map_append,
    List.flatMap_singleton] at ordered
  obtain ⟨front, -, behind⟩ := List.pairwise_append.mp ordered
  obtain ⟨-, -, before⟩ := List.pairwise_append.mp front
  refine ⟨?_, ?_⟩
  · intro other member id held shared
    obtain ⟨request, requested, rfl⟩ := List.mem_map.mp shared
    have early : request.id ∈ (earlier.flatMap Taken.requests).map Request.id :=
      List.mem_map_of_mem (List.mem_flatMap.mpr ⟨other, member, requested⟩)
    exact Nat.lt_irrefl _ (before _ early _ held)
  · intro id held late
    exact Nat.lt_irrefl _ (behind id (List.mem_append_right _ held) id late)

/-- The worker goes on with the batch in hand, or has come to its end. -/
theorem Fits.advance (fits : log.Fits verdict store answers) {earlier : List Taken} {taken : Taken}
    {next : PoolStore} {more : List (Nat × Answer)} {verdict' : Nat → Bool}
    (batches : log.batches = earlier ++ [taken])
    (queue : next.queue.waiting = store.queue.waiting)
    (own : ∀ answer ∈ more, answer.1 ∈ taken.ids)
    (kept : ∀ index < earlier.length, verdict' index = verdict index)
    (working : next.phase.isWorking = true →
      next.phase.Holds taken (verdict' earlier.length) (answers ++ more))
    (passed : next.phase.isWorking = false →
      taken.Told (verdict' earlier.length) (answers ++ more)) :
    log.Fits verdict' next (answers ++ more) := by
  obtain ⟨before, behind⟩ := fits.apart batches
  have size : log.batches.length = earlier.length + 1 := by
    rw [batches, List.length_append, List.length_singleton]
  refine ⟨queue ▸ fits.stream, fits.ordered, fits.filled, ?_, ?_, ?_⟩
  · rw [queue, answersTo_append_apart fun answer member => behind _ (own answer member)]
    exact fits.waiting
  · intro index other found ended
    have within := (List.getElem?_eq_some_iff.mp found).1
    by_cases last : index = earlier.length
    · subst last
      rw [batches, List.getElem?_concat_length] at found
      cases found
      rcases ended with beyond | ended
      · omega
      · exact passed ended
    · have early : index < earlier.length := by omega
      have member : other ∈ earlier := by
        rw [batches, List.getElem?_append_left early] at found
        exact List.mem_of_getElem? found
      have told := fits.told index other found (.inl (by omega))
      rw [Taken.Told, kept index early,
        answersTo_append_apart fun answer held => before other member _ (own answer held)]
      exact told
  · intro busy
    exact ⟨earlier, taken, batches, working busy⟩

theorem Fits.wait (fits : log.Fits verdict store answers) {next : PoolStore}
    (queue : next.queue.waiting = store.queue.waiting) (before : store.phase.isWorking = false)
    (after : next.phase.isWorking = false) : log.Fits verdict next answers := by
  refine ⟨queue ▸ fits.stream, fits.ordered, fits.filled, queue ▸ fits.waiting, ?_, ?_⟩
  · intro index taken found _
    exact fits.told index taken found (.inr before)
  · intro working
    rw [after] at working
    contradiction

theorem Fits.take (fits : log.Fits verdict store answers) {requests waiting : List Request}
    (before : store.phase.isWorking = false)
    (split : store.queue.waiting = requests ++ waiting) (some : requests ≠ []) :
    Fits { log with batches := log.batches ++ [⟨store.snapshot, requests⟩] } verdict
      { store with
        queue := { store.queue with waiting }
        phase := .applying (.start store.snapshot) requests } answers := by
  have unanswered := fits.waiting
  rw [split, List.map_append] at unanswered
  have none : ∀ ids, ids ⊆ requests.map Request.id ++ waiting.map Request.id →
      answersTo ids answers = [] := by
    intro ids within
    refine answersTo_eq_nil ?_
    intro answer member held
    have absent := List.filter_eq_nil_iff.mp unanswered answer member
    exact absent (decide_eq_true (within held))
  refine ⟨?_, fits.ordered, ?_, ?_, ?_, ?_⟩
  · simp only [List.flatMap_append, List.flatMap_singleton, List.append_assoc]
    rw [fits.stream, split]
  · intro taken member
    rcases List.mem_append.mp member with early | last
    · exact fits.filled taken early
    · rw [List.mem_singleton.mp last]
      exact some
  · exact none _ (List.subset_append_right _ _)
  · intro index taken found passed
    have early : index < log.batches.length := by
      rcases passed with passed | passed
      · simpa using passed
      · contradiction
    rw [List.getElem?_append_left early] at found
    exact fits.told index taken found (.inr before)
  · intro _
    exact ⟨log.batches, ⟨store.snapshot, requests⟩, rfl, [], rfl, rfl,
      none _ (List.subset_append_left _ _)⟩

theorem Fits.enqueue (fits : log.Fits verdict store answers) {next : PoolStore} {request : Request}
    (queue : next.queue.waiting = store.queue.waiting ++ [request])
    (phase : next.phase = store.phase) (fresh : ∀ id ∈ log.ids, id < request.id)
    (unanswered : ∀ answer ∈ answers, answer.1 < request.id) :
    (log.enqueue request).Fits verdict next answers := by
  refine ⟨?_, ?_, fits.filled, ?_, ?_, ?_⟩
  · rw [Log.enqueue, fits.stream, queue, List.append_assoc]
  · simp only [ids, Log.enqueue, List.map_append, List.map_cons, List.map_nil]
    rw [List.pairwise_append]
    refine ⟨fits.ordered, List.pairwise_singleton _ _, ?_⟩
    intro id held last member
    rw [List.mem_singleton.mp member]
    exact fresh id held
  · refine answersTo_eq_nil ?_
    intro answer member held
    rw [queue, List.map_append, List.mem_append] at held
    rcases held with held | held
    · exact List.filter_eq_nil_iff.mp fits.waiting answer member (decide_eq_true held)
    · have own : answer.1 = request.id := by simpa using held
      have earlier := unanswered answer member
      omega
  · intro index taken found passed
    exact fits.told index taken found (phase ▸ passed)
  · intro working
    rw [phase] at working ⊢
    exact fits.inHand working

theorem answersTo_own {ids : List Nat} {id : Nat} (member : id ∈ ids) (answer : Answer) :
    answersTo ids [(id, answer)] = [(id, answer)] := by
  simp [answersTo, member]

theorem Fits.tell (fits : log.Fits verdict store answers) {earlier : List Taken} {taken : Taken}
    {next : PoolStore} {id : Nat} {answer : Answer} (batches : log.batches = earlier ++ [taken])
    (queue : next.queue.waiting = store.queue.waiting) (own : id ∈ taken.ids)
    (holds : next.phase.Holds taken (verdict earlier.length) (answers ++ [(id, answer)])) :
    log.Fits verdict next (answers ++ [(id, answer)]) := by
  refine fits.advance batches queue ?_ (fun _ _ => rfl) (fun _ => holds) ?_
  · intro told member
    rw [List.mem_singleton.mp member]
    exact own
  · intro passed
    rw [holds.isWorking] at passed
    contradiction

theorem Fits.hold (fits : log.Fits verdict store answers) {earlier : List Taken} {taken : Taken}
    {next : PoolStore} {verdict' : Nat → Bool} (batches : log.batches = earlier ++ [taken])
    (queue : next.queue.waiting = store.queue.waiting)
    (kept : ∀ index < earlier.length, verdict' index = verdict index)
    (holds : next.phase.Holds taken (verdict' earlier.length) answers) :
    log.Fits verdict' next answers := by
  have advanced : log.Fits verdict' next (answers ++ []) := by
    refine fits.advance batches queue (by simp) kept ?_ ?_
    · intro _
      rw [List.append_nil]
      exact holds
    · intro passed
      rw [holds.isWorking] at passed
      contradiction
  rwa [List.append_nil] at advanced

theorem note_of_ne (log : Log) (next : PoolStore) (other : store.phase ≠ .taking) :
    log.note store next = log := by
  unfold note
  split
  · contradiction
  · rfl

theorem Fits.working (fits : log.Fits verdict store answers) {phase : Phase}
    (same : store.phase = phase) (busy : phase.isWorking = true) :
    (∀ next, log.note store next = log) ∧ ∃ earlier taken, log.batches = earlier ++ [taken] ∧
      phase.Holds taken (verdict earlier.length) answers := by
  subst same
  refine ⟨fun next => log.note_of_ne next ?_, fits.inHand busy⟩
  intro taking
  rw [taking] at busy
  contradiction

/-- The log is kept up by every step of the worker. -/
theorem Fits.step {now : Timestamp} {next : PoolStore} {around after : Surroundings}
    (fits : log.Fits verdict store around.answers)
    (step : PoolStore.Step now (store, around) (next, after))
    (undecided : store.phase.isOpen = true → verdict (log.batches.length - 1) = false) :
    (log.note store next).Fits verdict next after.answers := by
  cases step with
  | wake idle same =>
      rw [log.note_of_ne _ (by rw [idle]; simp)]
      exact fits.wait same (by rw [idle]; rfl) rfl
  | rest taking passed =>
      have before : store.phase.isWorking = false := by rw [taking]; rfl
      rcases passed with rfl | rfl
      · simp only [note, taking]
        exact fits.wait rfl before rfl
      · simp only [note, taking]
        exact fits.wait rfl before rfl
  | take requests waiting taking split some =>
      simp only [note, taking]
      exact fits.take (by rw [taking]; rfl) split some
  | accept applying accepted =>
      obtain ⟨noted, earlier, taken, batches, holds⟩ := fits.working applying rfl
      rw [noted]
      obtain ⟨done, split, rfl, told⟩ := holds
      obtain ⟨batch, silent⟩ := Taken.after_accept accepted
      refine fits.hold batches rfl (fun _ _ => rfl) ⟨_, ?_, batch.symm, ?_⟩
      · rw [split, List.append_assoc]
        rfl
      · rw [silent]
        exact told
  | refuse applying refused =>
      obtain ⟨noted, earlier, taken, batches, holds⟩ := fits.working applying rfl
      rw [noted]
      obtain ⟨done, split, rfl, told⟩ := holds
      obtain ⟨batch, heard⟩ := Taken.after_refuse refused
      have own : _ ∈ taken.ids :=
        List.mem_map_of_mem (split ▸ List.mem_append_right done List.mem_cons_self)
      refine fits.tell batches rfl own ⟨_, ?_, batch.symm, ?_⟩
      · rw [split, List.append_assoc]
        rfl
      · rw [heard, answersTo_append, told, answersTo_own own]
  | abandon applying quiet =>
      obtain ⟨noted, earlier, taken, batches, holds⟩ := fits.working applying rfl
      rw [noted]
      rw [applying] at undecided
      obtain ⟨done, split, rfl, told⟩ := holds
      rw [List.append_nil] at split
      subst split
      refine fits.hold batches rfl (fun _ _ => rfl) ⟨rfl, ?_, told⟩
      have last := undecided rfl
      rw [batches, List.length_append, List.length_singleton, Nat.add_sub_cancel] at last
      rw [last]
      rfl
  | send applying storable quiet =>
      obtain ⟨noted, earlier, taken, batches, holds⟩ := fits.working applying rfl
      rw [noted]
      obtain ⟨done, split, rfl, told⟩ := holds
      rw [List.append_nil] at split
      subst split
      exact fits.hold batches rfl (fun _ _ => rfl) ⟨rfl, ⟨now, rfl⟩, storable, told⟩
  | @conclude _ _ _ conclusion concluding =>
      obtain ⟨noted, earlier, taken, batches, holds⟩ := fits.working concluding rfl
      rw [noted]
      rw [(around.conclude_frame conclusion).1]
      exact fits.hold batches rfl (fun _ _ => rfl) holds
  | adopt adopting =>
      obtain ⟨noted, earlier, taken, batches, holds⟩ := fits.working adopting rfl
      rw [noted]
      obtain ⟨rfl, concluded, told⟩ := holds
      refine fits.hold batches rfl (fun _ _ => rfl) ⟨by rw [concluded], [], rfl, ?_⟩
      rw [List.map_nil, List.append_nil]
      exact told
  | finish resolving =>
      obtain ⟨noted, earlier, taken, batches, holds⟩ := fits.working resolving rfl
      rw [noted]
      obtain ⟨rfl, done, split, told⟩ := holds
      have advanced : log.Fits verdict { store with phase := .taking } (around.answers ++ []) := by
        refine fits.advance batches rfl (by simp) (fun _ _ => rfl) (by rintro ⟨⟩) ?_
        intro _
        rw [List.append_nil] at split ⊢
        rw [Taken.Told, split]
        exact told
      rwa [List.append_nil] at advanced
  | @resolve _ _ _ request _ resolving =>
      obtain ⟨noted, earlier, taken, batches, holds⟩ := fits.working resolving rfl
      rw [noted]
      obtain ⟨rfl, done, split, told⟩ := holds
      have own : _ ∈ taken.ids :=
        Taken.pending_ids (split ▸ List.mem_append_right done List.mem_cons_self)
      refine fits.tell batches rfl own ⟨rfl, done ++ [request], ?_, ?_⟩
      · rw [split, List.append_assoc]
        rfl
      · rw [answersTo_append, told, answersTo_own own, List.map_append, List.append_assoc]
        rfl

theorem Fits.held (fits : log.Fits verdict store answers) : store.held ⊆ log.ids := by
  intro id member
  rcases List.mem_append.mp member with working | waiting
  · cases phase : store.phase with
    | idle | taking | stopped | died => simp [phase] at working
    | applying batch rest =>
        obtain ⟨-, earlier, taken, batches, holds⟩ := fits.working phase rfl
        obtain ⟨done, split, rfl, -⟩ := holds
        rw [phase] at working
        refine fits.taken_ids (batches ▸ List.mem_append_right _ List.mem_cons_self) ?_
        rw [Taken.ids, split, List.map_append]
        rcases List.mem_append.mp working with applied | left
        · refine List.mem_append_left _ ?_
          obtain ⟨request, accepted, rfl⟩ := List.mem_map.mp applied
          exact List.mem_map_of_mem ((PoolState.accepted_sublist _ _).subset accepted)
        · exact List.mem_append_right _ left
    | awaiting batch change delay | concluding batch conclusion | adopting batch conclusion =>
        obtain ⟨-, earlier, taken, batches, holds⟩ := fits.working phase rfl
        obtain ⟨rfl, -⟩ := holds
        rw [phase] at working
        exact fits.taken_ids (batches ▸ List.mem_append_right _ List.mem_cons_self)
          (Taken.pending_ids working)
    | resolving answer pending =>
        obtain ⟨-, earlier, taken, batches, holds⟩ := fits.working phase rfl
        obtain ⟨-, done, split, -⟩ := holds
        rw [phase] at working
        exact fits.taken_ids (batches ▸ List.mem_append_right _ List.mem_cons_self)
          (Taken.pending_ids (split ▸ List.mem_append_right _ working))
  · exact fits.waiting_ids waiting

/-- Where an answer comes from: the mutation of its request has failed, or its batch has been
concluded. -/
theorem Fits.answered (fits : log.Fits verdict store answers) {id : Nat} {answer : Answer}
    (given : (id, answer) ∈ answers) (queued : id ∈ log.ids) :
    ∃ index taken, log.batches[index]? = some taken ∧
      ((id, answer) ∈ taken.refusals ∨
        id ∈ taken.batch.pending ∧ answer = .ofCommit (verdict index) ∧
          (index + 1 < log.batches.length ∨ store.phase.isPending = false)) := by
  rw [ids, fits.stream, List.map_append, List.mem_append] at queued
  rcases queued with taken | waiting
  · obtain ⟨request, requested, rfl⟩ := List.mem_map.mp taken
    obtain ⟨taken, member, requested⟩ := List.mem_flatMap.mp requested
    obtain ⟨index, found⟩ := List.mem_iff_getElem?.mp member
    have own : (request.id, answer) ∈ answersTo taken.ids answers := by
      refine List.mem_filter.mpr ⟨given, ?_⟩
      exact decide_eq_true (List.mem_map_of_mem requested : request.id ∈ taken.ids)
    refine ⟨index, taken, found, ?_⟩
    by_cases passed : index + 1 < log.batches.length ∨ store.phase.isWorking = false
    · rcases (fits.told index taken found passed).answered own with refused | ⟨pending, verdict⟩
      · exact .inl refused
      · refine .inr ⟨pending, verdict, passed.imp_right ?_⟩
        cases store.phase <;> simp [Phase.isWorking, Phase.isPending]
    · rw [not_or, Bool.not_eq_false] at passed
      obtain ⟨earlier, last, batches, holds⟩ := fits.inHand passed.2
      have within := (List.getElem?_eq_some_iff.mp found).1
      rw [batches, List.length_append, List.length_singleton] at within passed
      have place : index = earlier.length := by omega
      subst place
      rw [batches, List.getElem?_concat_length] at found
      cases found
      rcases holds.answered own with refused | ⟨pending, verdict, settled⟩
      · exact .inl refused
      · exact .inr ⟨pending, verdict, .inr settled⟩
  · have absent := List.filter_eq_nil_iff.mp fits.waiting (id, answer) given
    exact absurd (decide_eq_true waiting) absent

theorem Fits.batch_unique (fits : log.Fits verdict store answers) {left right id : Nat}
    {first second : Taken} (here : log.batches[left]? = some first)
    (there : log.batches[right]? = some second) (member : id ∈ first.ids)
    (shared : id ∈ second.ids) : left = right := by
  have ordered := fits.ordered
  rw [ids, fits.stream, List.map_append, List.map_flatMap, List.pairwise_append,
    List.pairwise_flatMap] at ordered
  have increasing := List.pairwise_iff_getElem.mp ordered.1.2
  obtain ⟨inside, rfl⟩ := List.getElem?_eq_some_iff.mp here
  obtain ⟨within, rfl⟩ := List.getElem?_eq_some_iff.mp there
  rcases Nat.lt_trichotomy left right with before | same | after
  · exact absurd (increasing left right inside within before id member id shared)
      (Nat.lt_irrefl _)
  · exact same
  · exact absurd (increasing right left within inside after id shared id member)
      (Nat.lt_irrefl _)

theorem Fits.not_refused (fits : log.Fits verdict store answers) {taken : Taken} {id : Nat}
    {answer : Answer} (member : taken ∈ log.batches) (pending : id ∈ taken.batch.pending) :
    (id, answer) ∉ taken.refusals := by
  intro refused
  have ordered := fits.ordered
  rw [ids, fits.stream, List.map_append, List.map_flatMap, List.pairwise_append,
    List.pairwise_flatMap] at ordered
  have distinct := (ordered.1.1 taken member).imp fun less => Nat.ne_of_lt less
  have parts := (PoolState.ids_perm taken.before.state taken.requests).nodup_iff.mp distinct
  exact (List.nodup_append.mp parts).2.2 id (List.mem_map_of_mem refused) id pending rfl

theorem Fits.settled (fits : log.Fits verdict store answers) {place id : Nat} {taken : Taken}
    {answer : Answer} (found : log.batches[place]? = some taken) (pending : id ∈ taken.batch.pending)
    (given : (id, answer) ∈ answers) : answer = .ofCommit (verdict place) := by
  have own := Taken.pending_ids pending
  have queued := fits.taken_ids (List.mem_of_getElem? found) own
  obtain ⟨index, other, there, refused | ⟨accepted, answered, -⟩⟩ := fits.answered given queued
  · have ids := (Taken.refusals_ids (List.append_nil _).symm refused).2
    have same := fits.batch_unique there found ids own
    rw [same, found] at there
    cases there
    exact absurd refused (fits.not_refused (List.mem_of_getElem? found) pending)
  · have same := fits.batch_unique there found (Taken.pending_ids accepted) own
    rw [answered, same]

/-- A request that has been told so is one of a committed batch. -/
theorem Fits.committed (fits : log.Fits verdict store answers) {request : Request}
    (queued : request ∈ log.queued) (given : (request.id, .committed) ∈ answers) :
    ∃ place taken, log.batches[place]? = some taken ∧ verdict place = true ∧
      request ∈ taken.before.state.accepted taken.requests := by
  obtain ⟨place, taken, found, refused | ⟨pending, committed, -⟩⟩ :=
    fits.answered given (List.mem_map_of_mem queued)
  · obtain ⟨failure, other⟩ := PoolState.refusals_failed refused
    cases other
  · have settled : verdict place = true := by
      cases decided : verdict place with
      | true => rfl
      | false =>
          rw [decided] at committed
          cases committed
    obtain ⟨same, accepted, id⟩ := List.mem_map.mp pending
    have also : same ∈ log.queued := by
      rw [fits.stream]
      apply List.mem_append_left
      have requested := (PoolState.accepted_sublist _ _).subset accepted
      exact List.mem_flatMap.mpr ⟨taken, List.mem_of_getElem? found, requested⟩
    have distinct : (log.queued.map Request.id).Nodup :=
      fits.ordered.imp fun less => Nat.ne_of_lt less
    have equal := List.inj_on_of_nodup_map distinct also queued id
    exact ⟨place, taken, found, settled, equal ▸ accepted⟩

theorem Fits.pending_nodup (fits : log.Fits verdict store answers) {taken : Taken}
    (member : taken ∈ log.batches) : taken.batch.pending.Nodup := by
  have ordered := fits.ordered
  rw [ids, fits.stream, List.map_append, List.map_flatMap, List.pairwise_append,
    List.pairwise_flatMap] at ordered
  have distinct := (ordered.1.1 taken member).imp fun less => Nat.ne_of_lt less
  exact ((PoolState.accepted_sublist _ _).map Request.id).nodup distinct

theorem note_queued (log : Log) (before after : PoolStore) :
    (log.note before after).queued = log.queued := by
  unfold note
  split <;> rfl

theorem note_ids (log : Log) (before after : PoolStore) :
    (log.note before after).ids = log.ids :=
  congrArg (List.map Request.id) (log.note_queued before after)

theorem front_note (log : Log) (before after : PoolStore) :
    log.batches <+: (log.note before after).batches := by
  unfold note
  split
  · exact List.prefix_append _ _
  · exact List.prefix_rfl

theorem note_batches (log : Log) (before after : PoolStore) {index : Nat} {taken : Taken}
    (found : log.batches[index]? = some taken) :
    (log.note before after).batches[index]? = some taken := by
  obtain ⟨more, whole⟩ := log.front_note before after
  have within := (List.getElem?_eq_some_iff.mp found).1
  rw [← whole, List.getElem?_append_left within]
  exact found

/-- A batch that is taken comes last, and no step opens one that has been concluded. -/
theorem note_step (log : Log) {now : Timestamp} {next : PoolStore} {around after : Surroundings}
    (step : PoolStore.Step now (store, around) (next, after)) :
    (log.note store next).batches = log.batches ∧
        (next.phase.isOpen = true → store.phase.isOpen = true) ∧
        (next.phase.isPending = false → store.phase.isPending = false ∨
          ∃ batch conclusion, store.phase = .adopting batch conclusion) ∨
      ∃ taken, (log.note store next).batches = log.batches ++ [taken] ∧
        store.phase.isPending = false ∧ next.phase.isPending = true := by
  cases step with
  | wake idle same =>
      simp [log.note_of_ne _ (show store.phase ≠ .taking by simp [idle]), idle, Phase.isOpen,
        Phase.isPending]
  | rest taking passed =>
      rcases passed with rfl | rfl <;> simp [note, taking, Phase.isOpen, Phase.isPending]
  | take requests waiting taking split some =>
      simp [note, taking, Phase.isPending]
  | accept applying | refuse applying | abandon applying | send applying =>
      simp [log.note_of_ne _ (show store.phase ≠ .taking by simp [applying]), applying,
        Phase.isOpen, Phase.isPending]
  | conclude concluding =>
      simp [log.note_of_ne _ (show store.phase ≠ .taking by simp [concluding]), concluding,
        Phase.isOpen, Phase.isPending]
  | adopt adopting =>
      simp [log.note_of_ne _ (show store.phase ≠ .taking by simp [adopting]), adopting,
        Phase.isOpen, Phase.isPending]
  | finish resolving | resolve resolving =>
      simp [log.note_of_ne _ (show store.phase ≠ .taking by simp [resolving]), resolving,
        Phase.isOpen, Phase.isPending]

end Log

end ClaimStore
