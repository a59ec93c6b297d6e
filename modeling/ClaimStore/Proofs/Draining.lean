import ClaimStore.Proofs.Shutdown.Workers
import Mathlib.Algebra.Order.Floor.Div

/-!
Draining the queue.

Whatever is done to a queue, in whatever order, the batches that have been taken and what still waits
are the accepted requests, in the order in which they came. A worker that drains its queue takes one
batch after the other until it finds none. Each of its steps brings it closer to that, and no other
event leads it away, so it comes to rest.
-/
namespace ClaimStore

namespace RequestQueue

/-- Offers a request to the queue, which takes it or hands it back. -/
def offer (queue : RequestQueue) (request : Request) : Except Request RequestQueue :=
  match queue.push? request with
  | some next => .ok next
  | none => .error request

/-- The batch that is taken as the given one, counted from zero, if nothing is queued meanwhile. -/
def portion (queue : RequestQueue) (limit index : Nat) : List Request :=
  (queue.waiting.drop (index * limit)).take limit

variable {queue : RequestQueue} {limit index : Nat}

theorem offer_opened (opened : queue.isClosed = false) (request : Request) :
    queue.offer request = .ok { queue with waiting := queue.waiting ++ [request] } := by
  simp [offer, push?, opened]

theorem offer_closed (closed : queue.isClosed = true) (request : Request) :
    queue.offer request = .error request := by
  simp [offer, push?, closed]

theorem lt_of_portion (filled : queue.portion limit index ≠ []) : index * limit < queue.size := by
  refine Nat.lt_of_not_le fun beyond => filled ?_
  rw [portion, List.drop_eq_nil_of_le beyond, List.take_nil]

end RequestQueue

/-! ### What is done to a queue -/

/-- Somebody offers a request, a batch is taken, or the queue is closed. -/
inductive QueueAct
  | push (request : Request)
  | take (limit : Nat)
  | close

namespace QueueAct

def request? : QueueAct → Option Request
  | .push request => some request
  | .take _ | .close => none

def isClose : QueueAct → Bool
  | .close => true
  | .push _ | .take _ => false

end QueueAct

/-- A batch that was taken, under which limit, and of how many requests. -/
structure Withdrawal where
  limit : Nat
  size : Nat
  requests : List Request

/-- A queue, what has become of the requests that were offered, and the batches taken, oldest
first. -/
structure Intake where
  queue : RequestQueue
  accepted : List Request
  returned : List Request
  withdrawals : List Withdrawal

namespace Intake

def start : Intake := ⟨.empty, [], [], []⟩

def act (intake : Intake) : QueueAct → Intake
  | .push request =>
      match intake.queue.offer request with
      | .ok queue => { intake with queue, accepted := intake.accepted ++ [request] }
      | .error request => { intake with returned := intake.returned ++ [request] }
  | .take limit =>
      let (requests, queue) := intake.queue.takeBatch limit
      { intake with
        queue
        withdrawals := intake.withdrawals ++ [⟨limit, intake.queue.size, requests⟩] }
  | .close => { intake with queue := intake.queue.close }

def run (acts : List QueueAct) (intake : Intake) : Intake := acts.foldl act intake

/-- The batches and what waits make up what was accepted, and no batch is shorter or longer than it had
to be. -/
structure Whole (intake : Intake) : Prop where
  parts : intake.withdrawals.flatMap Withdrawal.requests ++ intake.queue.waiting = intake.accepted
  sizes : ∀ withdrawal ∈ intake.withdrawals,
    withdrawal.requests.length = min withdrawal.limit withdrawal.size

variable {intake : Intake}

theorem run_cons (first : QueueAct) (rest : List QueueAct) :
    intake.run (first :: rest) = (intake.act first).run rest := rfl

theorem whole_start : start.Whole := ⟨rfl, fun _ member => absurd member List.not_mem_nil⟩

theorem push_opened (opened : intake.queue.isClosed = false) (request : Request) :
    intake.act (.push request) =
      { intake with
        queue := { intake.queue with waiting := intake.queue.waiting ++ [request] }
        accepted := intake.accepted ++ [request] } := by
  simp only [act, RequestQueue.offer_opened opened]

theorem push_closed (closed : intake.queue.isClosed = true) (request : Request) :
    intake.act (.push request) = { intake with returned := intake.returned ++ [request] } := by
  simp only [act, RequestQueue.offer_closed closed]

theorem Whole.act (whole : intake.Whole) (queueAct : QueueAct) : (intake.act queueAct).Whole := by
  cases queueAct with
  | push request =>
      cases closed : intake.queue.isClosed with
      | true =>
          rw [push_closed closed]
          exact ⟨whole.parts, whole.sizes⟩
      | false =>
          rw [push_opened closed]
          refine ⟨?_, whole.sizes⟩
          rw [← List.append_assoc, whole.parts]
  | take limit =>
      refine ⟨?_, ?_⟩
      · simp only [Intake.act, List.flatMap_append, List.flatMap_singleton, List.append_assoc]
        rw [intake.queue.takeBatch_append limit, whole.parts]
      · intro withdrawal member
        rcases List.mem_append.mp member with early | last
        · exact whole.sizes withdrawal early
        · rw [List.mem_singleton.mp last]
          exact intake.queue.takeBatch_length limit
  | close => exact ⟨whole.parts, whole.sizes⟩

theorem Whole.run (whole : intake.Whole) (acts : List QueueAct) : (intake.run acts).Whole := by
  induction acts generalizing intake with
  | nil => exact whole
  | cons first rest ih => exact ih (whole.act first)

/-- A closed queue stays closed, and every request is handed back. -/
theorem run_closed (closed : intake.queue.isClosed = true) (acts : List QueueAct) :
    (intake.run acts).queue.isClosed = true ∧ (intake.run acts).accepted = intake.accepted ∧
      (intake.run acts).returned = intake.returned ++ acts.filterMap QueueAct.request? := by
  induction acts generalizing intake with
  | nil => exact ⟨closed, rfl, (List.append_nil _).symm⟩
  | cons first rest ih =>
      cases first with
      | push request =>
          have pushed := push_closed closed request
          have stays : (intake.act (.push request)).queue.isClosed = true := by
            rw [pushed]
            exact closed
          have onward := ih stays
          rw [pushed] at onward
          rw [run_cons, pushed]
          exact ⟨onward.1, onward.2.1, onward.2.2.trans (List.append_assoc _ _ _)⟩
      | take limit => exact ih (show (intake.act (.take limit)).queue.isClosed = true from closed)
      | close => exact ih (show (intake.act .close).queue.isClosed = true from rfl)

/-- The requests that come before the queue is closed are accepted, and the others are handed back. -/
theorem run_opened (opened : intake.queue.isClosed = false) (acts : List QueueAct) :
    (intake.run acts).queue.isClosed = acts.any QueueAct.isClose ∧
      (intake.run acts).accepted = intake.accepted ++
        (acts.takeWhile fun queueAct => !queueAct.isClose).filterMap QueueAct.request? ∧
      (intake.run acts).returned = intake.returned ++
        (acts.dropWhile fun queueAct => !queueAct.isClose).filterMap QueueAct.request? := by
  induction acts generalizing intake with
  | nil => exact ⟨opened, (List.append_nil _).symm, (List.append_nil _).symm⟩
  | cons first rest ih =>
      cases first with
      | push request =>
          have pushed := push_opened opened request
          have stays : (intake.act (.push request)).queue.isClosed = false := by
            rw [pushed]
            exact opened
          have onward := ih stays
          rw [pushed] at onward
          rw [run_cons, pushed]
          exact ⟨onward.1, onward.2.1.trans (List.append_assoc _ _ _), onward.2.2⟩
      | take limit => exact ih (show (intake.act (.take limit)).queue.isClosed = false from opened)
      | close =>
          have shut : (intake.act .close).queue.isClosed = true := rfl
          have onward := run_closed shut rest
          exact ⟨onward.1, onward.2.1.trans (List.append_nil _).symm, onward.2.2⟩

end Intake

/-! ### What a worker that drains does -/

def Phase.isAwaiting : Phase → Bool
  | .awaiting _ _ _ => true
  | _ => false

namespace PoolStore

/-- A bound on the steps until the worker rests, if nothing is queued meanwhile. Triggers do not matter
to a worker that drains. -/
def drainAhead (store : PoolStore) : Nat := { store with isTriggered := false }.workAhead

variable {batchSize : Nat} {isShutDown : Bool} {store next : PoolStore} {around after : Surroundings}

theorem workAhead_eq (store : PoolStore) :
    store.workAhead = store.drainAhead + if store.isTriggered then 2 else 0 := by
  cases triggered : store.isTriggered <;> simp [workAhead, drainAhead, triggered, RequestQueue.size]
  omega

theorem drainAhead_taking (taking : store.phase = .taking) :
    store.drainAhead ≤ 10 * store.queue.size + 4 := by
  cases closed : store.queue.isClosed <;>
    simp [drainAhead, workAhead, taking, closed, RequestQueue.size]

/-- Only a worker that looks for a batch takes requests from the queue, and only one that waits uses up
a trigger. -/
theorem Turn.aside (turn : Turn (store, around) (next, after)) :
    (store.phase ≠ .taking → next.queue.waiting = store.queue.waiting) ∧
      (store.isDraining = true → next.isTriggered = store.isTriggered) := by
  cases turn with
  | step now step =>
      cases step with
      | wake idle same => exact ⟨fun _ => same, by simp [isDraining, Phase.isDraining, idle]⟩
      | take requests waiting taking split some =>
          exact ⟨fun other => absurd taking other, fun _ => rfl⟩
      | rest | accept | refuse | abandon | send | conclude | adopt | finish | resolve =>
          exact ⟨fun _ => rfl, fun _ => rfl⟩
  | answered | die => exact ⟨fun _ => rfl, fun _ => rfl⟩

theorem Turn.clock (turn : Turn (store, around) (next, after)) : after.clock = around.clock := by
  cases turn with
  | step now step => exact step.frame.2.1
  | answered | die => rfl

theorem drainAhead_of_step? (draining : store.isDraining = true)
    (stepped : step? batchSize isShutDown (store, around) = some (next, after)) :
    next.drainAhead < store.drainAhead := by
  have less := step?_workAhead stepped
  have same := (turn_of_step? stepped).aside.2 draining
  simp only [workAhead_eq, same] at less
  omega

/-- A worker that drains takes a step, unless it waits for its update. -/
theorem step?_of_draining (draining : store.isDraining = true) (alive : store.phase ≠ .died)
    (ready : store.phase.isAwaiting = false) (around : Surroundings) :
    ∃ result, step? batchSize isShutDown (store, around) = some result := by
  cases phase : store.phase with
  | idle | stopped => simp [isDraining, Phase.isDraining, phase] at draining
  | died => exact absurd phase alive
  | awaiting batch change delay => simp [Phase.isAwaiting, phase] at ready
  | taking | concluding | adopting => simp [step?, phase]
  | applying batch rest =>
      cases rest with
      | nil => simp [step?, phase]
      | cons request rest => cases added : batch.add request <;> simp [step?, phase, added]
  | resolving answer pending => cases pending <;> simp [step?, phase]

end PoolStore

namespace SharedAct

/-- Whether the act leaves the worker a clock. -/
def keepsClock : SharedAct → Bool
  | .others _ clock => clock.isSome
  | .solo _ => true

end SharedAct

/-- The worker gets to take a step, and an update on its way ends, in whichever order and whatever else
happens meanwhile. -/
def IsRound (acts : List SharedAct) : Prop :=
  .solo (.desk .work) ∈ acts ∧ (.solo .finishUpdate ∈ acts ∨ .solo .abandonUpdate ∈ acts)

namespace Desk

variable {first desk : Desk} {batchSize count : Nat} {act : SharedAct}

/-- From the first desk on, so many batches have been taken, and nothing has been queued. -/
structure Drains (first : Desk) (batchSize count : Nat) (desk : Desk) : Prop where
  batches : desk.log.batches.map Taken.requests =
    first.log.batches.map Taken.requests ++
      (List.range count).map (first.store.queue.portion batchSize)
  waiting : desk.store.queue.waiting = first.store.queue.waiting.drop (count * batchSize)
  filled : ∀ index < count, first.store.queue.portion batchSize index ≠ []
  rested : desk.store.isDraining = false → desk.store.queue.waiting = []

theorem drains_start (taking : first.store.phase = .taking) (batchSize : Nat) :
    Drains first batchSize 0 first := by
  refine ⟨(List.append_nil _).symm, ?_, fun _ early => absurd early (Nat.not_lt_zero _), ?_⟩
  · rw [Nat.zero_mul, List.drop_zero]
  · intro rests
    simp [PoolStore.isDraining, Phase.isDraining, taking] at rests

/-- Only the batches, what waits and whether the worker rests matter. -/
theorem Drains.frame (drains : Drains first batchSize count desk) {next : Desk}
    (batches : next.log.batches = desk.log.batches)
    (waiting : next.store.queue.waiting = desk.store.queue.waiting)
    (rested : next.store.isDraining = false → next.store.queue.waiting = []) :
    Drains first batchSize count next :=
  ⟨batches ▸ drains.batches, waiting ▸ drains.waiting, drains.filled, rested⟩

theorem Drains.take (drains : Drains first batchSize count desk) (positive : 0 < batchSize)
    (taking : desk.store.phase = .taking) :
    ∃ count', Drains first batchSize count'
      (desk.update (some (desk.store.take batchSize desk.around))) := by
  have portion : first.store.queue.portion batchSize count =
      desk.store.queue.waiting.take batchSize := by
    rw [RequestQueue.portion, drains.waiting]
  have beyond : first.store.queue.waiting.drop ((count + 1) * batchSize) =
      desk.store.queue.waiting.drop batchSize := by
    rw [drains.waiting, List.drop_drop, Nat.succ_mul]
  rw [PoolStore.take, RequestQueue.takeBatch]
  cases requests : desk.store.queue.waiting.take batchSize with
  | nil =>
      have empty : desk.store.queue.waiting = [] :=
        (List.take_eq_nil_iff.mp requests).resolve_left (Nat.ne_of_gt positive)
      refine ⟨count, drains.frame ?_ rfl fun _ => empty⟩
      cases closed : desk.store.queue.isClosed <;> simp [update, Log.note, taking]
  | cons request rest =>
      refine ⟨count + 1, ?_, beyond.symm, ?_, ?_⟩
      · simp only [update, Log.note, taking, List.map_append, List.map_cons, List.map_nil,
          drains.batches, List.range_succ, portion, requests, List.append_assoc]
      · intro index early
        rcases Nat.lt_succ_iff_lt_or_eq.mp early with early | rfl
        · exact drains.filled index early
        · rw [portion, requests]
          exact List.cons_ne_nil _ _
      · intro rests
        simp [update, PoolStore.isDraining, Phase.isDraining] at rests

theorem Drains.work (drains : Drains first batchSize count desk) (positive : 0 < batchSize) :
    ∃ count', Drains first batchSize count' (desk.act batchSize .work) := by
  simp only [Desk.act]
  cases worked : PoolStore.step? batchSize desk.isShutDown (desk.store, desk.around) with
  | none => exact ⟨count, drains⟩
  | some result =>
      obtain ⟨next, after⟩ := result
      by_cases taking : desk.store.phase = .taking
      · have taken : desk.store.take batchSize desk.around = (next, after) := by
          simpa [PoolStore.step?, taking] using worked
        rw [← taken]
        exact drains.take positive taking
      · have same := (PoolStore.turn_of_step? worked).aside.1 taking
        refine ⟨count, drains.frame ?_ same ?_⟩
        · rw [update, desk.log.note_of_ne next taking]
        · exact fun rests => (PoolStore.pause_of_step? positive worked rests).1

/-- When an update ends, the worker goes on with its batch. -/
theorem Drains.concluding (drains : Drains first batchSize count desk) {batch : Batch}
    {conclusion : Conclusion} {change : Record} {delay : Nat} {client : Client}
    (awaiting : desk.store.phase = .awaiting batch change delay) :
    Drains first batchSize count
      (desk.update (some ({ desk.store with phase := .concluding batch conclusion },
        { desk.around with client }))) := by
  rw [update_concluding awaiting]
  refine drains.frame rfl rfl fun rests => ?_
  simp [PoolStore.isDraining, Phase.isDraining] at rests

theorem Drains.shared (drains : Drains first batchSize count desk) (positive : 0 < batchSize)
    (unpushed : act.mutation? = none) :
    ∃ count', Drains first batchSize count' (desk.shared batchSize act) := by
  cases act with
  | others client clock => exact ⟨count, drains.frame rfl rfl drains.rested⟩
  | solo soloAct =>
      cases soloAct with
      | desk deskAct =>
          cases deskAct with
          | push mutation => cases unpushed
          | work => exact drains.work positive
          | notify | shutDown | tick => exact ⟨count, drains.frame rfl rfl drains.rested⟩
      | finishUpdate =>
          simp only [Desk.shared, solo]
          cases finished : PoolStore.finishUpdate? (desk.store, desk.around) with
          | none => exact ⟨count, drains⟩
          | some result =>
              obtain ⟨next, after⟩ := result
              obtain ⟨batch, change, delay, reply, client, awaiting, rfl, rfl, -⟩ :=
                PoolStore.end_of_finishUpdate? finished
              exact ⟨count, drains.concluding awaiting⟩
      | abandonUpdate =>
          simp only [Desk.shared, solo]
          cases abandoned : PoolStore.abandonUpdate? (desk.store, desk.around) with
          | none => exact ⟨count, drains⟩
          | some result =>
              obtain ⟨next, after⟩ := result
              obtain ⟨batch, change, delay, client, awaiting, rfl, rfl, -⟩ :=
                PoolStore.end_of_abandonUpdate? abandoned
              exact ⟨count, drains.concluding awaiting⟩

theorem Drains.runShared (drains : Drains first batchSize count desk) (positive : 0 < batchSize)
    {acts : List SharedAct} (unpushed : ∀ act ∈ acts, act.mutation? = none) :
    ∃ count', Drains first batchSize count' (desk.runShared batchSize acts) := by
  induction acts generalizing desk count with
  | nil => exact ⟨count, drains⟩
  | cons act rest ih =>
      obtain ⟨next, onward⟩ := drains.shared positive (unpushed act List.mem_cons_self)
      exact ih onward fun later member => unpushed later (List.mem_cons_of_mem _ member)

/-- No more batches are taken than it takes to empty the queue. -/
theorem Drains.count_le (drains : Drains first batchSize count desk) (positive : 0 < batchSize) :
    count ≤ first.store.queue.size ⌈/⌉ batchSize := by
  refine Nat.le_of_not_lt fun more => ?_
  have within := RequestQueue.lt_of_portion (drains.filled _ more)
  have enough := (ceilDiv_le_iff_le_mul positive).mp
    (Nat.le_refl (first.store.queue.size ⌈/⌉ batchSize))
  rw [Nat.mul_comm] at within
  exact Nat.lt_irrefl _ (Nat.lt_of_lt_of_le within enough)

/-- A worker that rests has taken as many batches as it takes. -/
theorem Drains.count_of_rest (drains : Drains first batchSize count desk) (positive : 0 < batchSize)
    (rests : desk.store.isDraining = false) : count = first.store.queue.size ⌈/⌉ batchSize := by
  have empty : first.store.queue.waiting.drop (count * batchSize) = [] :=
    drains.waiting ▸ drains.rested rests
  have enough : first.store.queue.size ≤ batchSize * count := by
    rw [Nat.mul_comm]
    exact List.drop_eq_nil_iff.mp empty
  exact Nat.le_antisymm (drains.count_le positive) ((ceilDiv_le_iff_le_mul positive).mpr enough)

/-! ### That it comes to rest -/

/-- The worker drains its queue and has what it needs for that. -/
structure Runs (desk : Desk) : Prop where
  draining : desk.store.isDraining = true
  alive : desk.store.phase ≠ .died
  clock : desk.around.clock.isSome = true

/-- The worker has not come any further: it was not its turn, or not that of its update. -/
structure Stays (acts : List SharedAct) (before after : Desk) : Prop where
  phase : after.store.phase = before.store.phase
  ahead : after.store.drainAhead = before.store.drainAhead
  worked : .solo (.desk .work) ∈ acts → before.store.phase.isAwaiting = true
  ended : .solo .finishUpdate ∈ acts ∨ .solo .abandonUpdate ∈ acts →
    before.store.phase.isAwaiting = false

/-- After some acts the worker drains on, and it has come further or has stayed where it was. -/
def GoesOn (acts : List SharedAct) (before after : Desk) : Prop :=
  after.Runs ∧ (after.store.drainAhead < before.store.drainAhead ∨ Stays acts before after)

theorem Runs.work (runs : desk.Runs) :
    (desk.act batchSize .work).store.isDraining = false ∨
      GoesOn [.solo (.desk .work)] desk (desk.act batchSize .work) := by
  simp only [Desk.act]
  cases worked : PoolStore.step? batchSize desk.isShutDown (desk.store, desk.around) with
  | none =>
      refine .inr ⟨runs, .inr ⟨rfl, rfl, fun _ => ?_, by simp⟩⟩
      rw [← Bool.not_eq_false]
      intro ready
      obtain ⟨result, stepped⟩ :=
        PoolStore.step?_of_draining runs.draining runs.alive ready desk.around
      rw [worked] at stepped
      cases stepped
  | some result =>
      obtain ⟨next, after⟩ := result
      cases draining : next.isDraining with
      | false => exact .inl draining
      | true =>
          refine .inr ⟨⟨draining, PoolStore.alive_of_step? runs.clock worked, ?_⟩, .inl ?_⟩
          · exact (congrArg Option.isSome (PoolStore.turn_of_step? worked).clock).trans runs.clock
          · exact PoolStore.drainAhead_of_step? runs.draining worked

/-- The end of its update brings the worker further. -/
theorem Runs.concluding (runs : desk.Runs) {acts : List SharedAct} {batch : Batch}
    {conclusion : Conclusion} {change : Record} {delay : Nat} {client : Client}
    (awaiting : desk.store.phase = .awaiting batch change delay) :
    GoesOn acts desk (desk.update (some ({ desk.store with phase := .concluding batch conclusion },
      { desk.around with client }))) := by
  rw [update_concluding awaiting]
  refine ⟨⟨rfl, by simp, runs.clock⟩, .inl ?_⟩
  simp [PoolStore.drainAhead, PoolStore.workAhead, awaiting, RequestQueue.size]

theorem Runs.shared (runs : desk.Runs) (batchSize : Nat) (unpushed : act.mutation? = none)
    (kept : act.keepsClock = true) :
    (desk.shared batchSize act).store.isDraining = false ∨
      GoesOn [act] desk (desk.shared batchSize act) := by
  cases act with
  | others client clock =>
      exact .inr ⟨⟨runs.draining, runs.alive, kept⟩, .inr ⟨rfl, rfl, by simp, by simp⟩⟩
  | solo soloAct =>
      cases soloAct with
      | desk deskAct =>
          cases deskAct with
          | push mutation => cases unpushed
          | work => exact runs.work
          | notify | shutDown =>
              exact .inr ⟨⟨runs.draining, runs.alive, runs.clock⟩, .inr ⟨rfl, rfl, by simp, by simp⟩⟩
          | tick now =>
              exact .inr ⟨⟨runs.draining, runs.alive, rfl⟩, .inr ⟨rfl, rfl, by simp, by simp⟩⟩
      | finishUpdate =>
          simp only [Desk.shared, solo]
          cases finished : PoolStore.finishUpdate? (desk.store, desk.around) with
          | none =>
              refine .inr ⟨runs, .inr ⟨rfl, rfl, by simp, fun _ => ?_⟩⟩
              cases phase : desk.store.phase <;>
                simp [PoolStore.finishUpdate?, phase] at finished <;> rfl
          | some result =>
              obtain ⟨next, after⟩ := result
              obtain ⟨batch, change, delay, reply, client, awaiting, rfl, rfl, -⟩ :=
                PoolStore.end_of_finishUpdate? finished
              exact .inr (runs.concluding awaiting)
      | abandonUpdate =>
          simp only [Desk.shared, solo]
          cases abandoned : PoolStore.abandonUpdate? (desk.store, desk.around) with
          | none =>
              refine .inr ⟨runs, .inr ⟨rfl, rfl, by simp, fun _ => ?_⟩⟩
              cases phase : desk.store.phase <;>
                simp [PoolStore.abandonUpdate?, phase] at abandoned <;> rfl
          | some result =>
              obtain ⟨next, after⟩ := result
              obtain ⟨batch, change, delay, client, awaiting, rfl, rfl, -⟩ :=
                PoolStore.end_of_abandonUpdate? abandoned
              exact .inr (runs.concluding awaiting)

theorem GoesOn.trans {acts : List SharedAct} {middle last : Desk}
    (early : GoesOn [act] desk middle) (late : GoesOn acts middle last) :
    GoesOn (act :: acts) desk last := by
  refine ⟨late.1, ?_⟩
  rcases early.2, late.2 with ⟨less | stays, less' | stays'⟩
  · exact .inl (Nat.lt_trans less' less)
  · exact .inl (stays'.ahead ▸ less)
  · exact .inl (stays.ahead ▸ less')
  · refine .inr ⟨stays'.phase.trans stays.phase, stays'.ahead.trans stays.ahead, ?_, ?_⟩
    · intro member
      rcases List.mem_cons.mp member with rfl | member
      · exact stays.worked List.mem_cons_self
      · exact stays.phase ▸ stays'.worked member
    · rintro (member | member)
      · rcases List.mem_cons.mp member with rfl | member
        · exact stays.ended (.inl List.mem_cons_self)
        · exact stays.phase ▸ stays'.ended (.inl member)
      · rcases List.mem_cons.mp member with rfl | member
        · exact stays.ended (.inr List.mem_cons_self)
        · exact stays.phase ▸ stays'.ended (.inr member)

theorem Runs.runShared (runs : desk.Runs) (batchSize : Nat) {acts : List SharedAct}
    (quiet : ∀ act ∈ acts, act.mutation? = none ∧ act.keepsClock = true) :
    (∃ front, front <+: acts ∧ (desk.runShared batchSize front).store.isDraining = false) ∨
      GoesOn acts desk (desk.runShared batchSize acts) := by
  induction acts generalizing desk with
  | nil => exact .inr ⟨runs, .inr ⟨rfl, rfl, by simp, by simp⟩⟩
  | cons act rest ih =>
      obtain ⟨unpushed, kept⟩ := quiet act List.mem_cons_self
      rcases runs.shared batchSize unpushed kept with rests | goesOn
      · exact .inl ⟨[act], ⟨rest, rfl⟩, rests⟩
      · rcases ih goesOn.1 fun later member => quiet later (List.mem_cons_of_mem _ member) with
          ⟨front, within, rests⟩ | late
        · exact .inl ⟨act :: front, List.cons_prefix_cons.mpr ⟨rfl, within⟩, rests⟩
        · exact .inr (goesOn.trans late)

/-- Every round brings a worker that drains closer to its rest. -/
theorem Runs.round (runs : desk.Runs) (batchSize : Nat) {acts : List SharedAct} (round : IsRound acts)
    (quiet : ∀ act ∈ acts, act.mutation? = none ∧ act.keepsClock = true) :
    (∃ front, front <+: acts ∧ (desk.runShared batchSize front).store.isDraining = false) ∨
      (desk.runShared batchSize acts).Runs ∧
        (desk.runShared batchSize acts).store.drainAhead < desk.store.drainAhead := by
  refine (runs.runShared batchSize quiet).imp_right fun goesOn => ⟨goesOn.1, goesOn.2.resolve_right ?_⟩
  intro stays
  have waits := stays.worked round.1
  rw [stays.ended round.2] at waits
  contradiction

/-- After enough rounds the worker has come to rest. -/
theorem Runs.rests (runs : desk.Runs) {rounds : List (List SharedAct)}
    (round : ∀ acts ∈ rounds, IsRound acts)
    (quiet : ∀ act ∈ rounds.flatten, act.mutation? = none ∧ act.keepsClock = true)
    (enough : desk.store.drainAhead < rounds.length) :
    ∃ front, front <+: rounds.flatten ∧
      (desk.runShared batchSize front).store.isDraining = false := by
  induction rounds generalizing desk with
  | nil => exact absurd enough (Nat.not_lt_zero _)
  | cons acts rest ih =>
      rw [List.flatten_cons] at quiet ⊢
      rcases runs.round batchSize (round acts List.mem_cons_self)
          (fun act member => quiet act (List.mem_append_left _ member)) with
        ⟨front, within, rests⟩ | ⟨onward, less⟩
      · exact ⟨front, within.trans (List.prefix_append _ _), rests⟩
      · rw [List.length_cons] at enough
        obtain ⟨front, within, rests⟩ := ih onward
          (fun acts member => round acts (List.mem_cons_of_mem _ member))
          (fun act member => quiet act (List.mem_append_right _ member)) (by omega)
        refine ⟨acts ++ front, (List.prefix_append_right_inj acts).mpr within, ?_⟩
        rw [Desk.runShared, List.foldl_append]
        exact rests

/-- Whatever is done to a queue: the batches and what waits are the accepted requests in their order,
every batch is as long as the limit and the queue allow, and a closed queue hands every request back.
While nothing is queued, a worker that drains takes one portion after the other, none of them empty and
no more than it takes; when it rests, it has taken all and the queue is empty. It comes to rest if it
gets to work and its updates end. -/
theorem queue_drained_in_order (acts : List QueueAct) (desk : Desk) (batchSize : Nat)
    (positive : 0 < batchSize) (taking : desk.store.phase = .taking) :
    let intake := Intake.start.run acts
    let isOther (act : QueueAct) : Bool := !act.isClose
    let batches := desk.store.queue.size ⌈/⌉ batchSize
    (intake.withdrawals.flatMap Withdrawal.requests ++ intake.queue.waiting = intake.accepted ∧
      intake.accepted = (acts.takeWhile isOther).filterMap QueueAct.request? ∧
      intake.returned = (acts.dropWhile isOther).filterMap QueueAct.request? ∧
      (∀ withdrawal ∈ intake.withdrawals,
        withdrawal.requests.length = min withdrawal.limit withdrawal.size) ∧
      (.close ∈ acts → ∀ request, intake.queue.offer request = .error request ∧
        intake.act (.push request) = { intake with returned := intake.returned ++ [request] })) ∧
    (∀ work : List SharedAct, (∀ act ∈ work, act.mutation? = none) →
      let after := desk.runShared batchSize work
      ∃ count ≤ batches,
        after.log.batches.map Taken.requests = desk.log.batches.map Taken.requests ++
          (List.range count).map (desk.store.queue.portion batchSize) ∧
        (∀ index < count, desk.store.queue.portion batchSize index ≠ []) ∧
        after.store.queue.waiting = desk.store.queue.waiting.drop (count * batchSize) ∧
        (after.store.isDraining = false → count = batches ∧ after.store.queue.waiting = [])) ∧
    ∀ rounds : List (List SharedAct), (∀ acts ∈ rounds, IsRound acts) →
      (∀ act ∈ rounds.flatten, act.mutation? = none ∧ act.keepsClock = true) →
      desk.around.clock.isSome = true → 10 * desk.store.queue.size + 4 < rounds.length →
      ∃ front, front <+: rounds.flatten ∧
        (desk.runShared batchSize front).store.isDraining = false := by
  refine ⟨?_, ?_, ?_⟩
  · have whole := Intake.whole_start.run acts
    have opened : Intake.start.queue.isClosed = false := rfl
    obtain ⟨closes, accepted, returned⟩ := Intake.run_opened opened acts
    refine ⟨whole.parts, accepted, returned, whole.sizes, fun member request => ?_⟩
    have closed : (Intake.start.run acts).queue.isClosed = true :=
      closes.trans (List.any_eq_true.mpr ⟨.close, member, rfl⟩)
    exact ⟨RequestQueue.offer_closed closed request, Intake.push_closed closed request⟩
  · intro work unpushed
    obtain ⟨count, drains⟩ := (drains_start taking batchSize).runShared positive unpushed
    refine ⟨count, drains.count_le positive, drains.batches, drains.filled, drains.waiting, ?_⟩
    exact fun rests => ⟨drains.count_of_rest positive rests, drains.rested rests⟩
  · intro rounds round quiet clock enough
    have runs : desk.Runs :=
      ⟨by simp [PoolStore.isDraining, Phase.isDraining, taking], by simp [taking], clock⟩
    exact runs.rests round quiet
      (Nat.lt_of_le_of_lt (PoolStore.drainAhead_taking taking) enough)

/-- A worker that has been woken for three requests. -/
def wokenSample : Desk :=
  [SharedAct.solo (.desk (.push (.ofTransition (.deposit 5)))),
    .solo (.desk (.push (.ofTransition (.release ⟨"claim"⟩)))),
    .solo (.desk (.push (.ofTransition (.deposit 7)))), .solo (.desk .notify),
    .solo (.desk .work)].foldl (shared 2) (.start sampleStart sampleAround)

def sampleRound : List SharedAct :=
  [.solo (.desk .work), .solo .abandonUpdate, .others sampleClient (some .epoch)]

theorem queue_drained_in_order_woken :
    0 < 2 ∧ wokenSample.store.phase = .taking ∧ wokenSample.store.queue.size = 3 ∧
    ∃ front, front <+: (List.replicate 35 sampleRound).flatten ∧
      let after := wokenSample.runShared 2 front
      after.store.isDraining = false ∧ after.store.queue.waiting = [] ∧
      after.log.batches.map Taken.ids = [[0, 1], [2]] := by
  have taking : wokenSample.store.phase = .taking := rfl
  have round : IsRound sampleRound :=
    ⟨List.mem_cons_self, .inr (List.mem_cons_of_mem _ List.mem_cons_self)⟩
  have quiet : ∀ act ∈ sampleRound, act.mutation? = none ∧ act.keepsClock = true := by
    simp [sampleRound, SharedAct.mutation?, SoloAct.mutation?, SharedAct.keepsClock]
  obtain ⟨-, drained, comes⟩ := queue_drained_in_order [] wokenSample 2 (by decide) taking
  obtain ⟨front, within, rests⟩ := comes (List.replicate 35 sampleRound)
    (fun acts member => List.eq_of_mem_replicate member ▸ round)
    (by
      intro act member
      obtain ⟨acts, listed, held⟩ := List.mem_flatten.mp member
      exact quiet act (List.eq_of_mem_replicate listed ▸ held))
    rfl (by decide)
  refine ⟨by decide, taking, rfl, front, within, rests, ?_⟩
  have unpushed : ∀ act ∈ front, act.mutation? = none := by
    intro act member
    obtain ⟨acts, listed, held⟩ := List.mem_flatten.mp (within.subset member)
    exact (quiet act (List.eq_of_mem_replicate listed ▸ held)).1
  obtain ⟨count, -, batches, -, -, done⟩ := drained front unpushed
  obtain ⟨two, empty⟩ := done rests
  refine ⟨empty, ?_⟩
  have ids := congrArg (List.map (List.map Request.id)) batches
  rw [List.map_map, two] at ids
  exact ids

end Desk

end ClaimStore
