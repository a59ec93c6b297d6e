import ClaimStore.Config.Options
import ClaimStore.Proofs.Resolving

/-!
Triggers are not lost.

Those who queue requests notify the worker afterwards, and other things can happen between the two.
A notification wakes a worker that waits, or is kept for the next time that it waits.
-/
namespace ClaimStore

theorem Options.batchSize_pos (options : Options) : 0 < options.batchSize :=
  Limit.toNat_pos _

namespace PoolStore

/-- Notifies the worker, which wakes at once or finds the trigger when it waits. -/
def notify (store : PoolStore) (wakes : Bool) : PoolStore :=
  match wakes, store.phase with
  | true, .idle => { store with phase := .taking }
  | _, _ => store.trigger

/-- After a notification the worker is awake, or it will find the trigger. -/
theorem notify_cases (store : PoolStore) (wakes : Bool) :
    store.notify wakes = { store with phase := .taking } ∨ store.notify wakes = store.trigger := by
  unfold notify
  split
  · exact .inl rfl
  · exact .inr rfl

/-- A worker pauses only when it has found the queue empty. It stops if the queue is closed, and
rests otherwise. -/
theorem pause_of_step? {batchSize : Nat} {isShutDown : Bool}
    {before after : PoolStore × Surroundings} (positive : 0 < batchSize)
    (stepped : step? batchSize isShutDown before = some after)
    (pauses : after.1.isDraining = false) :
    after.1.queue.waiting = [] ∧
      after.1.phase = if after.1.queue.isClosed then .stopped else .idle := by
  obtain ⟨store, around⟩ := before
  have taking : store.phase = .taking := by
    cases turn_of_step? stepped with
    | step now step =>
        cases step with
        | rest taking passed => exact taking
        | wake | take | accept | refuse | abandon | send | conclude | adopt | finish | resolve =>
            cases pauses
    | answered | die => cases pauses
  simp only [step?, taking, Option.some.injEq] at stepped
  subst stepped
  have size := store.queue.takeBatch_length batchSize
  unfold take at pauses ⊢
  split at pauses
  · rename_i taken
    rw [taken, RequestQueue.size, List.length_nil] at size
    exact ⟨List.length_eq_zero_iff.mp (by simp only; omega), rfl⟩
  · cases pauses

/-- A worker goes to rest only when it has found the queue empty and open. -/
theorem rest_of_step? {batchSize : Nat} {isShutDown : Bool}
    {before after : PoolStore × Surroundings} (positive : 0 < batchSize)
    (stepped : step? batchSize isShutDown before = some after)
    (rests : after.1.phase = .idle) :
    after.1.queue.waiting = [] ∧ after.1.queue.isClosed = false := by
  obtain ⟨empty, paused⟩ := pause_of_step? positive stepped
    (by rw [isDraining, rests]; rfl)
  refine ⟨empty, ?_⟩
  rw [rests] at paused
  split at paused
  · cases paused
  · rename_i opened
    exact Bool.not_eq_true _ ▸ opened

end PoolStore

/-- A pool with those who have queued requests and have not notified the worker of them yet. -/
structure Lobby where
  desk : Desk
  notifying : List Nat

/-- What happens at a pool: somebody queues a request, notifies the worker of one, the worker takes a
step, its update ends or is given up, it is told to stop, or others change what is around it. -/
inductive LobbyAct
  | push (mutation : Mutation)
  | notify (request : Nat) (wakes : Bool)
  | work
  | finishUpdate
  | abandonUpdate
  | shutDown
  | others (client : Client) (clock : Option Timestamp)

namespace Lobby

def start (desk : Desk) : Lobby := ⟨desk, []⟩

/-- Whoever has queued a request has the worker to notify, unless the queue was closed. -/
def act (batchSize : Nat) (lobby : Lobby) : LobbyAct → Lobby
  | .push mutation =>
      { desk := lobby.desk.push mutation
        notifying :=
          if lobby.desk.store.queue.isClosed then lobby.notifying
          else lobby.notifying ++ [lobby.desk.requests] }
  | .notify request wakes =>
      if request ∈ lobby.notifying then
        { desk := { lobby.desk with store := lobby.desk.store.notify wakes }
          notifying := lobby.notifying.erase request }
      else lobby
  | .work => { lobby with desk := lobby.desk.act batchSize .work }
  | .finishUpdate => { lobby with desk := lobby.desk.solo batchSize .finishUpdate }
  | .abandonUpdate => { lobby with desk := lobby.desk.solo batchSize .abandonUpdate }
  | .shutDown => { lobby with desk := lobby.desk.act batchSize .shutDown }
  | .others client clock => { lobby with desk := lobby.desk.shared batchSize (.others client clock) }

def run (batchSize : Nat) (acts : List LobbyAct) (lobby : Lobby) : Lobby :=
  acts.foldl (act batchSize) lobby

/-- Nobody is going to rouse the worker: it waits, and no trigger is kept or still to come. -/
def Sleeps (lobby : Lobby) : Prop :=
  lobby.desk.store.phase = .idle ∧ lobby.desk.store.isTriggered = false ∧ lobby.notifying = []

/-- The requests in the batch that is being applied are the last ones taken, and none were taken in
vain. -/
structure Busy (desk : Desk) : Prop where
  filled : ∀ taken ∈ desk.log.batches, taken.requests ≠ []
  applying : ∀ batch rest, desk.store.phase = .applying batch rest →
    ∃ earlier taken done, desk.log.batches = earlier ++ [taken] ∧
      taken.requests = done ++ rest ∧ batch = taken.after done

/-- As long as requests wait, the worker is busy or is going to be roused. -/
structure Attended (lobby : Lobby) : Prop where
  roused : lobby.Sleeps → lobby.desk.store.queue.waiting = []
  opened : lobby.desk.store.phase = .idle → lobby.desk.store.queue.isClosed = false
  busy : Busy lobby.desk

variable {lobby : Lobby} {desk : Desk} {batchSize : Nat} {next : PoolStore} {after : Surroundings}

theorem Busy.turn (busy : Busy desk)
    (turn : PoolStore.Turn (desk.store, desk.around) (next, after)) :
    Busy (desk.update (some (next, after))) := by
  -- Only taking a batch adds to the log, so elsewhere the last batch is still the one in hand.
  have onward : desk.store.phase ≠ .taking →
      (∀ batch rest, next.phase = .applying batch rest →
        ∃ earlier taken done, desk.log.batches = earlier ++ [taken] ∧
          taken.requests = done ++ rest ∧ batch = taken.after done) →
      Busy (desk.update (some (next, after))) := by
    intro other applying
    have same : desk.log.note desk.store next = desk.log := desk.log.note_of_ne next other
    simp only [Desk.update, same]
    exact ⟨busy.filled, applying⟩
  have passed : ∀ phase, desk.store.phase = phase → phase ≠ .taking →
      (∀ batch rest, next.phase ≠ .applying batch rest) →
      Busy (desk.update (some (next, after))) := by
    intro phase here other none
    exact onward (here ▸ other) fun batch rest applying => absurd applying (none batch rest)
  cases turn with
  | step now step =>
      cases step with
      | wake idle => exact passed _ idle (by simp) (by simp)
      | rest taking rests =>
          refine ⟨?_, ?_⟩
          · intro taken member
            apply busy.filled taken
            rcases rests with rfl | rfl <;> simpa [Desk.update, Log.note, taking] using member
          · intro batch rest applying
            rcases rests with rfl | rfl <;> cases applying
      | take requests waiting taking split some =>
          refine ⟨?_, ?_⟩
          · intro taken member
            simp only [Desk.update, Log.note, taking] at member
            rcases List.mem_append.mp member with early | last
            · exact busy.filled taken early
            · rw [List.mem_singleton.mp last]
              exact some
          · intro batch rest applying
            cases applying
            refine ⟨desk.log.batches, ⟨desk.store.snapshot, requests⟩, [], ?_, rfl, rfl⟩
            simp [Desk.update, Log.note, taking]
      | accept applying accepted =>
          apply onward (by simp [applying])
          obtain ⟨earlier, taken, done, batches, split, rfl⟩ := busy.applying _ _ applying
          rintro _ _ ⟨⟩
          refine ⟨earlier, taken, done ++ [_], batches, ?_, (Taken.after_accept accepted).1.symm⟩
          rw [split, List.append_assoc]
          rfl
      | refuse applying refused =>
          apply onward (by simp [applying])
          obtain ⟨earlier, taken, done, batches, split, rfl⟩ := busy.applying _ _ applying
          rintro _ _ ⟨⟩
          refine ⟨earlier, taken, done ++ [_], batches, ?_, (Taken.after_refuse refused).1.symm⟩
          rw [split, List.append_assoc]
          rfl
      | abandon here | send here | conclude here | adopt here | finish here | resolve here =>
          exact passed _ here (by simp) (by simp)
  | answered here | die here => exact passed _ here (by simp) (by simp)

theorem busy_start (snapshot : Snapshot) (around : Surroundings) :
    Busy (.start snapshot around) := by
  refine ⟨?_, ?_⟩
  · intro taken member
    cases member
  · intro batch rest applying
    cases applying

theorem Busy.work (busy : Busy desk) : Busy (desk.act batchSize .work) := by
  simp only [Desk.act]
  cases worked : PoolStore.step? batchSize desk.isShutDown (desk.store, desk.around) with
  | none => exact busy
  | some result => exact busy.turn (PoolStore.turn_of_step? worked)

theorem Busy.push (busy : Busy desk) (mutation : Mutation) : Busy (desk.push mutation) := by
  cases closed : desk.store.queue.isClosed with
  | true =>
      rw [Desk.push_closed closed]
      exact ⟨busy.filled, busy.applying⟩
  | false =>
      rw [Desk.push_opened closed]
      exact ⟨busy.filled, busy.applying⟩

/-- When an update ends the worker goes on with its batch, and nothing happens to the queue. -/
theorem Attended.concluding (attended : lobby.Attended) {batch : Batch} {conclusion : Conclusion}
    {change : Record} {delay : Nat} {client : Client}
    (awaiting : lobby.desk.store.phase = .awaiting batch change delay) :
    Attended { lobby with
      desk := lobby.desk.update
        (some ({ lobby.desk.store with phase := .concluding batch conclusion },
          { lobby.desk.around with client })) } := by
  rw [Desk.update_concluding awaiting]
  refine ⟨?_, ?_, attended.busy.filled, ?_⟩
  · rintro ⟨idle, -⟩
    cases idle
  · intro idle
    cases idle
  · intro _ _ applying
    cases applying

theorem Attended.push (attended : lobby.Attended) (mutation : Mutation) :
    (lobby.act batchSize (.push mutation)).Attended := by
  have busy := attended.busy.push mutation
  cases closed : lobby.desk.store.queue.isClosed with
  | true =>
      refine ⟨?_, ?_, busy⟩ <;> simp only [act, Sleeps, Desk.push_closed closed, closed, if_true]
      · exact attended.roused
      · exact fun idle => closed.symm.trans (attended.opened idle)
  | false =>
      refine ⟨?_, ?_, busy⟩
      · rintro ⟨-, -, none⟩
        simp [act, closed] at none
      · intro _
        simp only [act, Desk.push_opened closed, closed]

theorem Attended.notify (attended : lobby.Attended) (request : Nat) (wakes : Bool) :
    (lobby.act batchSize (.notify request wakes)).Attended := by
  simp only [act]
  split
  · rcases lobby.desk.store.notify_cases wakes with woken | triggered
    · rw [woken]
      refine ⟨?_, ?_, attended.busy.filled, ?_⟩
      · rintro ⟨idle, -⟩
        cases idle
      · intro idle
        cases idle
      · intro _ _ applying
        cases applying
    · rw [triggered]
      refine ⟨?_, attended.opened, attended.busy.filled, attended.busy.applying⟩
      rintro ⟨-, untriggered, -⟩
      cases untriggered
  · exact attended

theorem Attended.work (attended : lobby.Attended) (positive : 0 < batchSize) :
    (lobby.act batchSize .work).Attended := by
  have busy : Lobby.Busy (lobby.desk.act batchSize .work) := attended.busy.work
  simp only [act, Desk.act] at busy ⊢
  cases worked :
      PoolStore.step? batchSize lobby.desk.isShutDown (lobby.desk.store, lobby.desk.around) with
  | none => exact attended
  | some result =>
      rw [worked] at busy
      refine ⟨?_, ?_, busy⟩
      · rintro ⟨idle, -⟩
        exact (PoolStore.rest_of_step? positive worked idle).1
      · intro idle
        exact (PoolStore.rest_of_step? positive worked idle).2

theorem Attended.act (attended : lobby.Attended) (positive : 0 < batchSize) (lobbyAct : LobbyAct) :
    (lobby.act batchSize lobbyAct).Attended := by
  cases lobbyAct with
  | push mutation => exact attended.push mutation
  | notify request wakes => exact attended.notify request wakes
  | work => exact attended.work positive
  | finishUpdate =>
      simp only [Lobby.act, Desk.solo]
      cases finished : PoolStore.finishUpdate? (lobby.desk.store, lobby.desk.around) with
      | none => exact attended
      | some result =>
          obtain ⟨next, after⟩ := result
          obtain ⟨batch, change, delay, reply, client, awaiting, rfl, rfl, -⟩ :=
            PoolStore.end_of_finishUpdate? finished
          exact attended.concluding awaiting
  | abandonUpdate =>
      simp only [Lobby.act, Desk.solo]
      cases abandoned : PoolStore.abandonUpdate? (lobby.desk.store, lobby.desk.around) with
      | none => exact attended
      | some result =>
          obtain ⟨next, after⟩ := result
          obtain ⟨batch, change, delay, client, awaiting, rfl, rfl, -⟩ :=
            PoolStore.end_of_abandonUpdate? abandoned
          exact attended.concluding awaiting
  | shutDown | others client clock =>
      exact ⟨attended.roused, attended.opened, attended.busy.filled, attended.busy.applying⟩

theorem Attended.run (attended : lobby.Attended) (positive : 0 < batchSize)
    (acts : List LobbyAct) : (lobby.run batchSize acts).Attended := by
  induction acts generalizing lobby with
  | nil => exact attended
  | cons first rest ih => exact ih (attended.act positive first)

/-- A trigger without requests makes the worker look into the queue once, and nothing else. -/
theorem run_needlessly (idle : lobby.desk.store.phase = .idle)
    (triggered : lobby.desk.store.isTriggered = true)
    (running : lobby.desk.isShutDown = false) (opened : lobby.desk.store.queue.isClosed = false)
    (empty : lobby.desk.store.queue.waiting = []) :
    lobby.run batchSize [.work, .work] =
      { lobby with
        desk := { lobby.desk with store := { lobby.desk.store with isTriggered := false } } } := by
  obtain ⟨⟨⟨key, ⟨waiting, isClosed⟩, isTriggered, snapshot, phase⟩, around, isShutDown, requests,
    log⟩, notifying⟩ := lobby
  simp only at idle triggered running opened empty
  subst idle triggered running opened empty
  simp [run, Lobby.act, Desk.act, Desk.update, Log.note, PoolStore.step?, PoolStore.take,
    RequestQueue.takeBatch]

/-- However many queue requests, a worker that nobody is going to rouse has none to serve. A trigger
that is left over makes it look into the queue and rest again. It asks the record store only for a
batch in which there are requests. -/
theorem no_trigger_lost (options : Options) (snapshot : Snapshot) (around : Surroundings)
    (acts : List LobbyAct) :
    let lobby := run options.batchSize acts (start (.start snapshot around))
    (lobby.Sleeps → lobby.desk.store.queue.waiting = []) ∧
    (lobby.desk.store.phase = .idle → lobby.desk.store.isTriggered = true →
      lobby.desk.isShutDown = false → lobby.desk.store.queue.waiting = [] →
      lobby.run options.batchSize [.work, .work] =
        { lobby with
          desk := { lobby.desk with store := { lobby.desk.store with isTriggered := false } } }) ∧
    ((lobby.desk.act options.batchSize .work).around.client ≠ lobby.desk.around.client →
      ∃ earlier taken, lobby.desk.log.batches = earlier ++ [taken] ∧ taken.requests ≠ [] ∧
        lobby.desk.store.phase = .applying taken.batch []) := by
  intro lobby
  have begun : Attended (start (.start snapshot around)) := ⟨fun _ => rfl, fun _ => rfl, busy_start _ _⟩
  have attended : lobby.Attended := begun.run options.batchSize_pos acts
  refine ⟨attended.roused, ?_, ?_⟩
  · intro idle triggered running empty
    exact run_needlessly idle triggered running (attended.opened idle) empty
  · intro asked
    simp only [Desk.act] at asked
    cases worked : PoolStore.step? options.batchSize lobby.desk.isShutDown
        (lobby.desk.store, lobby.desk.around) with
    | none =>
        rw [worked] at asked
        exact absurd rfl asked
    | some result =>
        rw [worked] at asked
        obtain ⟨batch, applying⟩ := PoolStore.applying_of_client worked asked
        obtain ⟨earlier, taken, done, batches, split, rfl⟩ := attended.busy.applying _ _ applying
        rw [List.append_nil] at split
        have member : taken ∈ lobby.desk.log.batches :=
          batches ▸ List.mem_append_right _ List.mem_cons_self
        refine ⟨earlier, taken, batches, attended.busy.filled taken member, ?_⟩
        rw [applying, Taken.batch, split]

end Lobby

end ClaimStore
