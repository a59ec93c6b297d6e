import ClaimStore.Proofs.Shutdown.Accounts

/-!
A shutdown loses nothing.

A worker that is told to stop closes its queue before it looks into it for the last time. What comes
before that is served, and what comes after it is rejected. A store is created only as long as there
has been no shutdown, so the call waits for every worker that there will ever be.
-/
namespace ClaimStore

/-- The call waits for the workers of all stores, and returns when they have stopped. -/
def ShutdownCall.Waits (reception : Reception) : ShutdownCall → Prop
  | .absent => True
  | .waiting pools =>
      reception.registry.isShutDown = true ∧ reception.created.map Prod.fst = pools
  | .returned =>
      reception.registry.isShutDown = true ∧
        ∀ key store, reception.registry.find? key = some store → store.phase = .stopped

namespace Closing

/-- What holds at any time for the registry and for the history of a pool. -/
structure Sound (watched : PoolKey) (closing : Closing) : Prop where
  reception : closing.reception.Sound
  lively : closing.reception.Lively
  distinct : closing.reception.Distinct
  recorded : closing.Recorded watched
  waits : closing.call.Waits closing.reception

/-- A request has been given this answer and no other one. -/
def Resolved (closing : Closing) (id : Nat) (answer : Answer) : Prop :=
  ∀ given, (id, given) ∈ closing.registry.answers ↔ given = answer

/-- What has become of the stores and of the requests of a pool when the call returns, and that
nothing happens after it. -/
structure Complete (watched : PoolKey) (closing : Closing) : Prop where
  stopped : ∀ key store, closing.registry.find? key = some store →
    store.phase = .stopped ∧ store.queue.isClosed = true ∧ store.queue.waiting = []
  /-- No request has come twice, or both been queued and rejected. -/
  once : closing.history.numbers.Nodup
  applied : closing.history.applied.map Prod.fst = closing.history.queued
  /-- Each request whose mutation has succeeded has been in one batch. -/
  batched : closing.history.ended.flatMap Prod.fst = closing.history.accepted
  failed : ∀ request state failure, (request, state) ∈ closing.history.applied →
    request.mutation state = .error failure → closing.Resolved request.id (.failed failure)
  settled : ∀ request state next, (request, state) ∈ closing.history.applied →
    request.mutation state = .ok next →
    ∃ batch isCommitted, (batch, isCommitted) ∈ closing.history.ended ∧ request.id ∈ batch ∧
      closing.Resolved request.id (.ofCommit isCommitted)
  rejected : ∀ id ∈ closing.history.rejected, closing.Resolved id .shutDown ∧
    ∀ request state, (request, state) ∈ closing.history.applied → request.id ≠ id
  /-- No worker is created any more. -/
  created : ∀ later, (closing.run watched later).reception.created = closing.reception.created
  /-- Who asks for a store now is refused at once and for good. -/
  refused : ∀ earlier key later, let asked := closing.run watched earlier
    (asked.run watched (.reception (.ask key) :: later)).reception.calls[
      asked.reception.calls.length]? = some (.refused key .shutDown)

variable {watched : PoolKey} {closing : Closing}

/-- The call returns when all for whom it waits have come to an end, and changes nothing that others
depend on. -/
theorem finish_cases (closing : Closing) :
    closing.finish = closing ∨ ∃ pools, closing.call = .waiting pools ∧
      closing.areOver pools = true ∧
      closing.finish =
        { closing with
          reception := { closing.reception with registry := closing.registry.concludeShutdown }
          call := .returned } := by
  cases call : closing.call with
  | absent | returned => simp [finish, call]
  | waiting pools =>
      cases halted : closing.areOver pools with
      | false => simp [finish, call, halted]
      | true => exact .inr ⟨pools, rfl, halted, by simp [finish, call, halted]⟩

theorem waits_act (waits : closing.call.Waits closing.reception)
    (sound : closing.reception.Sound) (act : ReceptionAct) :
    (closing.callAfter act).Waits (closing.reception.act act) := by
  cases call : closing.call with
  | absent =>
      cases act with
      | shutDown =>
          simp only [callAfter, call]
          exact ⟨rfl, rfl⟩
      | _ =>
          simp only [callAfter, call]
          trivial
  | waiting pools =>
      rw [call] at waits
      obtain ⟨isDown, created⟩ := waits
      obtain ⟨still, same⟩ := Reception.shut_act isDown act
      have after : closing.callAfter act = .waiting pools := by
        cases act <;> simp only [callAfter, call]
      rw [after]
      exact ⟨still, same ▸ created⟩
  | returned =>
      rw [call] at waits
      obtain ⟨isDown, stopped⟩ := waits
      have after : closing.callAfter act = .returned := by
        cases act <;> simp only [callAfter, call]
      rw [after]
      exact ⟨(Reception.shut_act isDown act).1, Reception.stopped_act sound isDown stopped act⟩

theorem Sound.stopped (sound : closing.Sound watched) {pools : List PoolKey}
    (call : closing.call = .waiting pools) (halted : closing.areOver pools = true) :
    closing.registry.isShutDown = true ∧
      ∀ key store, closing.registry.find? key = some store → store.phase = .stopped := by
  have waits := sound.waits
  rw [call] at waits
  obtain ⟨isDown, created⟩ := waits
  refine ⟨isDown, ?_⟩
  intro key store found
  have member : key ∈ pools := by
    rw [← created, ← sound.reception.stocked.stored]
    exact Option.isSome_iff_exists.mpr ⟨store, found⟩
  have ended := List.all_eq_true.mp halted key member
  rw [found, Option.any_some] at ended
  cases phase : store.phase with
  | stopped => rfl
  | died => exact absurd phase (sound.lively.lives key store found).alive
  | idle | taking | applying | awaiting | concluding | adopting | resolving =>
      rw [phase] at ended
      cases ended

theorem Sound.finish (sound : closing.Sound watched) : closing.finish.Sound watched := by
  rcases closing.finish_cases with same | ⟨pools, call, halted, finished⟩
  · rw [same]
    exact sound
  · have stopped := sound.stopped call halted
    obtain ⟨⟨orderly, stocked⟩, ⟨clock, lives⟩, ⟨once, early, kept, apart⟩, recorded, -⟩ := sound
    obtain ⟨absent, keeps, single, numbered, refused⟩ := recorded
    rw [finished]
    exact ⟨⟨orderly.frame rfl rfl rfl id, stocked.frame rfl rfl rfl⟩, ⟨clock, lives⟩,
      ⟨once, early, kept, apart⟩, ⟨absent, keeps, single, numbered, refused⟩, stopped⟩

theorem Sound.act (sound : closing.Sound watched) (act : ClosingAct)
    (clock : ∀ client, act ≠ .reception (.others client none)) :
    (closing.act watched act).Sound watched := by
  cases act with
  | finish => exact sound.finish
  | reception act =>
      obtain ⟨reception, lively, distinct, recorded, waits⟩ := sound
      have alive := lively.act reception fun client same =>
        clock client (congrArg ClosingAct.reception same)
      exact ⟨⟨reception.orderly.act act, reception.stocked.act reception.orderly act⟩, alive,
        distinct.act reception act, recorded.act reception act alive, waits_act waits reception act⟩

theorem Sound.run (sound : closing.Sound watched) (acts : List ClosingAct)
    (clock : ∀ client, .reception (.others client none) ∉ acts) :
    (closing.run watched acts).Sound watched := by
  induction acts generalizing closing with
  | nil => exact sound
  | cons first rest ih =>
      have other : ∀ client, first ≠ .reception (.others client none) := by
        intro client same
        exact clock client (same ▸ List.mem_cons_self)
      exact ih (sound.act first other) fun client member =>
        clock client (List.mem_cons_of_mem _ member)

theorem sound_start {options : Options} {now : Timestamp} {registry : Registry}
    (made : Registry.create options now = .ok registry) (client : Client) (watched : PoolKey) :
    (start registry client).Sound watched := by
  have reception := Reception.sound_start made client
  have distinct := Reception.distinct_start made client
  unfold Registry.create at made
  split at made
  · cases made
  · cases made
    refine ⟨reception, ⟨rfl, ?_⟩, distinct, recorded_start client rfl, trivial⟩
    intro key store found
    cases found

/-- The registry stays shut down, and no store is created. -/
theorem shut_run (isDown : closing.registry.isShutDown = true) (acts : List ClosingAct) :
    (closing.run watched acts).registry.isShutDown = true ∧
      (closing.run watched acts).reception.created = closing.reception.created := by
  induction acts generalizing closing with
  | nil => exact ⟨isDown, rfl⟩
  | cons first rest ih =>
      have step : (closing.act watched first).registry.isShutDown = true ∧
          (closing.act watched first).reception.created = closing.reception.created := by
        cases first with
        | reception act => exact Reception.shut_act isDown act
        | finish =>
            simp only [act]
            rcases closing.finish_cases with same | ⟨pools, -, -, finished⟩
            · rw [same]
              exact ⟨isDown, rfl⟩
            · rw [finished]
              exact ⟨isDown, rfl⟩
      obtain ⟨still, created⟩ := ih step.1
      exact ⟨still, created.trans step.2⟩

theorem failed_run {index : Nat} {call : Call}
    (held : closing.reception.calls[index]? = some call) (failed : call.hasFailed = true)
    (acts : List ClosingAct) :
    (closing.run watched acts).reception.calls[index]? = some call := by
  induction acts generalizing closing with
  | nil => exact held
  | cons first rest ih =>
      apply ih
      cases first with
      | reception act => exact Reception.failed_act held failed act
      | finish =>
          simp only [act]
          rcases closing.finish_cases with same | ⟨pools, -, -, finished⟩
          · rw [same]
            exact held
          · rw [finished]
            exact held

/-- What the history of a pool says when there is no request left with its worker. -/
theorem Sound.history (sound : closing.Sound watched)
    (stopped : ∀ key store, closing.registry.find? key = some store →
      store.phase = .stopped ∧ store.queue.isClosed = true ∧ store.queue.waiting = []) :
    closing.history.applied.map Prod.fst = closing.history.queued ∧
      closing.history.ended.flatMap Prod.fst = closing.history.accepted ∧
      History.Told closing.history.ended closing.registry.answers ∧
      ∀ request state failure, (request, state) ∈ closing.history.applied →
        request.mutation state = .error failure →
        (request.id, .failed failure) ∈ closing.registry.answers := by
  cases found : closing.registry.find? watched with
  | none =>
      rw [sound.recorded.absent found]
      refine ⟨rfl, rfl, ?_, ?_⟩
      · intro batch isCommitted ended
        cases ended
      · intro request state failure run
        cases run
  | some store =>
      obtain ⟨phase, -, empty⟩ := stopped watched store found
      obtain ⟨stream, accepted, failed, settles⟩ := sound.recorded.keeps store found
      rw [phase] at settles
      refine ⟨?_, ?_, settles, failed⟩
      · rw [stream, PoolStore.unapplied, phase, empty, List.append_nil]
        simp
      · rw [accepted, PoolStore.uncommitted, phase, List.append_nil]

theorem Sound.complete (sound : closing.Sound watched) (returned : closing.call = .returned) :
    closing.Complete watched := by
  obtain ⟨isDown, halted⟩ : closing.registry.isShutDown = true ∧
      ∀ key store, closing.registry.find? key = some store → store.phase = .stopped := by
    have waits := sound.waits
    rw [returned] at waits
    exact waits
  have stopped : ∀ key store, closing.registry.find? key = some store →
      store.phase = .stopped ∧ store.queue.isClosed = true ∧ store.queue.waiting = [] := by
    intro key store found
    have phase := halted key store found
    exact ⟨phase, (sound.lively.lives key store found).stopped phase⟩
  obtain ⟨applied, batched, told, failed⟩ := sound.history stopped
  have resolved : ∀ {id answer}, (id, answer) ∈ closing.registry.answers →
      closing.Resolved id answer := fun given => sound.distinct.only given
  refine ⟨stopped, sound.recorded.once, applied, batched, ?_, ?_, ?_, ?_, ?_⟩
  · intro request state failure run fails
    exact resolved (failed request state failure run fails)
  · intro request state next run succeeds
    have accepted : request.id ∈ closing.history.accepted := by
      refine List.mem_map.mpr ⟨(request, state), List.mem_filter.mpr ⟨run, ?_⟩, rfl⟩
      rw [succeeds]
      rfl
    rw [← batched] at accepted
    obtain ⟨⟨batch, isCommitted⟩, ended, member⟩ := List.mem_flatMap.mp accepted
    exact ⟨batch, isCommitted, ended, member, resolved (told batch isCommitted ended _ member)⟩
  · intro id member
    refine ⟨resolved (sound.recorded.refused id member), ?_⟩
    intro request state run same
    have queued : request ∈ closing.history.queued := by
      rw [← applied]
      exact List.mem_map.mpr ⟨(request, state), run, rfl⟩
    obtain ⟨-, -, apart⟩ := List.nodup_append.mp sound.recorded.once
    exact apart request.id (List.mem_map_of_mem queued) id member same
  · intro later
    exact (shut_run isDown later).2
  · intro earlier key later asked
    have down : asked.registry.isShutDown = true := (shut_run isDown earlier).1
    have told : (asked.reception.ask key).calls[asked.reception.calls.length]? =
        some (.refused key .shutDown) := by
      have isDown : asked.reception.registry.isShutDown = true := down
      simp [Reception.ask, isDown]
    exact failed_run told rfl later

/-- However many callers queue requests and have stores loaded while the workers are told to stop:
when the call returns, all workers have stopped with their queues closed and empty. Every request of
a pool that was queued has been run, and has been told its own failure or how its batch has ended.
Every one that found the queue closed has been told so, and has not been run. No worker is created
any more, and who asks for a store is refused. The clock must not fail, since a worker that cannot
tell the time dies with its batch. -/
theorem shutdown_loses_nothing {options : Options} {now : Timestamp} {registry : Registry}
    (made : Registry.create options now = .ok registry) (client : Client) (watched : PoolKey)
    (acts : List ClosingAct) (clock : ∀ client, .reception (.others client none) ∉ acts)
    (returned : ((start registry client).run watched acts).call = .returned) :
    ((start registry client).run watched acts).Complete watched :=
  ((sound_start made client watched).run acts clock).complete returned

/-- A request is queued before the shutdown, another one before the queue is closed, and a third one
after that, while a load is under way. -/
def sampleCalls : List ReceptionAct :=
  [.ask Desk.samplePool, .enter 0, .load 0 .shortest, .load 0 .shortest, .install 0, .settle 0,
    .push 0 (.ofTransition (.deposit 5)), .notify 0, .ask ⟨"h", "t", "i", "n", "other"⟩, .enter 1,
    .load 1 .shortest, .shutDown, .push 0 .keep, .work Desk.samplePool, .push 0 .keep]

def sampleWork : List ReceptionAct :=
  List.replicate 4 (.work Desk.samplePool) ++
    .finishUpdate Desk.samplePool :: List.replicate 6 (.work Desk.samplePool)

/-- The load comes to its end when the call has returned. -/
def sampleActs : List ClosingAct :=
  (sampleCalls ++ sampleWork).map .reception ++
    [.finish, .reception (.load 1 .shortest), .reception (.install 1)]

theorem shutdown_loses_nothing_late :
    Registry.create Fleet.sampleOptions .epoch = .ok Fleet.sampleRegistry ∧
      (∀ client, .reception (.others client none) ∉ sampleActs) ∧
      let closing := (start Fleet.sampleRegistry .empty).run Desk.samplePool sampleActs
      closing.call = .returned ∧ closing.history.queued.map Request.id = [0, 1] ∧
        closing.history.rejected = [2] ∧ closing.Complete Desk.samplePool := by
  have clock : ∀ client, .reception (.others client none) ∉ sampleActs := by
    intro client
    simp [sampleActs, sampleCalls, sampleWork]
  have facts : let closing := (start Fleet.sampleRegistry .empty).run Desk.samplePool sampleActs
      closing.call = .returned ∧ closing.history.queued.map Request.id = [0, 1] ∧
        closing.history.rejected = [2] := by
    decide +kernel
  obtain ⟨returned, queued, rejected⟩ := facts
  exact ⟨Fleet.sampleRegistry_created, clock, returned, queued, rejected,
    shutdown_loses_nothing Fleet.sampleRegistry_created .empty Desk.samplePool sampleActs clock
      returned⟩

end Closing

end ClaimStore
