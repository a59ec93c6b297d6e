import ClaimStore.Proofs.Readers.System
import ClaimStore.Proofs.Retry.Loops

/-!
How many attempts it takes to get or create a record.

Alone with the record store, a client makes the attempts that the loop over their outcomes makes, and
comes to an end, because every attempt that fails uses up a fault. Whatever others do to the record
store in between, no more attempts are begun than the policy allows.
-/
namespace ClaimStore

namespace Client

variable {client after : Client} {request : ReadRequest} {phase next : ReadPhase} {bound : Nat}

/-- The client after so many attempts, with nothing in between. -/
def attempted (client : Client) (request : ReadRequest) (count : Nat) : Client :=
  (fun current => (current.readOnce request).2)^[count] client

/-- What the attempt leads to that comes after so many others. -/
def attempt (client : Client) (request : ReadRequest) (count : Nat) : Except ReadError Record :=
  ((client.attempted request count).readOnce request).1

theorem attempted_succ (client : Client) (request : ReadRequest) (count : Nat) :
    client.attempted request (count + 1) = ((client.attempted request count).readOnce request).2 :=
  Function.iterate_succ_apply' ..

/-- The attempts are repeated as any other operation is. -/
theorem readAgain_eq (draw : Draw) (client : Client) (request : ReadRequest) (fuel : Nat)
    (cursor : RetryCursor) (calls checks : Nat) :
    readAgain draw request fuel cursor (client.attempted request calls) =
      match cursor.runFrom (fun _ => draw) ReadError.retryable (client.attempt request) fuel calls
        checks with
      | none => (none, client.attempted request (calls + fuel))
      | some repeated => (repeated.outcome, client.attempted request repeated.calls) := by
  induction fuel generalizing cursor calls checks with
  | zero => rfl
  | succ fuel ih =>
      have next := client.attempted_succ request calls
      have outcome : client.attempt request calls =
        ((client.attempted request calls).readOnce request).1 := rfl
      cases once : (client.attempted request calls).readOnce request with
      | mk result after =>
          simp only [once] at next outcome
          cases result with
          | ok found => simp only [readAgain, RetryCursor.runFrom, once, outcome, next]
          | error error =>
              simp only [readAgain, RetryCursor.runFrom, once, outcome]
              cases cursor.recover draw error.retryable with
              | giveUp | impossible => simp only [next]
              | retry later pause =>
                  have rest := ih later (calls + 1) (checks + 1)
                  rwa [next, Nat.add_right_comm, Nat.add_assoc] at rest

/-- How many faults are ahead. -/
def faultsAhead (client : Client) : Nat := client.backend.faults.total

/-- A reading uses up a fault or tells what is stored. -/
theorem getOne_faults (client : Client) (key : String) :
    (∃ error after, client.getOne key = (.error error, after) ∧
        after.faultsAhead < client.faultsAhead) ∨
      ∃ after, client.getOne key = (.ok (client.backend.records.find? key), after) ∧
        after.backend = client.backend := by
  simp only [getOne, get, record, Backend.get]
  split
  · refine .inl ⟨_, _, rfl, ?_⟩
    simp only [faultsAhead, Faults.total]
    omega
  · split
    · refine .inl ⟨_, _, rfl, ?_⟩
      simp only [faultsAhead, Faults.total]
      omega
    · refine .inr ⟨⟨client.backend, client.meters.add .get true⟩, ?_, rfl⟩
      simp only [Except.map, Records.find?_select]

/-- A creation under a free key uses up a fault or succeeds. -/
theorem create_faults (absent : client.backend.records.find? request.key = none) :
    (client.create [request.record]).2.faultsAhead < client.faultsAhead ∨
      (client.create [request.record]).1 = .ok [] := by
  simp only [create, record, Backend.create]
  split
  · left
    simp only [faultsAhead, Faults.total]
    omega
  · split
    · left
      simp only [faultsAhead, Faults.total]
      omega
    · right
      simp [Records.create, ReadRequest.record, Table.contains, absent]

/-- What an attempt that is made alone keeps to: if it fails, it has used up one of so many faults. -/
def Pays (bound : Nat) (request : ReadRequest) (client : Client) : ReadPhase → Prop
  | .reading => client.faultsAhead ≤ bound
  | .creating =>
      client.faultsAhead ≤ bound ∧ client.backend.records.find? request.key = none
  | .rereading => client.faultsAhead < bound

/-- The same after a step. -/
def HasPaid (bound : Nat) (request : ReadRequest) : ReadStep × Client → Prop
  | (.continued next, after) => after.Pays bound request next
  | (.ended (.error _), after) => after.faultsAhead < bound
  | (.ended (.ok _), _) => True

theorem Pays.readStep (pays : client.Pays bound request phase) :
    HasPaid bound request (client.readStep request phase) := by
  cases phase with
  | reading =>
      rcases client.getOne_faults request.key with ⟨error, after, read, fewer⟩ | ⟨after, read, same⟩
      · rw [Client.readStep, read]
        exact fewer.trans_le pays
      · rw [Client.readStep, read]
        cases found : client.backend.records.find? request.key with
        | some stored => trivial
        | none => exact ⟨(congrArg (·.faults.total) same).trans_le pays, same ▸ found⟩
  | creating =>
      obtain ⟨enough, absent⟩ := pays
      have paid := create_faults absent
      rw [Client.readStep]
      cases created : client.create [request.record] with
      | mk result after =>
          rw [created] at paid
          cases result with
          | error error => exact (paid.resolve_right (by simp)).trans_le enough
          | ok taken =>
              cases taken with
              | nil => trivial
              | cons key rest => exact (paid.resolve_right (by simp)).trans_le enough
  | rereading =>
      rcases client.getOne_faults request.key with ⟨error, after, read, fewer⟩ | ⟨after, read, same⟩
      · rw [Client.readStep, read]
        exact fewer.trans pays
      · rw [Client.readStep, read]
        cases client.backend.records.find? request.key with
        | some stored => trivial
        | none => exact (congrArg (·.faults.total) same).trans_lt pays

/-- An attempt that fails has used up a fault. The induction is on how many steps are left. -/
theorem Pays.readFrom (pays : client.Pays bound request phase) {error : ReadError}
    (failed : client.readFrom request phase = (.error error, after)) :
    after.faultsAhead < bound := by
  induction left : phase.ahead using Nat.strong_induction_on generalizing client phase with
  | _ left ih =>
      have paid := pays.readStep
      cases stepped : client.readStep request phase with
      | mk step later =>
          rw [stepped] at paid
          cases step with
          | ended result =>
              rw [readFrom_ended stepped] at failed
              cases failed
              exact paid
          | continued next =>
              rw [readFrom_continued stepped] at failed
              exact ih next.ahead (left ▸ ahead_lt stepped) paid failed rfl

/-- Each of the attempts that fail uses up a fault. -/
theorem attempted_faults (client : Client) (request : ReadRequest) (count : Nat)
    (worth : ∀ call < count, meritsRetry ReadError.retryable (client.attempt request call) = true) :
    (client.attempted request count).faultsAhead + count ≤ client.faultsAhead := by
  induction count with
  | zero => exact le_rfl
  | succ count ih =>
      have before := ih fun call early => worth call (Nat.lt_succ_of_lt early)
      have again := worth count (Nat.lt_succ_self count)
      rw [attempt] at again
      rw [attempted_succ]
      cases once : (client.attempted request count).readOnce request with
      | mk result after =>
          rw [once] at again
          cases result with
          | ok found => cases again
          | error error =>
              have fewer : after.faultsAhead < (client.attempted request count).faultsAhead :=
                Pays.readFrom le_rfl once
              dsimp only
              omega

/-- One of the attempts is the last one, and there is a fault for each one before it. -/
theorem exists_endsAt (client : Client) (request : ReadRequest) (policy : RetryPolicy) :
    ∃ last ≤ client.faultsAhead,
      policy.EndsAt ReadError.retryable (client.attempt request) last := by
  have settled : policy.lastCall ReadError.retryable (client.attempt request) ≤
      client.faultsAhead := by
    by_contra late
    have worth : ∀ call < client.faultsAhead + 1,
        meritsRetry ReadError.retryable (client.attempt request call) = true := by
      intro call early
      have before : (call : ℕ∞) ≤ client.faultsAhead := Nat.cast_le.mpr (Nat.le_of_lt_succ early)
      exact RetryPolicy.meritsRetry_of_lt_lastCall (before.trans_lt (not_le.mp late))
    have spent := client.attempted_faults request (client.faultsAhead + 1) worth
    omega
  obtain ⟨last, reached, within⟩ := ENat.le_natCast_iff.mp settled
  exact ⟨last, within, RetryPolicy.endsAt_of_lastCall reached⟩

/-- Alone, a client makes the attempts up to the last one. -/
theorem getOrCreate_eq {policy : RetryPolicy} (possible : policy.Possible) (client : Client)
    (draw : Draw) (request : ReadRequest) :
    ∃ last, policy.EndsAt ReadError.retryable (client.attempt request) last ∧
      client.getOrCreate draw policy request =
        (some (client.attempt request last), client.attempted request (last + 1)) := by
  obtain ⟨last, within, ends⟩ := client.exists_endsAt request policy
  have repeated := RetryPolicy.retryDrawing_eq (fun _ => draw) possible ends (client.faultsAhead + 1)
  rw [if_pos (Nat.lt_succ_of_le within), RetryPolicy.retryDrawing] at repeated
  have same := client.readAgain_eq draw request (client.faultsAhead + 1) (.start policy) 0 0
  rw [repeated] at same
  exact ⟨last, ends, same⟩

end Client

namespace Reader

/-- Whether the next step of a reader is the first one of an attempt. -/
def isBeginning (reader : Reader) : Bool :=
  match reader.state with
  | .reading .reading _ => true
  | .reading .creating _ | .reading .rereading _ | .finished _ | .brokenOff => false

/-- The reader after so many steps. Others leave the record store as they like before each of them. -/
def among (clients : Nat → Client) (draws : Nat → Draw) (reader : Reader) : Nat → Reader
  | 0 => reader
  | steps + 1 => (step (draws steps) (reader.among clients draws steps, clients steps)).1

/-- How many attempts have been begun within so many steps. -/
def attempts (clients : Nat → Client) (draws : Nat → Draw) (reader : Reader) (steps : Nat) : Nat :=
  Nat.count (fun time => (reader.among clients draws time).isBeginning) steps

end Reader

/-- The attempts that have been begun show in the cursor: it has counted all of them but the one that
is under way. -/
def ReaderState.Counts (policy : RetryPolicy) (begun : Nat) : ReaderState → Prop
  | .reading phase cursor =>
      cursor.policy = policy ∧ (cursor.attempts : ℕ∞) ≤ policy.retries ∧
        begun = cursor.attempts + if phase = .reading then 0 else 1
  | .finished _ | .brokenOff => (begun : ℕ∞) ≤ policy.retries + 1

theorem ReaderState.counts_conclude {policy : RetryPolicy} {cursor : RetryCursor}
    (own : cursor.policy = policy) (allowed : (cursor.attempts : ℕ∞) ≤ policy.retries) (draw : Draw)
    (result : Except ReadError Record) :
    (conclude draw cursor result).Counts policy (cursor.attempts + 1) := by
  have within : ((cursor.attempts + 1 : Nat) : ℕ∞) ≤ policy.retries + 1 := by
    rw [Nat.cast_succ]
    gcongr
  cases result with
  | ok record => exact within
  | error error =>
      have follows := cursor.recovers draw error.retryable
      rw [conclude]
      generalize cursor.recover draw error.retryable = recovery at follows ⊢
      cases follows with
      | giveUp | impossible => exact within
      | retry length again more =>
          obtain ⟨same, counted⟩ := cursor.next_counts draw
          refine ⟨same.trans own, ?_, counted.symm⟩
          rw [counted, Nat.cast_succ, ← own]
          exact Order.add_one_le_of_lt more

namespace Reader

variable {policy : RetryPolicy} {reader : Reader} {begun : Nat}

theorem counts_step (counts : reader.state.Counts policy begun) (draw : Draw) (client : Client) :
    (step draw (reader, client)).1.state.Counts policy
      (begun + if reader.isBeginning then 1 else 0) := by
  obtain ⟨request, state⟩ := reader
  cases state with
  | finished | brokenOff => exact counts
  | reading phase cursor =>
      obtain ⟨own, allowed, counted⟩ := counts
      have started : begun + (if isBeginning ⟨request, .reading phase cursor⟩ then 1 else 0) =
          cursor.attempts + 1 := by
        cases phase <;> simp [isBeginning, counted]
      rw [started]
      cases stepped : client.readStep request phase with
      | mk outcome after =>
          simp only [step, stepped]
          cases outcome with
          | ended result => exact ReaderState.counts_conclude own allowed draw result
          | continued next =>
              refine ⟨own, allowed, ?_⟩
              rcases Client.readStep_continued stepped with ⟨-, rfl⟩ | ⟨-, rfl⟩
              · rfl
              · rfl

theorem counts_among (request : ReadRequest) (policy : RetryPolicy) (clients : Nat → Client)
    (draws : Nat → Draw) (steps : Nat) :
    ((start request policy).among clients draws steps).state.Counts policy
      ((start request policy).attempts clients draws steps) := by
  induction steps with
  | zero => exact ⟨rfl, bot_le, rfl⟩
  | succ steps ih =>
      rw [attempts, Nat.count_succ]
      exact counts_step ih (draws steps) (clients steps)

theorem attempts_le (request : ReadRequest) (policy : RetryPolicy) (clients : Nat → Client)
    (draws : Nat → Draw) (steps : Nat) :
    ((start request policy).attempts clients draws steps : ℕ∞) ≤ policy.retries + 1 := by
  have counts := counts_among request policy clients draws steps
  cases state : ((start request policy).among clients draws steps).state with
  | finished | brokenOff =>
      rw [state] at counts
      exact counts
  | reading phase cursor =>
      rw [state] at counts
      obtain ⟨-, allowed, counted⟩ := counts
      have fewer : (start request policy).attempts clients draws steps ≤ cursor.attempts + 1 := by
        split at counted <;> omega
      calc ((start request policy).attempts clients draws steps : ℕ∞)
        _ ≤ ((cursor.attempts + 1 : Nat) : ℕ∞) := Nat.cast_le.mpr fewer
        _ = cursor.attempts + 1 := Nat.cast_succ _
        _ ≤ policy.retries + 1 := by gcongr

end Reader

namespace RetryPolicy

/-- With a policy whose pauses can be computed, an operation is called until its outcome merits no
retry or the retries are used up. Each error among the outcomes is judged once, and the last one is
what comes out. Without an end are only the calls under a policy without a limit that all merit a
retry. So to get or create a record takes one attempt and as many others as there are retries at the
most, alone or whatever others do to the record store in between. Fewer than 2^64 calls are meant. -/
theorem repeats_as_often_as_allowed (policy : RetryPolicy) (possible : policy.Possible) :
    (∀ (α ε : Type) (draws : Nat → Draw) (retryable : ε → Bool) (operation : Nat → Except ε α),
      (∀ last : Nat, policy.lastCall retryable operation = last → ∀ fuel,
        policy.retryDrawing draws retryable operation fuel =
          if last < fuel then
            some ⟨last + 1, failures operation (last + 1), some (operation last)⟩
          else Option.none) ∧
      ((∀ fuel, policy.retryDrawing draws retryable operation fuel = Option.none) ↔
        policy.retries = ⊤ ∧ ∀ call, meritsRetry retryable (operation call) = true)) ∧
    (∀ (client : Client) (draw : Draw) (request : ReadRequest), ∃ last : Nat,
      policy.lastCall ReadError.retryable (client.attempt request) = last ∧
      ((last + 1 : Nat) : ℕ∞) ≤ policy.retries + 1 ∧
      client.getOrCreate draw policy request =
        (some (client.attempt request last), client.attempted request (last + 1))) ∧
    ∀ (request : ReadRequest) (clients : Nat → Client) (draws : Nat → Draw) (steps : Nat),
      ((Reader.start request policy).attempts clients draws steps : ℕ∞) ≤ policy.retries + 1 := by
  refine ⟨?_, ?_, fun request => Reader.attempts_le request policy⟩
  · intro α ε draws retryable operation
    constructor
    · intro last reached
      exact retryDrawing_eq draws possible (endsAt_of_lastCall reached)
    · exact retryDrawing_endless_iff draws possible
  · intro client draw request
    obtain ⟨last, ends, found⟩ := client.getOrCreate_eq possible draw request
    refine ⟨last, ends.lastCall_eq, ?_, found⟩
    rw [Nat.cast_succ]
    gcongr
    exact ends.allowed

/-- Two retries, with a pause of ten milliseconds before each. -/
def samplePolicy : RetryPolicy := .fixedDelay (.ofMillis 10) (Limit.ofNat? 2)

def sampleRequest : ReadRequest := ⟨"a", [], .epoch⟩

/-- A client whose next ten readings fail. -/
def sampleClient : Client := ⟨{ Backend.empty with faults := { failedGets := 10 } }, {}⟩

/-- An operation that fails five times before it succeeds. -/
def sampleOperation (call : Nat) : Except String Nat :=
  if call < 5 then .error "early" else .ok call

theorem repeats_as_often_as_allowed_twice :
    samplePolicy.Possible ∧ samplePolicy.lastCall (fun _ => true) sampleOperation = 2 ∧
    samplePolicy.retryDrawing (fun _ => .middle) (fun _ => true) sampleOperation 10 =
      some ⟨3, 3, some (.error "early")⟩ ∧
    sampleClient.getOrCreate .middle samplePolicy sampleRequest =
      (some (.error (.store (.unavailable "injected get failure"))),
        sampleClient.attempted sampleRequest 3) ∧
    (sampleClient.attempted sampleRequest 3).backend.faults = { failedGets := 7 } := by
  have sound : samplePolicy.Sound := True.intro
  have short : ((Duration.ofMillis 10).nanos : ℚ) = 10000000 := by
    exact_mod_cast (by decide : (Duration.ofMillis 10).nanos = 10000000)
  have roomy : samplePolicy.Roomy := by
    show Duration.jitteredAtMost (Duration.ofMillis 10).nanos < Duration.room
    rw [short]
    norm_num [Duration.jitteredAtMost, Duration.room, JitterRange.least, nanosPerMilli,
      nanosPerSecond, UInt64.size]
  have possible := possible_of_roomy sound roomy
  obtain ⟨loops, attempts, -⟩ := repeats_as_often_as_allowed samplePolicy possible
  have second : samplePolicy.EndsAt (fun _ => true) sampleOperation 2 :=
    ⟨by decide, le_rfl, fun _ => rfl⟩
  have third : samplePolicy.EndsAt ReadError.retryable (sampleClient.attempt sampleRequest) 2 :=
    ⟨by decide +kernel, le_rfl, fun _ => rfl⟩
  obtain ⟨last, reached, -, found⟩ := attempts sampleClient .middle sampleRequest
  have two : 2 = last := by
    rw [third.lastCall_eq] at reached
    exact_mod_cast reached
  rw [← two] at found
  refine ⟨possible, second.lastCall_eq, ?_, ?_, by decide +kernel⟩
  · have three : failures sampleOperation 3 = 3 := by decide
    have ended := (loops Nat String (fun _ => .middle) _ _).1 2 second.lastCall_eq 10
    rwa [if_pos (by decide), three] at ended
  · have failed : sampleClient.attempt sampleRequest 2 =
        .error (.store (.unavailable "injected get failure")) := by decide +kernel
    rw [failed] at found
    exact found

end RetryPolicy

end ClaimStore
