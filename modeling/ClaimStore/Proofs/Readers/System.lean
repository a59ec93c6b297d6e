import ClaimStore.Proofs.Fleet.Reading

/-!
Readers of one record store.

Any number of readers get a record, or create it if there is none, and try again as their retry
policies allow. Each of their steps is one call to the record store. Between any two steps others use
it as they like: they create, update, delete and put records, and set faults.
-/
namespace ClaimStore

/-- How far a reader has come: its next step is one of an attempt, it has been given a record or told
why there is none, or it has broken off because a pause could not be computed. -/
inductive ReaderState
  | reading (phase : ReadPhase) (cursor : RetryCursor)
  | finished (result : Except ReadError Record)
  | brokenOff
  deriving DecidableEq

def ReaderState.isReading : ReaderState → Bool
  | .reading _ _ => true
  | .finished _ | .brokenOff => false

/-- What an attempt leads to that has ended. -/
def ReaderState.conclude (draw : Draw) (cursor : RetryCursor) :
    Except ReadError Record → ReaderState
  | .ok record => .finished (.ok record)
  | .error error =>
      match cursor.recover draw error.retryable with
      | .giveUp => .finished (.error error)
      | .impossible => .brokenOff
      | .retry cursor _ => .reading .reading cursor

/-- Somebody who wants a record. -/
structure Reader where
  request : ReadRequest
  state : ReaderState
  deriving DecidableEq

namespace Reader

def start (request : ReadRequest) (policy : RetryPolicy) : Reader :=
  ⟨request, .reading .reading (.start policy)⟩

/-- The next step of a reader, if it has not come to an end. -/
def step (draw : Draw) : Reader × Client → Reader × Client
  | (reader, client) =>
      match reader.state with
      | .reading phase cursor =>
          match client.readStep reader.request phase with
          | (.continued next, after) => ({ reader with state := .reading next cursor }, after)
          | (.ended result, after) => ({ reader with state := .conclude draw cursor result }, after)
      | .finished _ | .brokenOff => (reader, client)

variable {client after : Client} {request : ReadRequest} {cursor : RetryCursor}

/-- All steps of an attempt, with nothing in between. The induction is on how many may be left. -/
theorem steps_of_readFrom (draw : Draw) (cursor : RetryCursor) {phase : ReadPhase}
    {result : Except ReadError Record}
    (read : client.readFrom request phase = (result, after)) :
    ∃ count, (step draw)^[count] (⟨request, .reading phase cursor⟩, client) =
      (⟨request, .conclude draw cursor result⟩, after) := by
  induction left : phase.ahead using Nat.strong_induction_on generalizing client phase with
  | _ left ih =>
      cases stepped : client.readStep request phase with
      | mk outcome later =>
          cases outcome with
          | ended =>
              rw [Client.readFrom_ended stepped] at read
              cases read
              exact ⟨1, by simp only [Function.iterate_one, step, stepped]⟩
          | continued next =>
              rw [Client.readFrom_continued stepped] at read
              obtain ⟨count, ended⟩ := ih next.ahead (left ▸ Client.ahead_lt stepped) read rfl
              refine ⟨count + 1, ?_⟩
              rw [Function.iterate_succ_apply]
              simp only [step, stepped]
              exact ended

/-- A reader that is alone with the record store does what `Client.readAgain` does. -/
theorem steps_of_readAgain (draw : Draw) {fuel : Nat} {result : Except ReadError Record}
    (read : Client.readAgain draw request fuel cursor client = (some result, after)) :
    ∃ count, (step draw)^[count] (⟨request, .reading .reading cursor⟩, client) =
      (⟨request, .finished result⟩, after) := by
  induction fuel generalizing client cursor with
  | zero => cases read
  | succ fuel ih =>
      cases once : client.readOnce request with
      | mk attempt later =>
          obtain ⟨count, ended⟩ := steps_of_readFrom draw cursor once
          cases attempt with
          | ok record =>
              simp only [Client.readAgain, once] at read
              cases read
              exact ⟨count, ended⟩
          | error error =>
              simp only [Client.readAgain, once] at read
              cases recovered : cursor.recover draw error.retryable with
              | impossible =>
                  rw [recovered] at read
                  cases read
              | giveUp =>
                  rw [recovered] at read
                  cases read
                  simp only [ReaderState.conclude, recovered] at ended
                  exact ⟨count, ended⟩
              | retry next pause =>
                  rw [recovered] at read
                  simp only [ReaderState.conclude, recovered] at ended
                  obtain ⟨rest, found⟩ := ih read
                  refine ⟨rest + count, ?_⟩
                  rw [Function.iterate_add_apply, ended]
                  exact found

end Reader

/-- A record store with its readers, in the order in which they came. -/
structure ReadingRoom where
  client : Client
  readers : List Reader

/-- What happens in a reading room: a reader comes, a reader takes a step, or others use the record
store, which they leave as they like. -/
inductive RoomAct
  | enter (request : ReadRequest) (policy : RetryPolicy)
  | step (reader : Nat) (draw : Draw)
  | others (client : Client)

namespace ReadingRoom

def step (room : ReadingRoom) (index : Nat) (draw : Draw) : ReadingRoom :=
  match room.readers[index]? with
  | none => room
  | some reader =>
      let (next, client) := Reader.step draw (reader, room.client)
      ⟨client, room.readers.set index next⟩

def act (room : ReadingRoom) : RoomAct → ReadingRoom
  | .enter request policy => { room with readers := room.readers ++ [.start request policy] }
  | .step index draw => room.step index draw
  | .others client => { room with client }

end ReadingRoom

/-- A run: the record store at first, and what happens from one moment to the next. -/
structure ReadingDay where
  first : Client
  acts : Nat → RoomAct

namespace ReadingDay

/-- The room at a moment. -/
def room (day : ReadingDay) : Nat → ReadingRoom
  | 0 => ⟨day.first, []⟩
  | time + 1 => (day.room time).act (day.acts time)

def records (day : ReadingDay) (time : Nat) : Records := (day.room time).client.backend.records

def stored? (day : ReadingDay) (time : Nat) (key : String) : Option Record :=
  (day.records time).find? key

def reader? (day : ReadingDay) (time index : Nat) : Option Reader :=
  (day.room time).readers[index]?

/-- At this moment a reader comes who wants a record. -/
def Enters (day : ReadingDay) (index begun : Nat) (request : ReadRequest) : Prop :=
  (∃ policy, day.acts begun = .enter request policy) ∧
    (day.room begun).readers.length = index

/-- At this moment a reader takes the step that brings it to its end. -/
def Ends (day : ReadingDay) (index ended : Nat) (result : Except ReadError Record) : Prop :=
  (∃ reader, day.reader? ended index = some reader ∧ reader.state.isReading = true) ∧
    ∃ reader, day.reader? (ended + 1) index = some reader ∧ reader.state = .finished result

/-- At this moment a reader takes a step by which the stored records change. -/
def Writes (day : ReadingDay) (index time : Nat) : Prop :=
  (∃ draw, day.acts time = .step index draw) ∧
    day.records (time + 1) ≠ day.records time

/-- A reader who wants the record of a key comes at some moment, and is given it at a later one. -/
def Obtains (day : ReadingDay) (key : String) (ended : Nat) (record : Record) : Prop :=
  ∃ index begun request, day.Enters index begun request ∧ request.key = key ∧
    day.Ends index ended (.ok record)

/-- Nobody but the readers changes the record of a key. -/
def Undisturbed (day : ReadingDay) (key : String) : Prop :=
  ∀ time client, day.acts time = .others client →
    client.backend.records.find? key = day.stored? time key

end ReadingDay

end ClaimStore
