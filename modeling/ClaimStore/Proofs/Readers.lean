import ClaimStore.Proofs.Readers.System
import Mathlib.Tactic.IntervalCases

/-!
What readers are given.

A reader is given a record that is stored when it takes its last step. It changes the stored records
only where there is no record of its key, and is given what it has stored. So readers who are not
disturbed by anybody else are all given the same record.
-/
namespace ClaimStore

namespace Reader

/-- What a step of a reader makes of its state and of the stored records. -/
inductive Move (request : ReadRequest) (before : Records) : ReaderState → Records → Prop
  | found (stored : Record) (held : before.find? request.key = some stored) :
      Move request before (.finished (.ok stored)) before
  | created (absent : before.find? request.key = none) :
      Move request before (.finished (.ok request.record)) (before.put request.record)
  | onward (phase : ReadPhase) (cursor : RetryCursor) :
      Move request before (.reading phase cursor) before
  | failed (error : ReadError) : Move request before (.finished (.error error)) before
  | brokenOff : Move request before .brokenOff before

variable {reader : Reader}

theorem step_move (reading : reader.state.isReading = true) (draw : Draw) (client : Client) :
    ∃ state after, step draw (reader, client) = ({ reader with state }, after) ∧
      Move reader.request client.backend.records state after.backend.records := by
  cases here : reader.state with
  | finished | brokenOff =>
      rw [here] at reading
      cases reading
  | reading phase cursor =>
      obtain ⟨outcome, after, stepped, -, move⟩ := client.readStep_move reader.request phase
      simp only [step, here, stepped]
      generalize ends : after.backend.records = records at move
      cases move with
      | onward next =>
          refine ⟨_, _, rfl, ?_⟩
          rw [ends]
          exact .onward next cursor
      | found stored held =>
          refine ⟨_, _, rfl, ?_⟩
          rw [ends]
          exact .found stored held
      | created absent =>
          refine ⟨_, _, rfl, ?_⟩
          rw [ends]
          exact .created absent
      | failed error =>
          refine ⟨_, _, rfl, ?_⟩
          rw [ends, ReaderState.conclude]
          cases cursor.recover draw error.retryable with
          | giveUp => exact .failed error
          | impossible => exact .brokenOff
          | retry next pause => exact .onward .reading next

theorem step_of_ended (ended : reader.state.isReading = false) (draw : Draw) (client : Client) :
    step draw (reader, client) = (reader, client) := by
  cases here : reader.state with
  | reading phase cursor =>
      rw [here] at ended
      cases ended
  | finished | brokenOff => simp only [step, here]

/-- No step of a reader alters or removes a record that is stored. -/
theorem Move.keeps {request : ReadRequest} {before after : Records} {state : ReaderState}
    (move : Move request before state after) {key : String} {stored : Record}
    (held : before.find? key = some stored) : after.find? key = some stored := by
  cases move with
  | found | onward | failed | brokenOff => exact held
  | created absent =>
      have apart : key ≠ request.key := by
        rintro rfl
        rw [absent] at held
        cases held
      rw [Records.put, Table.find?_insert, if_neg]
      · exact held
      · exact apart

/-- What a reader is given is stored after its step. -/
theorem Move.given {request : ReadRequest} {before after : Records} {record : Record}
    (move : Move request before (.finished (.ok record)) after) :
    after.find? request.key = some record := by
  cases move with
  | found stored held => exact held
  | created absent =>
      rw [Records.put, Table.find?_insert, if_pos]
      rfl

/-- A step that changes the stored records is the last one. -/
theorem Move.writes {request : ReadRequest} {before after : Records} {state : ReaderState}
    (move : Move request before state after) (changed : after ≠ before) :
    before.find? request.key = none ∧ after = before.put request.record ∧
      state = .finished (.ok request.record) := by
  cases move with
  | found | onward | failed | brokenOff => exact absurd rfl changed
  | created absent => exact ⟨absent, rfl, rfl⟩

end Reader

namespace ReadingDay

variable {day : ReadingDay} {index begun ended time : Nat} {request : ReadRequest}
variable {reader : Reader}

/-- What becomes of a reader and of the stored records when it takes a step. -/
theorem step_own {draw : Draw} (acted : day.acts time = .step index draw)
    (here : day.reader? time index = some reader) :
    reader.state.isReading = false ∧ day.room (time + 1) = day.room time ∨
      reader.state.isReading = true ∧
        ∃ state, day.reader? (time + 1) index = some { reader with state } ∧
          Reader.Move reader.request (day.records time) state (day.records (time + 1)) := by
  obtain ⟨inside, held⟩ := List.getElem?_eq_some_iff.mp here
  have next : day.room (time + 1) = (day.room time).step index draw := by
    rw [room, acted, ReadingRoom.act]
  rw [reader?] at here
  cases reading : reader.state.isReading with
  | false =>
      refine .inl ⟨rfl, ?_⟩
      rw [next, ReadingRoom.step, here]
      simp only [Reader.step_of_ended reading]
      rw [← held, List.set_getElem_self]
  | true =>
      obtain ⟨state, after, stepped, move⟩ := Reader.step_move reading draw (day.room time).client
      refine .inr ⟨rfl, state, ?_, ?_⟩
      · simp only [reader?, next, ReadingRoom.step, here, stepped]
        exact List.getElem?_set_self inside
      · simp only [records, next, ReadingRoom.step, here, stepped]
        exact move

/-- A reader is left alone by all acts but its own steps. -/
theorem reader?_other (apart : ∀ draw, day.acts time ≠ .step index draw)
    (here : day.reader? time index = some reader) : day.reader? (time + 1) index = some reader := by
  have inside : index < (day.room time).readers.length := (List.getElem?_eq_some_iff.mp here).1
  rw [reader?] at here ⊢
  rw [room]
  cases acted : day.acts time with
  | enter request policy => exact (List.getElem?_append_left inside).trans here
  | others client => exact here
  | step other draw =>
      have different : other ≠ index := by
        rintro rfl
        exact apart draw acted
      rw [ReadingRoom.act, ReadingRoom.step]
      split
      · exact here
      · exact (List.getElem?_set_ne different).trans here

/-- A reader wants the same record from its first to its last moment, and once it has come to its end
it does nothing more. -/
theorem reader?_succ (here : day.reader? time index = some reader) :
    ∃ next, day.reader? (time + 1) index = some next ∧ next.request = reader.request ∧
      (reader.state.isReading = false → next = reader) := by
  by_cases acted : ∃ draw, day.acts time = .step index draw
  · obtain ⟨draw, acted⟩ := acted
    rcases step_own acted here with ⟨-, same⟩ | ⟨reading, state, next, -⟩
    · exact ⟨reader, by rw [reader?, same]; exact here, rfl, fun _ => rfl⟩
    · refine ⟨_, next, rfl, fun ended => ?_⟩
      rw [reading] at ended
      cases ended
  · exact ⟨reader, reader?_other (fun draw own => acted ⟨draw, own⟩) here, rfl, fun _ => rfl⟩

theorem reader?_later {last : Nat} (here : day.reader? time index = some reader)
    (later : time ≤ last) :
    ∃ next, day.reader? last index = some next ∧ next.request = reader.request ∧
      (reader.state.isReading = false → next = reader) := by
  induction later with
  | refl => exact ⟨reader, here, rfl, fun _ => rfl⟩
  | step _ ih =>
      obtain ⟨next, found, same, still⟩ := ih
      obtain ⟨more, held, own, silent⟩ := reader?_succ found
      refine ⟨more, held, own.trans same, fun ended => ?_⟩
      obtain rfl := still ended
      exact silent ended

/-- The readers who are there at a moment have come before it. -/
theorem Enters.before (enters : day.Enters index begun request)
    (here : day.reader? time index = some reader) :
    begun < time ∧ reader.request = request := by
  obtain ⟨⟨policy, acted⟩, place⟩ := enters
  have first : day.reader? (begun + 1) index = some (.start request policy) := by
    rw [reader?, room, acted, ReadingRoom.act]
    simp only [← place, List.getElem?_concat_length]
  have absent : day.reader? begun index = none := by
    rw [reader?, List.getElem?_eq_none_iff, place]
  rcases Nat.lt_or_ge begun time with late | early
  · obtain ⟨next, found, same, -⟩ := reader?_later first late
    rw [here] at found
    cases found
    exact ⟨late, same⟩
  · obtain ⟨next, found, -⟩ := reader?_later here early
    rw [absent] at found
    cases found

/-- The last step of a reader who is given a record. -/
theorem Ends.given {record : Record} (ends : day.Ends index ended (.ok record)) :
    ∃ reader, day.reader? ended index = some reader ∧
      day.stored? (ended + 1) reader.request.key = some record := by
  obtain ⟨⟨reader, here, reading⟩, after, found, finished⟩ := ends
  refine ⟨reader, here, ?_⟩
  by_cases acted : ∃ draw, day.acts ended = .step index draw
  · obtain ⟨draw, acted⟩ := acted
    rcases step_own acted here with ⟨done, -⟩ | ⟨-, state, next, move⟩
    · rw [reading] at done
      cases done
    · rw [next] at found
      cases found
      rw [show state = _ from finished] at move
      exact move.given
  · rw [reader?_other (fun draw own => acted ⟨draw, own⟩) here] at found
    cases found
    rw [finished] at reading
    cases reading

/-- The step by which a reader changes the stored records is its last one. -/
theorem Writes.last (writes : day.Writes index time) :
    ∃ reader, day.reader? time index = some reader ∧
      day.stored? time reader.request.key = none ∧
      day.records (time + 1) = (day.records time).put reader.request.record ∧
      ∀ later, day.Writes index later → later ≤ time := by
  have own : ∀ {moment}, day.Writes index moment →
      ∃ reader, day.reader? moment index = some reader ∧ reader.state.isReading = true ∧
        ∃ state, day.reader? (moment + 1) index = some { reader with state } ∧
          Reader.Move reader.request (day.records moment) state (day.records (moment + 1)) := by
    rintro moment ⟨⟨draw, acted⟩, changed⟩
    cases here : day.reader? moment index with
    | none =>
        have idle : day.room (moment + 1) = day.room moment := by
          rw [reader?] at here
          simp only [room, acted, ReadingRoom.act, ReadingRoom.step, here]
        exact absurd (congrArg (fun room => room.client.backend.records) idle) changed
    | some reader =>
        rcases step_own acted here with ⟨-, same⟩ | ⟨reading, moved⟩
        · exact absurd (congrArg (fun room => room.client.backend.records) same) changed
        · exact ⟨reader, rfl, reading, moved⟩
  obtain ⟨reader, here, -, state, next, move⟩ := own writes
  obtain ⟨absent, put, finished⟩ := move.writes writes.2
  refine ⟨reader, here, absent, put, fun later again => ?_⟩
  rcases Nat.lt_or_ge time later with after | before
  · -- the reader has come to its end, and takes no further step
    obtain ⟨still, found, reading, -⟩ := own again
    obtain ⟨same, held, -, silent⟩ := reader?_later next after
    rw [found] at held
    cases held
    obtain rfl := silent (by rw [finished]; rfl)
    rw [show ({ reader with state } : Reader).state = _ from finished] at reading
    cases reading
  · exact before

/-- A record that is stored stays where only readers change it. -/
theorem stored?_step {draw : Draw} (acted : day.acts time = .step index draw) {key : String}
    {stored : Record} (held : day.stored? time key = some stored) :
    day.stored? (time + 1) key = some stored := by
  cases here : day.reader? time index with
  | none =>
      rw [reader?] at here
      simp only [stored?, records, room, acted, ReadingRoom.act, ReadingRoom.step, here]
      exact held
  | some reader =>
      rcases step_own acted here with ⟨-, same⟩ | ⟨-, state, -, move⟩
      · rw [stored?, records, same]
        exact held
      · exact move.keeps held

theorem Undisturbed.stays {key : String} (undisturbed : day.Undisturbed key) {stored : Record}
    {last : Nat} (held : day.stored? time key = some stored) (later : time ≤ last) :
    day.stored? last key = some stored := by
  induction later with
  | refl => exact held
  | @step moment _ ih =>
      cases acted : day.acts moment with
      | enter request policy =>
          rw [stored?, records, room, acted]
          exact ih
      | step reader draw => exact stored?_step acted ih
      | others client =>
          rw [stored?, records, room, acted]
          exact (undisturbed moment client acted).trans ih

theorem Obtains.stored {key : String} {record : Record} (obtains : day.Obtains key ended record) :
    day.stored? (ended + 1) key = some record := by
  obtain ⟨index, begun, request, enters, rfl, ends⟩ := obtains
  obtain ⟨reader, here, stored⟩ := ends.given
  rw [(enters.before here).2] at stored
  exact stored

/-- A record that a reader is given is stored at some moment between its first and its last one. A
reader changes the stored records once at most, where there is no record of its key, by storing its
value at the first version; no reader alters a record that is there. Readers of a key that nobody
else changes are all given the same record, which is the stored one from then on. -/
theorem readers_linearized (day : ReadingDay) :
    (∀ index begun request ended record,
      day.Enters index begun request → day.Ends index ended (.ok record) →
        ∃ time, begun < time ∧ time ≤ ended + 1 ∧ day.stored? time request.key = some record) ∧
    (∀ index begun request time, day.Enters index begun request → day.Writes index time →
      begun < time ∧ day.stored? time request.key = none ∧
        day.records (time + 1) = (day.records time).put
          ⟨request.key, request.value, .first, request.modified⟩ ∧
        ∀ again, day.Writes index again → again = time) ∧
    (∀ index draw time key stored, day.acts time = .step index draw →
      day.stored? time key = some stored → day.stored? (time + 1) key = some stored) ∧
    (∀ key, day.Undisturbed key → ∀ ended record, day.Obtains key ended record →
      (∀ time, ended < time → day.stored? time key = some record) ∧
        ∀ later other, day.Obtains key later other → other = record) := by
  refine ⟨?_, ?_, fun _ _ _ _ _ acted held => stored?_step acted held, ?_⟩
  · intro index begun request ended record enters ends
    obtain ⟨reader, here, stored⟩ := ends.given
    obtain ⟨late, rfl⟩ := enters.before here
    exact ⟨ended + 1, by omega, Nat.le_refl _, stored⟩
  · intro index begun request time enters writes
    obtain ⟨reader, here, absent, put, last⟩ := writes.last
    obtain ⟨late, rfl⟩ := enters.before here
    refine ⟨late, absent, put, fun again rewrites => ?_⟩
    obtain ⟨-, -, -, -, first⟩ := rewrites.last
    exact Nat.le_antisymm (last again rewrites) (first time writes)
  · intro key undisturbed ended record obtains
    have held := obtains.stored
    refine ⟨fun time late => undisturbed.stays held late, fun later other again => ?_⟩
    have both := undisturbed.stays again.stored (Nat.le_max_left (later + 1) (ended + 1))
    rw [undisturbed.stays held (Nat.le_max_right _ _)] at both
    cases both
    rfl

def sampleRequest (value : UInt8) : ReadRequest := ⟨"key", [value], default⟩

/-- Others have left the record of the first reader as it is, and let the next reading fail. -/
def sampleOthers : Client :=
  ⟨{ Backend.empty with
      records := Records.put .empty (sampleRequest 1).record
      faults := { failedGets := 1 } }, {}⟩

/-- Two readers find no record. One of them creates it; the other one finds its key taken, fails to
read the record, and is given it at its second attempt. -/
def sampleActs : List RoomAct :=
  [.enter (sampleRequest 1) .none, .enter (sampleRequest 2) (.fixedDelay .zero none),
    .step 0 .shortest, .step 1 .shortest, .step 0 .shortest, .others sampleOthers,
    .step 1 .shortest, .step 1 .shortest, .step 1 .shortest]

def sample : ReadingDay where
  first := .empty
  acts time := (sampleActs[time]?).getD (.step 2 .shortest)

theorem sample_undisturbed : sample.Undisturbed "key" := by
  intro time client acted
  have once : time = 5 ∧ client = sampleOthers := by
    rcases Nat.lt_or_ge time sampleActs.length with inside | beyond
    · change time < 9 at inside
      interval_cases time <;> first | exact ⟨rfl, (RoomAct.others.inj acted).symm⟩ | cases acted
    · simp only [sample, List.getElem?_eq_none beyond] at acted
      cases acted
  obtain ⟨rfl, rfl⟩ := once
  decide +kernel

theorem readers_linearized_lost :
    let record := (sampleRequest 1).record
    sample.Obtains "key" 4 record ∧ sample.Obtains "key" 8 record ∧ sample.Writes 0 4 ∧
      (∃ time, 1 < time ∧ time ≤ 9 ∧ sample.stored? time "key" = some record) ∧
      (∀ again, sample.Writes 0 again → again = 4) ∧
      (∀ later other, sample.Obtains "key" later other → other = record) := by
  intro record
  have first : sample.Enters 0 0 (sampleRequest 1) := ⟨⟨_, rfl⟩, rfl⟩
  have second : sample.Enters 1 1 (sampleRequest 2) := ⟨⟨_, rfl⟩, rfl⟩
  have creates : sample.Ends 0 4 (.ok record) := by
    refine ⟨⟨⟨sampleRequest 1, .reading .creating (.start .none)⟩, ?_, rfl⟩,
      ⟨sampleRequest 1, .finished (.ok record)⟩, ?_, rfl⟩ <;> decide +kernel
  have rereads : sample.Ends 1 8 (.ok record) := by
    refine ⟨⟨⟨sampleRequest 2, .reading .reading ⟨.fixedDelay .zero none, 1, none⟩⟩, ?_, rfl⟩,
      ⟨sampleRequest 2, .finished (.ok record)⟩, ?_, rfl⟩ <;> decide +kernel
  have writes : sample.Writes 0 4 := ⟨⟨_, rfl⟩, by decide +kernel⟩
  have obtains : sample.Obtains "key" 4 record := ⟨0, 0, _, first, rfl, creates⟩
  obtain ⟨given, written, -, shared⟩ := readers_linearized sample
  exact ⟨obtains, ⟨1, 1, _, second, rfl, rereads⟩, writes, given 1 1 _ 8 record second rereads,
    (written 0 0 _ 4 first writes).2.2.2, (shared "key" sample_undisturbed 4 record obtains).2⟩

end ReadingDay

end ClaimStore
