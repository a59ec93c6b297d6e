import ClaimStore.Load
import ClaimStore.Proofs.Ledger

/-!
What loading a pool does to the record store.

A step of a load finds the record of its pool, creates it where there is none, or leaves the stored
records alone.
-/
namespace ClaimStore

/-- What a step towards a record can lead to. -/
inductive ReadMove (request : ReadRequest) (before : Records) : ReadStep → Records → Prop
  | found (stored : Record) (held : before.find? request.key = some stored) :
      ReadMove request before (.ended (.ok stored)) before
  | created (absent : before.find? request.key = none) :
      ReadMove request before (.ended (.ok request.record)) (before.put request.record)
  | onward (phase : ReadPhase) : ReadMove request before (.continued phase) before
  | failed (error : ReadError) : ReadMove request before (.ended (.error error)) before

namespace Records

variable {records : Records}

theorem find?_select (records : Records) (key : String) :
    (records.select [key]).find? key = records.find? key := by
  cases found : records.find? key with
  | none => simp [select, found]
  | some record => simp [select, found, Table.find?_insert]

theorem create_single (records : Records) (record : Record) :
    records.find? record.key = none ∧
        records.create [record] = ([], records.put { record with version := .first }) ∨
      records.create [record] = ([record.key], records) := by
  cases found : records.find? record.key with
  | none =>
      left
      simp [create, createOne, Table.contains, found]
  | some stored =>
      right
      simp [create, createOne, Table.contains, found]

end Records

namespace Client

variable {client : Client}

theorem getOne_single (client : Client) (key : String) :
    ∃ result after, client.getOne key = (result, after) ∧ Quiet client after ∧
      ∀ found, result = .ok found → client.backend.records.find? key = found := by
  simp only [getOne, get, record, Backend.get]
  split
  · refine ⟨_, _, rfl, ⟨rfl, fun honest => honest⟩, ?_⟩
    intro found absent
    cases absent
  · split
    · refine ⟨_, _, rfl, ⟨rfl, fun honest => honest⟩, ?_⟩
      intro found absent
      cases absent
    · refine ⟨_, _, rfl, ⟨rfl, fun honest => honest⟩, ?_⟩
      intro found given
      cases given
      exact (Records.find?_select _ key).symm

theorem create_record (client : Client) (request : ReadRequest) :
    ∃ result after, client.create [request.record] = (result, after) ∧
      (client.Honest → after.Honest) ∧
      (client.backend.records.find? request.key = none ∧ result = .ok [] ∧
          after.backend.records = client.backend.records.put request.record ∨
        result ≠ .ok [] ∧ after.backend.records = client.backend.records) := by
  simp only [create, record, Backend.create]
  split
  · exact ⟨_, _, rfl, fun honest => honest, .inr ⟨by simp, rfl⟩⟩
  · split
    · exact ⟨_, _, rfl, fun honest => honest, .inr ⟨by simp, rfl⟩⟩
    · rcases client.backend.records.create_single request.record with ⟨absent, made⟩ | taken
      · rw [made]
        exact ⟨_, _, rfl, fun honest => honest, .inl ⟨absent, rfl, rfl⟩⟩
      · rw [taken]
        exact ⟨_, _, rfl, fun honest => honest, .inr ⟨by simp, rfl⟩⟩

theorem readStep_move (client : Client) (request : ReadRequest) (phase : ReadPhase) :
    ∃ step after, client.readStep request phase = (step, after) ∧
      (client.Honest → after.Honest) ∧
      ReadMove request client.backend.records step after.backend.records := by
  cases phase with
  | reading =>
      obtain ⟨result, after, got, quiet, held⟩ := client.getOne_single request.key
      rcases result with error | _ | found <;> simp only [readStep, got] <;>
        refine ⟨_, _, rfl, quiet.honest, ?_⟩ <;> rw [quiet.records]
      · exact .failed _
      · exact .onward _
      · exact .found found (held _ rfl)
  | creating =>
      obtain ⟨result, after, made, honest, outcome⟩ := client.create_record request
      rcases result with error | _ | ⟨taken, rest⟩ <;> simp only [readStep, made] <;>
        refine ⟨_, _, rfl, honest, ?_⟩
      · rcases outcome with ⟨-, other, -⟩ | ⟨-, same⟩
        · cases other
        · rw [same]
          exact .failed _
      · rcases outcome with ⟨absent, -, put⟩ | ⟨other, -⟩
        · rw [put]
          exact .created absent
        · contradiction
      · rcases outcome with ⟨-, other, -⟩ | ⟨-, same⟩
        · cases other
        · rw [same]
          exact .onward _
  | rereading =>
      obtain ⟨result, after, got, quiet, held⟩ := client.getOne_single request.key
      rcases result with error | _ | found <;> simp only [readStep, got] <;>
        refine ⟨_, _, rfl, quiet.honest, ?_⟩ <;> rw [quiet.records]
      · exact .failed _
      · exact .failed _
      · exact .found found (held _ rfl)

end Client

/-- How many steps of an attempt there may be after this one. -/
def ReadPhase.ahead : ReadPhase → Nat
  | .reading => 2
  | .creating => 1
  | .rereading => 0

namespace Client

variable {client after : Client} {request : ReadRequest} {phase next : ReadPhase}

theorem readStep_continued (stepped : client.readStep request phase = (.continued next, after)) :
    phase = .reading ∧ next = .creating ∨ phase = .creating ∧ next = .rereading := by
  cases phase with
  | reading =>
      simp only [readStep] at stepped
      split at stepped <;> cases stepped
      exact .inl ⟨rfl, rfl⟩
  | creating =>
      simp only [readStep] at stepped
      split at stepped <;> cases stepped
      exact .inr ⟨rfl, rfl⟩
  | rereading =>
      simp only [readStep] at stepped
      split at stepped <;> cases stepped

theorem ahead_lt (stepped : client.readStep request phase = (.continued next, after)) :
    next.ahead < phase.ahead := by
  rcases readStep_continued stepped with ⟨rfl, rfl⟩ | ⟨rfl, rfl⟩ <;> decide

theorem readFrom_ended {result : Except ReadError Record}
    (stepped : client.readStep request phase = (.ended result, after)) :
    client.readFrom request phase = (result, after) := by
  rw [readFrom, stepped]

/-- The second reading of an attempt is its last step. -/
theorem rereading_ended (client : Client) (request : ReadRequest) :
    ∃ result after, client.readStep request .rereading = (.ended result, after) := by
  cases stepped : client.readStep request .rereading with
  | mk step after =>
      cases step with
      | ended result => exact ⟨result, after, rfl⟩
      | continued next =>
          rcases readStep_continued stepped with ⟨same, -⟩ | ⟨same, -⟩ <;> cases same

theorem readFrom_continued (stepped : client.readStep request phase = (.continued next, after)) :
    client.readFrom request phase = after.readFrom request next := by
  rcases readStep_continued stepped with ⟨rfl, rfl⟩ | ⟨rfl, rfl⟩
  · cases second : after.readStep request .creating with
    | mk step later =>
        cases step with
        | ended result => simp only [readFrom, stepped, second]
        | continued last =>
            rcases readStep_continued second with ⟨same, -⟩ | ⟨-, rfl⟩
            · cases same
            · obtain ⟨result, final, third⟩ := later.rereading_ended request
              simp only [readFrom, stepped, second, third]
  · obtain ⟨result, final, third⟩ := after.rereading_ended request
    simp only [readFrom, stepped, third]

end Client

/-- The same for a load, which makes a snapshot of the record. -/
inductive LoadMove (load : Load) (before : Records) : LoadStep → Records → Prop
  | found (stored : Record) (held : before.find? load.request.key = some stored) :
      LoadMove load before (.ended (load.decode stored)) before
  | created (absent : before.find? load.request.key = none) :
      LoadMove load before (.ended (load.decode load.request.record))
        (before.put load.request.record)
  | onward (phase : ReadPhase) : LoadMove load before (.continued { load with phase }) before
  | paused (cursor : RetryCursor) (length : Duration) :
      LoadMove load before (.paused { load with phase := .reading, cursor } length) before
  | failed (error : LoadError) : LoadMove load before (.ended (.error error)) before
  | stuck : LoadMove load before .impossible before

theorem Load.step_move (draw : Draw) (load : Load) (client : Client) :
    ∃ step after, load.step draw client = (step, after) ∧ (client.Honest → after.Honest) ∧
      LoadMove load client.backend.records step after.backend.records := by
  obtain ⟨read, after, stepped, honest, move⟩ := client.readStep_move load.request load.phase
  generalize ends : after.backend.records = records at move
  cases move with
  | found stored held =>
      simp only [step, stepped]
      refine ⟨_, _, rfl, honest, ?_⟩
      rw [ends]
      exact .found stored held
  | created absent =>
      simp only [step, stepped]
      refine ⟨_, _, rfl, honest, ?_⟩
      rw [ends]
      exact .created absent
  | onward phase =>
      simp only [step, stepped]
      refine ⟨_, _, rfl, honest, ?_⟩
      rw [ends]
      exact .onward phase
  | failed error =>
      simp only [step, stepped]
      refine ⟨_, _, rfl, honest, ?_⟩
      rw [ends]
      cases recovered : load.cursor.recover draw error.retryable with
      | giveUp =>
          simp only [recover, recovered]
          exact .failed _
      | impossible =>
          simp only [recover, recovered]
          exact .stuck
      | retry cursor length =>
          simp only [recover, recovered]
          exact .paused cursor length

end ClaimStore
