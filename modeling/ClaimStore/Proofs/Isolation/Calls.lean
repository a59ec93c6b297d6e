import ClaimStore.Load
import ClaimStore.Proofs.Fleet.Reading

/-!
What a call to the record store depends on.

As long as there are no faults, a call for a single record is answered from the record under its key
and the time that updates take, and changes nothing but that record.
-/
namespace ClaimStore

/-- No call is going to fail. -/
def Client.Healthy (client : Client) : Prop := client.backend.faults = {}

/-- There are no faults afterwards, and only the record under the key may have changed, as a function
of the one that was there. -/
structure Client.Changes (key : String) (change : Option Record → Option Record)
    (before after : Client) : Prop where
  healthy : after.Healthy
  delay : after.backend.updateDelay = before.backend.updateDelay
  here : after.backend.records.find? key = change (before.backend.records.find? key)
  elsewhere : ∀ text, text ≠ key →
    after.backend.records.find? text = before.backend.records.find? text

/-- Two clients that cannot be told apart by calls for the record under a key. -/
structure Client.Alike (key : String) (left right : Client) : Prop where
  healthy : left.Healthy ∧ right.Healthy
  delay : left.backend.updateDelay = right.backend.updateDelay
  found : left.backend.records.find? key = right.backend.records.find? key

/-- The outcome of a call, and what becomes of the record under the key, are functions of that record
and of the time that updates take. -/
def Client.Local {β : Type} (key : String) (call : Client → β × Client) : Prop :=
  ∃ (outcome : Option Record → Option Nat → β) (change : Option Record → Option Record),
    ∀ client : Client, client.Healthy →
      (call client).1 = outcome (client.backend.records.find? key) client.backend.updateDelay ∧
        client.Changes key change (call client).2

/-- How an attempt goes on with the answer to a call. An error ends it. -/
def ReadStep.ofAnswer {α : Type} (next : α → ReadStep) : Except StoreError α → ReadStep
  | .error error => .ended (.error (.store error))
  | .ok answer => next answer

namespace Client

variable {key : String} {change : Option Record → Option Record}
variable {client before after left right nextLeft nextRight : Client}

theorem changes_of_same (healthy : after.Healthy)
    (delay : after.backend.updateDelay = before.backend.updateDelay)
    (records : after.backend.records = before.backend.records) : Changes key id before after :=
  ⟨healthy, delay, by rw [records]; rfl, fun _ _ => by rw [records]⟩

namespace Alike

theorem refl (healthy : client.Healthy) (key : String) : Alike key client client :=
  ⟨⟨healthy, healthy⟩, rfl, rfl⟩

theorem symm (alike : Alike key left right) : Alike key right left :=
  ⟨alike.healthy.symm, alike.delay.symm, alike.found.symm⟩

theorem trans (first : Alike key left client) (second : Alike key client right) :
    Alike key left right :=
  ⟨⟨first.healthy.1, second.healthy.2⟩, first.delay.trans second.delay,
    first.found.trans second.found⟩

theorem changes (alike : Alike key left right) (changesLeft : Changes key change left nextLeft)
    (changesRight : Changes key change right nextRight) : Alike key nextLeft nextRight := by
  refine ⟨⟨changesLeft.healthy, changesRight.healthy⟩, ?_, ?_⟩
  · rw [changesLeft.delay, alike.delay, changesRight.delay]
  · rw [changesLeft.here, alike.found, changesRight.here]

end Alike

theorem Changes.alike {text : String} (changes : Changes key change before after)
    (healthy : before.Healthy) (other : text ≠ key) : Alike text before after :=
  ⟨⟨healthy, changes.healthy⟩, changes.delay.symm, (changes.elsewhere text other).symm⟩

theorem local_getOne (key : String) : Local key fun client => client.getOne key := by
  refine ⟨fun found _ => .ok found, id, ?_⟩
  intro client healthy
  unfold Healthy at healthy
  have call : client.getOne key = (.ok (client.backend.records.find? key),
      { client with meters := client.meters.add .get true }) := by
    simp [getOne, get, record, Backend.get, healthy, Except.map, Records.find?_select]
  simp only [call]
  exact ⟨trivial, changes_of_same healthy rfl rfl⟩

/-- Where there is a record, its key is taken; where there is none, the new one is put. -/
theorem local_create (record : Record) :
    Local record.key fun client => client.create [record] := by
  refine ⟨fun found _ => .ok (if found.isSome then [record.key] else []),
    fun found => some (found.getD { record with version := .first }), ?_⟩
  intro client healthy
  unfold Healthy at healthy
  have call : client.create [record] = (.ok (client.backend.records.create [record]).1,
      { backend := { client.backend with records := (client.backend.records.create [record]).2 }
        meters := client.meters.add .create true }) := by
    simp [create, Client.record, Backend.create, healthy]
  simp only [call]
  cases found : client.backend.records.find? record.key with
  | none =>
      have made : client.backend.records.create [record] =
          ([], client.backend.records.put { record with version := .first }) := by
        simp [Records.create, Records.createOne, Table.contains, found]
      simp only [made]
      refine ⟨rfl, healthy, rfl, ?_, ?_⟩
      · simp [found, Records.put, Table.find?_insert]
      · intro text other
        simp [Records.put, Table.find?_insert, other]
  | some stored =>
      have taken : client.backend.records.create [record] =
          ([record.key], client.backend.records) := by
        simp [Records.create, Records.createOne, Table.contains, found]
      simp only [taken]
      exact ⟨rfl, healthy, rfl, by simp [found], fun _ _ => rfl⟩

theorem startUpdate_healthy (healthy : client.Healthy) (changes : List Record) (key : String) :
    ∃ after, client.startUpdate changes = (.started client.backend.updateDelay, after) ∧
      client.Changes key id after := by
  unfold Healthy at healthy
  simp only [startUpdate, Backend.startUpdate, healthy, Nat.lt_irrefl, if_false]
  exact ⟨_, rfl, changes_of_same rfl rfl rfl⟩

theorem abandonUpdate_healthy (healthy : client.Healthy) (key : String) :
    client.Changes key id client.abandonUpdate :=
  changes_of_same healthy rfl rfl

/-- The record is replaced if it is the expected one. -/
theorem local_finishUpdate (change : Record) :
    Local change.key fun client => client.finishUpdate [change] := by
  refine ⟨fun found _ => found.elim (.error (.notFound change.key)) fun stored =>
      .ok (if stored.version = change.version then [] else [stored]),
    fun found => found.map fun stored =>
      if stored.version = change.version then { change with version := change.version.next }
      else stored, ?_⟩
  intro client healthy
  unfold Healthy at healthy
  simp only [finishUpdate, record, Backend.finishUpdate, healthy, Nat.lt_irrefl, if_false]
  rcases client.backend.records.update_single change with
    ⟨missing, absent⟩ | ⟨result, records, updated, ends⟩
  · simp only [missing, absent]
    exact ⟨rfl, rfl, rfl, by simp [absent], fun _ _ => rfl⟩
  · have elsewhere := fun text (other : text ≠ change.key) => ends.elsewhere other
    simp only [updated]
    cases ends with
    | refused stored found other =>
        exact ⟨by simp [found, other], rfl, rfl, by simp [found, other], elsewhere⟩
    | written stored found same =>
        exact ⟨by simp [found, same], rfl, rfl, by simp [found, same, Records.find?_write],
          elsewhere⟩

/-- What is made of the outcome of a call alone is as local as the call. -/
theorem Local.map {β γ : Type} {call : Client → β × Client} {more : Client → γ × Client}
    (own : Local key call) (finish : β → γ)
    (same : ∀ client, more client = (finish (call client).1, (call client).2)) : Local key more := by
  obtain ⟨outcome, change, calls⟩ := own
  refine ⟨fun found delay => finish (outcome found delay), change, ?_⟩
  intro client healthy
  obtain ⟨answered, changes⟩ := calls client healthy
  rw [same, answered]
  exact ⟨rfl, changes⟩

theorem local_readStep (request : ReadRequest) (phase : ReadPhase) :
    Local request.key fun client => client.readStep request phase := by
  cases phase with
  | reading =>
      refine (local_getOne request.key).map (ReadStep.ofAnswer fun found =>
        found.elim (.continued .creating) fun stored => .ended (.ok stored)) ?_
      intro client
      simp only [readStep]
      split <;> rename_i got <;> simp [got, ReadStep.ofAnswer]
  | creating =>
      refine (local_create request.record).map (ReadStep.ofAnswer fun taken =>
        if taken.isEmpty then .ended (.ok request.record) else .continued .rereading) ?_
      intro client
      simp only [readStep]
      split <;> rename_i made <;> simp [made, ReadStep.ofAnswer]
  | rereading =>
      refine (local_getOne request.key).map (ReadStep.ofAnswer fun found =>
        found.elim (.ended (.error (.removedConcurrently request.key))) fun stored =>
          .ended (.ok stored)) ?_
      intro client
      simp only [readStep]
      split <;> rename_i got <;> simp [got, ReadStep.ofAnswer]

end Client

theorem Load.local_step (draw : Draw) (load : Load) :
    Client.Local load.request.key fun client => load.step draw client := by
  refine (Client.local_readStep load.request load.phase).map (fun outcome =>
    match outcome with
    | .continued phase => .continued { load with phase }
    | .ended (.ok record) => .ended (load.decode record)
    | .ended (.error error) => load.recover draw error) ?_
  intro client
  simp only [Load.step]
  split <;> rename_i stepped <;> simp [stepped]

end ClaimStore
