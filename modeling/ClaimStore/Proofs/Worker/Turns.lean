import ClaimStore.Proofs.Worker.Steps

/-!
What a worker can do in one step when nothing is known of the clock and the record store.

Whatever they do, a worker answers only requests that it holds, and of those whose batch comes to an
end the one that it has held for longest.
-/
namespace ClaimStore

/-- Whether an answer tells how the batch of its request has ended. -/
def Answer.isOutcome : Answer → Bool
  | .committed | .rolledBack => true
  | .failed _ | .shutDown => false

theorem Answer.isOutcome_ofCommit (isCommitted : Bool) :
    (ofCommit isCommitted).isOutcome = true := by
  cases isCommitted <;> rfl

/-- The requests whose batch has ended, in the order in which they were told so. -/
def outcomes (answers : List (Nat × Answer)) : List Nat :=
  (answers.filter fun answer => answer.2.isOutcome).map Prod.fst

theorem outcomes_append (answers more : List (Nat × Answer)) :
    outcomes (answers ++ more) = outcomes answers ++ outcomes more := by
  rw [outcomes, List.filter_append, List.map_append]
  rfl

theorem outcomes_sublist (answers : List (Nat × Answer)) :
    (outcomes answers).Sublist (answers.map Prod.fst) :=
  List.filter_sublist.map Prod.fst

/-- What an update can be answered at once: an error, or its own changes under a foreign key. -/
inductive UpdateReply (changes : List Record) : Except StoreError (List Record) → Prop
  | failed (error : StoreError) : UpdateReply changes (.error error)
  | foreign : UpdateReply changes
      (.ok (changes.map fun change => { change with key := Backend.foreignKey }))

theorem Client.startUpdate_cases (client : Client) (changes : List Record) :
    (∃ delay after, client.startUpdate changes = (.started delay, after) ∧ Quiet client after) ∨
      ∃ result after, client.startUpdate changes = (.answered result, after) ∧
        after.backend.records = client.backend.records ∧ UpdateReply changes result := by
  unfold startUpdate Backend.startUpdate
  by_cases broken : 0 < client.backend.faults.internalUpdates
  · simp only [if_pos broken]
    exact .inr ⟨_, _, rfl, rfl, .failed _⟩
  · by_cases foreign : 0 < client.backend.faults.foreignMismatches
    · simp only [if_neg broken, if_pos foreign]
      exact .inr ⟨_, _, rfl, rfl, .foreign⟩
    · simp only [if_neg broken, if_neg foreign]
      exact .inl ⟨_, _, rfl, rfl, fun honest => honest⟩

namespace PoolStore

variable {batchSize : Nat} {isShutDown : Bool}

/-- The steps of any worker. Besides those of a worker whose clock works, it can die for want of a
clock, and an update can be answered at once. -/
inductive Turn : PoolStore × Surroundings → PoolStore × Surroundings → Prop
  | step {before after} (now : Timestamp) (step : Step now before after) : Turn before after
  | answered {store around batch now result client} (applying : store.phase = .applying batch [])
      (storable : Storage.poolFormat.isStorable batch.candidate = true)
      (records : client.backend.records = around.client.backend.records)
      (reply : UpdateReply [batch.change now] result) :
      Turn (store, around)
        ({ store with phase := .concluding batch (batch.conclude result) },
          { around with client })
  | die {store around batch} (applying : store.phase = .applying batch []) :
      Turn (store, around)
        ({ store with phase := .died },
          { around with
            answers := around.answers ++ batch.pending.map fun request => (request, .shutDown) })

theorem foldl_answer (around : Surroundings) (answer : Answer) (requests : List Nat) :
    requests.foldl (fun around request => around.answer request answer) around =
      { around with
        answers := around.answers ++ requests.map fun request => (request, answer) } := by
  induction requests generalizing around with
  | nil => simp
  | cons first rest ih =>
      rw [List.foldl_cons, ih]
      simp [Surroundings.answer]

theorem turn_send {store : PoolStore} {around : Surroundings} {batch : Batch} (now : Timestamp)
    (applying : store.phase = .applying batch [])
    (storable : Storage.poolFormat.isStorable batch.candidate = true) :
    Turn (store, around) (store.send batch (batch.change now) around) := by
  unfold send
  rcases around.client.startUpdate_cases [batch.change now] with
    ⟨delay, after, started, quiet⟩ | ⟨result, after, answered, records, reply⟩
  · rw [started]
    exact .step now (.send applying storable quiet)
  · rw [answered]
    exact .answered applying storable records reply

theorem turn_commit {store : PoolStore} {around : Surroundings} {batch : Batch}
    (applying : store.phase = .applying batch []) :
    Turn (store, around) (store.commit batch around) := by
  unfold commit
  split
  · exact .step default (.abandon applying (Client.Quiet.refl around.client))
  · rename_i storable
    split
    · rw [foldl_answer]
      exact .die applying
    · exact turn_send _ applying (by simpa using storable)

theorem turn_of_step? {before after : PoolStore × Surroundings}
    (stepped : step? batchSize isShutDown before = some after) : Turn before after := by
  obtain ⟨store, around⟩ := before
  rcases step_or_commit default stepped with step | ⟨batch, applying, committed⟩
  · exact .step default step
  · rw [committed]
    exact turn_commit applying

/-- Nothing is asked of the record store before all requests of a batch have been applied. -/
theorem applying_of_client {store next : PoolStore} {around after : Surroundings}
    (stepped : step? batchSize isShutDown (store, around) = some (next, after))
    (asked : after.client ≠ around.client) : ∃ batch, store.phase = .applying batch [] := by
  cases turn_of_step? stepped with
  | step now step =>
      cases step with
      | abandon applying | send applying => exact ⟨_, applying⟩
      | @conclude _ _ _ conclusion concluding =>
          exact absurd (around.conclude_frame conclusion).2.1 asked
      | wake | rest | take | accept | refuse | adopt | finish | resolve => exact absurd rfl asked
  | answered applying | die applying => exact ⟨_, applying⟩

/-- The requests of the batch in hand that have not been answered. -/
def inHand (store : PoolStore) : List Nat :=
  match store.phase with
  | .applying batch rest => batch.pending ++ rest.map Request.id
  | .awaiting batch _ _ | .concluding batch _ | .adopting batch _ => batch.pending
  | .resolving _ pending => pending
  | .idle | .taking | .stopped | .died => []

theorem held_eq (store : PoolStore) :
    store.held = store.inHand ++ store.queue.waiting.map Request.id := rfl

theorem inHand_of_rest {store : PoolStore} (rests : store.isDraining = false) :
    store.inHand = [] := by
  unfold inHand
  cases phase : store.phase with
  | idle | stopped | taking | died => rfl
  | applying | awaiting | concluding | adopting | resolving =>
      simp [isDraining, Phase.isDraining, phase] at rests

/-- What a worker does with the requests that it holds: it keeps them in their order, or answers
them. An outcome is that of the first one. -/
structure Serves (before after : List Nat) (told : List (Nat × Answer)) : Prop where
  whole : (told.map Prod.fst ++ after).Perm before
  ordered : (outcomes told ++ after).Sublist before

theorem Serves.refl (held : List Nat) : Serves held held [] :=
  ⟨List.Perm.refl held, List.Sublist.refl held⟩

variable {store next : PoolStore} {around after : Surroundings}

theorem Step.serves {now : Timestamp} (step : Step now (store, around) (next, after)) :
    ∃ told, after.answers = around.answers ++ told ∧ Serves store.held next.held told := by
  have silent : next.held = store.held → ∃ told, around.answers = around.answers ++ told ∧
      Serves store.held next.held told := by
    intro same
    rw [same]
    exact ⟨[], (List.append_nil _).symm, Serves.refl _⟩
  cases step with
  | wake idle same =>
      apply silent
      simp [held, idle, same]
  | rest taking passed =>
      apply silent
      rcases passed with rfl | rfl <;> simp [held, taking]
  | take requests waiting taking split some =>
      apply silent
      simp [held, taking, split, Batch.start]
  | accept applying accepted =>
      apply silent
      simp [held, applying]
  | @refuse _ _ batch request rest failure applying refused =>
      refine ⟨[(request.id, .failed failure)], rfl, ?_, ?_⟩
      · simp only [held, applying, List.map_cons, List.map_nil, List.append_assoc, List.cons_append,
          List.nil_append]
        exact List.perm_middle.symm
      · simp only [held, applying, outcomes, Answer.isOutcome, Bool.false_eq_true,
          not_false_eq_true, List.filter_cons_of_neg, List.filter_nil, List.map_nil,
          List.nil_append, List.map_cons, List.append_assoc, List.cons_append]
        exact (List.sublist_cons_self _ _).append_left _
  | abandon applying quiet | send applying storable quiet =>
      apply silent
      simp [held, applying]
  | @conclude _ _ batch conclusion concluding =>
      rw [(around.conclude_frame conclusion).1]
      apply silent
      simp [held, concluding]
  | adopt adopting =>
      apply silent
      simp [held, adopting]
  | finish resolving =>
      apply silent
      simp [held, resolving]
  | @resolve _ _ answer request rest resolving =>
      refine ⟨[(request, answer)], rfl, ?_, ?_⟩
      · simp [held, resolving]
      · have short : (outcomes [(request, answer)]).Sublist [request] := outcomes_sublist _
        simpa [held, resolving] using short.append_right _

theorem Turn.serves (turn : Turn (store, around) (next, after)) :
    ∃ told, after.answers = around.answers ++ told ∧ Serves store.held next.held told := by
  cases turn with
  | step now step => exact step.serves
  | answered applying storable records reply =>
      refine ⟨[], (List.append_nil _).symm, ?_⟩
      simp only [held, applying, List.map_nil, List.append_nil]
      exact Serves.refl _
  | @die _ _ batch applying =>
      refine ⟨_, rfl, ?_, ?_⟩
      · simp [held, applying, Function.comp_def]
      · have none : outcomes (batch.pending.map fun request => (request, Answer.shutDown)) = [] := by
          simp [outcomes, Answer.isOutcome]
        rw [none]
        simp [held, applying]

end PoolStore

end ClaimStore
