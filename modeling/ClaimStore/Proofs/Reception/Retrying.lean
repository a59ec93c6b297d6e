import ClaimStore.Proofs.Reception.Stores

/-!
What becomes of a load.

Nobody but the caller who has started a load can end it. It ends with a store if the record store
gives a record that can be decoded, and there is no shutdown before the store has been created.
-/
namespace ClaimStore

/-- What an attempt leads to that has ended. -/
def Load.conclude (draw : Draw) (load : Load) : Except ReadError Record → LoadStep
  | .ok record => .ended (load.decode record)
  | .error error => load.recover draw error

theorem Load.step_eq (draw : Draw) (load : Load) (client : Client) :
    load.step draw client =
      match client.readStep load.request load.phase with
      | (.continued phase, after) => (.continued { load with phase }, after)
      | (.ended result, after) => (load.conclude draw result, after) := by
  unfold step
  split <;> rename_i stepped <;> rw [stepped]
  · rfl
  · rfl

/-- Whether an act leaves it to a caller to go on, and to the registry to create stores. -/
def ReceptionAct.spares (index : Nat) : ReceptionAct → Bool
  | .enter call | .load call _ | .install call | .settle call | .leave call => call ≠ index
  | .shutDown => false
  | .ask _ | .look _ | .push _ _ | .notify _ | .work _ | .finishUpdate _ | .abandonUpdate _
  | .others _ _ => true

namespace Reception

/-- A caller has come so far at a registry that has not been shut down. -/
structure Reaches (reception : Reception) (index : Nat) (call : Call) : Prop where
  held : reception.calls[index]? = some call
  isOpen : reception.registry.isShutDown = false

variable {reception after : Reception} {index : Nat} {key : PoolKey} {call : Call}

theorem Reaches.other (reaches : reception.Reaches index call) {other : Nat} {next : Call}
    (apart : other ≠ index) (calls : after.calls = reception.calls.set other next)
    (isShutDown : after.registry.isShutDown = reception.registry.isShutDown) :
    after.Reaches index call := by
  refine ⟨?_, isShutDown.trans reaches.isOpen⟩
  rw [calls, List.getElem?_set_ne apart]
  exact reaches.held

theorem Reaches.advance (reaches : reception.Reaches index call) {next : Call}
    (calls : after.calls = reception.calls.set index next)
    (isShutDown : after.registry.isShutDown = reception.registry.isShutDown) :
    after.Reaches index next := by
  refine ⟨?_, isShutDown.trans reaches.isOpen⟩
  rw [calls]
  exact List.getElem?_set_self (List.getElem?_eq_some_iff.mp reaches.held).1

theorem Reaches.append (reaches : reception.Reaches index call) (next : Call) :
    Reaches { reception with calls := reception.calls ++ [next] } index call :=
  ⟨List.getElem?_append_left (List.getElem?_eq_some_iff.mp reaches.held).1 ▸ reaches.held,
    reaches.isOpen⟩

theorem Reaches.drive (reaches : reception.Reaches index call) (key : PoolKey)
    {action : PoolStore × Surroundings → Option (PoolStore × Surroundings)} :
    (reception.drive key (reception.registry.act? reception.client key action)).Reaches index
      call := by
  unfold Reception.drive
  cases acted : reception.registry.act? reception.client key action with
  | none => exact reaches
  | some result =>
      exact ⟨reaches.held, (Registry.act?_settings acted).isShutDown.trans reaches.isOpen⟩

/-- What others do leaves a caller alone. -/
theorem Reaches.act (reaches : reception.Reaches index call) {act : ReceptionAct}
    (spares : act.spares index = true) : (reception.act act).Reaches index call := by
  cases act with
  | ask key | look key => exact reaches.append _
  | enter other =>
      have apart : other ≠ index := of_decide_eq_true spares
      simp only [Reception.act, Reception.enter]
      split
      · split
        · exact reaches.other apart rfl rfl
        · exact reaches
        · split <;> exact reaches.other apart rfl rfl
      · exact reaches
  | load other draw =>
      have apart : other ≠ index := of_decide_eq_true spares
      simp only [Reception.act, Reception.load]
      split
      · unfold Reception.resume
        split <;> exact reaches.other apart rfl rfl
      · exact reaches
  | install other =>
      have apart : other ≠ index := of_decide_eq_true spares
      simp only [Reception.act, Reception.install]
      split
      · split
        · exact reaches.other apart rfl rfl
        · rename_i registry installed
          exact reaches.other apart rfl (Registry.install_settings installed).isShutDown
      · exact reaches
  | settle other =>
      have apart : other ≠ index := of_decide_eq_true spares
      simp only [Reception.act, Reception.settle]
      split
      · exact reaches.other apart rfl rfl
      · exact reaches
  | leave other =>
      have apart : other ≠ index := of_decide_eq_true spares
      simp only [Reception.act, Reception.leave]
      split
      · exact reaches.other apart rfl rfl
      · exact reaches.other apart rfl rfl
      · exact reaches
  | push other mutation =>
      simp only [Reception.act, Reception.push]
      split
      · exact reaches
      · exact ⟨reaches.held, (Registry.push_settings _ _ _).isShutDown.trans reaches.isOpen⟩
  | notify other =>
      simp only [Reception.act, Reception.notify]
      split
      · exact reaches
      · exact ⟨reaches.held, (Registry.notify_settings _ _).isShutDown.trans reaches.isOpen⟩
  | work key | finishUpdate key | abandonUpdate key => exact reaches.drive key
  | shutDown => cases spares
  | others client clock => exact ⟨reaches.held, reaches.isOpen⟩

@[simp]
theorem run_nil (reception : Reception) : reception.run [] = reception := rfl

@[simp]
theorem run_cons (reception : Reception) (first : ReceptionAct) (rest : List ReceptionAct) :
    reception.run (first :: rest) = (reception.act first).run rest := rfl

theorem run_append (reception : Reception) (first second : List ReceptionAct) :
    reception.run (first ++ second) = (reception.run first).run second :=
  List.foldl_append

theorem Reaches.run (reaches : reception.Reaches index call) {acts : List ReceptionAct}
    (spare : ∀ act ∈ acts, act.spares index = true) : (reception.run acts).Reaches index call := by
  induction acts generalizing reception with
  | nil => exact reaches
  | cons first rest ih =>
      exact ih (reaches.act (spare first List.mem_cons_self))
        fun act member => spare act (List.mem_cons_of_mem _ member)

/-- The caller goes on with its load, with the client as the step has left it. -/
theorem Reaches.load {load : Load} (reaches : reception.Reaches index (.loading key (.underway load)))
    {draw : Draw} {step : LoadStep} {client : Client} {next : Loading}
    (stepped : load.step draw reception.client = (step, client))
    (onward : step.loading? = some next) :
    (reception.load index draw).Reaches index (.loading key next) ∧
      (reception.load index draw).client = client := by
  have moved : reception.load index draw =
      { reception with client }.setCall index (.loading key next) := by
    simp only [Reception.load, reaches.held, stepped]
    cases step with
    | continued | paused =>
        cases onward
        rfl
    | ended result =>
        cases result with
        | ok snapshot =>
            cases onward
            rfl
        | error error => cases onward
    | impossible => cases onward
  rw [moved]
  exact ⟨reaches.advance rfl rfl, rfl⟩

theorem Reaches.install {snapshot : Snapshot}
    (reaches : reception.Reaches index (.loading key (.found snapshot))) :
    (reception.install index).Reaches index (.settling key reception.created.length) := by
  have made : ∃ registry, reception.registry.install snapshot = .ok registry := by
    rw [Registry.install, reaches.isOpen]
    exact ⟨_, rfl⟩
  obtain ⟨registry, installed⟩ := made
  simp only [Reception.install, reaches.held, installed]
  exact reaches.advance rfl (Registry.install_settings installed).isShutDown

theorem Reaches.settle {place : Nat} (reaches : reception.Reaches index (.settling key place)) :
    (reception.settle index).Reaches index (.served key place) := by
  simp only [Reception.settle, reaches.held]
  exact reaches.advance rfl rfl

/-- All steps of an attempt, with nothing in between. The induction is on how many may be left. -/
theorem Reaches.attempt {load : Load}
    (reaches : reception.Reaches index (.loading key (.underway load))) (draw : Draw)
    {result : Except ReadError Record} {client : Client} {next : Loading}
    (read : reception.client.readFrom load.request load.phase = (result, client))
    (onward : (load.conclude draw result).loading? = some next) :
    ∃ count, (reception.run (List.replicate count (.load index draw))).Reaches index
        (.loading key next) ∧
      (reception.run (List.replicate count (.load index draw))).client = client := by
  induction left : load.phase.ahead using Nat.strong_induction_on generalizing reception load with
  | _ left ih =>
      cases stepped : reception.client.readStep load.request load.phase with
      | mk step after =>
          cases step with
          | ended =>
              rw [Client.readFrom_ended stepped] at read
              cases read
              have whole : load.step draw reception.client = (load.conclude draw result, client) := by
                rw [Load.step_eq, stepped]
              exact ⟨1, reaches.load whole onward⟩
          | continued phase =>
              rw [Client.readFrom_continued stepped] at read
              have part : load.step draw reception.client =
                  (.continued { load with phase }, after) := by
                rw [Load.step_eq, stepped]
              obtain ⟨further, same⟩ := reaches.load part rfl
              rw [← same] at read
              have later : (({ load with phase } : Load).conclude draw result).loading? = some next := by
                cases result <;> exact onward
              obtain ⟨count, ended⟩ := ih phase.ahead (left ▸ Client.ahead_lt stepped) further read
                later rfl
              exact ⟨count + 1, ended⟩

/-- All attempts of a load, with nothing in between. -/
theorem Reaches.attempts {fuel : Nat} {request : ReadRequest} {cursor : RetryCursor}
    (reaches : reception.Reaches index (.loading key (.underway ⟨key, request, .reading, cursor⟩)))
    (draw : Draw) {record : Record} {client : Client} {snapshot : Snapshot}
    (read : Client.readAgain draw request fuel cursor reception.client = (some (.ok record), client))
    (decoded : Snapshot.ofRecord key record = .ok snapshot) :
    ∃ count, (reception.run (List.replicate count (.load index draw))).Reaches index
      (.loading key (.found snapshot)) := by
  induction fuel generalizing reception cursor with
  | zero => cases read
  | succ fuel ih =>
      cases once : reception.client.readOnce request with
      | mk result after =>
          cases result with
          | ok found =>
              simp only [Client.readAgain, once] at read
              cases read
              have onward : (Load.conclude draw ⟨key, request, .reading, cursor⟩ (.ok record)).loading? =
                  some (.found snapshot) := by
                simp [Load.conclude, Load.decode, decoded, LoadStep.loading?]
              obtain ⟨count, ended, -⟩ := reaches.attempt draw once onward
              exact ⟨count, ended⟩
          | error error =>
              simp only [Client.readAgain, once] at read
              cases recovered : cursor.recover draw error.retryable with
              | giveUp | impossible =>
                  rw [recovered] at read
                  cases read
              | retry moved length =>
                  rw [recovered] at read
                  have onward :
                      (Load.conclude draw ⟨key, request, .reading, cursor⟩ (.error error)).loading? =
                        some (.underway ⟨key, request, .reading, moved⟩) := by
                    simp [Load.conclude, Load.recover, recovered, LoadStep.loading?]
                  obtain ⟨first, ended, same⟩ := reaches.attempt draw once onward
                  rw [← same] at read
                  obtain ⟨rest, found⟩ := ih ended read
                  refine ⟨first + rest, ?_⟩
                  rw [List.replicate_add, run_append]
                  exact found

end Reception

end ClaimStore
