import ClaimStore.Proofs.Reception.Retrying
import ClaimStore.Proofs.Retry.Pauses

/-!
Loads that do not break down.

A load breaks down only if a pause cannot be computed. If the policy of the registry leaves room for
its pauses, every load goes on until it ends with a store or with an error.
-/
namespace ClaimStore

variable {policy : RetryPolicy}

/-- The load can go on, and its cursor is on the track of the policy. -/
def LoadStep.Steady (policy : RetryPolicy) : LoadStep → Prop
  | .continued load | .paused load _ => load.cursor.OnTrack policy
  | .ended _ => True
  | .impossible => False

theorem Load.steady_recover {load : Load} (onTrack : load.cursor.OnTrack policy)
    (sound : policy.Sound) (roomy : policy.Roomy) (draw : Draw) (error : ReadError) :
    (load.recover draw error).Steady policy := by
  obtain ⟨possible, onward⟩ := onTrack.next sound roomy draw
  unfold Load.recover RetryCursor.recover
  cases error.retryable with
  | false => trivial
  | true =>
      cases stepped : load.cursor.next draw with
      | mk step next =>
          rw [stepped] at possible onward
          cases step with
          | exhausted => trivial
          | pause base length => exact onward
          | impossible => exact absurd rfl possible

theorem Load.steady_step {load : Load} (onTrack : load.cursor.OnTrack policy)
    (sound : policy.Sound) (roomy : policy.Roomy) (draw : Draw) (client : Client) :
    (load.step draw client).1.Steady policy := by
  unfold Load.step
  split
  · exact onTrack
  · trivial
  · exact Load.steady_recover onTrack sound roomy draw _

/-- The load of a caller can go on, and a caller who has gone has left. -/
def Call.Steady (policy : RetryPolicy) (hasLeft : Prop) : Call → Prop
  | .loading _ (.underway load) => load.cursor.OnTrack policy
  | .gone _ => hasLeft
  | .loading _ (.found _) | .waiting _ | .settling _ _ | .served _ _ | .missed _ | .refused _ _ =>
      True

namespace Reception

/-- All callers of a registry with a working clock are steady. `left` holds of those who may have
left. -/
structure Patient (reception : Reception) (options : Options) (left : Nat → Prop) : Prop where
  configured : reception.registry.options = options
  clock : reception.registry.clock.isSome = true
  calls : ∀ (index : Nat) (call : Call), reception.calls[index]? = some call →
    call.Steady options.loadPolicy (left index)

variable {reception after : Reception} {options : Options} {left : Nat → Prop}

theorem Patient.frame (patient : reception.Patient options left)
    (calls : after.calls = reception.calls)
    (same : reception.registry.SameSettings after.registry) : after.Patient options left :=
  ⟨same.options.trans patient.configured, same.clock ▸ patient.clock, calls ▸ patient.calls⟩

theorem Patient.append (patient : reception.Patient options left) {call : Call}
    (steady : ∀ hasLeft, call.Steady options.loadPolicy hasLeft) :
    Patient { reception with calls := reception.calls ++ [call] } options left := by
  refine ⟨patient.configured, patient.clock, ?_⟩
  intro index other held
  rcases Nat.lt_or_ge index reception.calls.length with within | beyond
  · rw [List.getElem?_append_left within] at held
    exact patient.calls index other held
  · rw [List.getElem?_append_right beyond, List.getElem?_singleton] at held
    split at held <;> cases held
    exact steady _

theorem Patient.advance (patient : reception.Patient options left) {index : Nat} {call : Call}
    (calls : after.calls = reception.calls.set index call)
    (same : reception.registry.SameSettings after.registry)
    (steady : call.Steady options.loadPolicy (left index)) : after.Patient options left := by
  refine ⟨same.options.trans patient.configured, same.clock ▸ patient.clock, ?_⟩
  intro other found held
  rw [calls] at held
  by_cases own : index = other
  · subst own
    rw [List.getElem?_set_self'] at held
    cases there : reception.calls[index]? with
    | none => simp [there] at held
    | some old =>
        simp only [there, Option.map_eq_map, Option.map_some, Function.const_apply,
          Option.some.injEq] at held
        exact held ▸ steady
  · rw [List.getElem?_set_ne own] at held
    exact patient.calls other found held

theorem Patient.set (patient : reception.Patient options left) {index : Nat} {call : Call}
    (calls : after.calls = reception.calls.set index call)
    (registry : after.registry = reception.registry)
    (steady : call.Steady options.loadPolicy (left index)) : after.Patient options left :=
  patient.advance calls (registry ▸ ⟨rfl, rfl, rfl⟩) steady

theorem patient_start {registry : Registry} {now : Timestamp} (client : Client)
    (created : Registry.create options now = .ok registry) (left : Nat → Prop) :
    (start registry client).Patient options left := by
  unfold Registry.create at created
  split at created <;> cases created
  exact ⟨rfl, rfl, fun _ _ held => by cases held⟩

theorem Patient.enter (patient : reception.Patient options left) (index : Nat) :
    (reception.enter index).Patient options left := by
  obtain ⟨now, clock⟩ := Option.isSome_iff_exists.mp patient.clock
  unfold Reception.enter
  split
  · split
    · exact patient.set rfl rfl trivial
    · exact patient
    · split
      · rename_i load begun
        refine patient.set rfl rfl ?_
        simp only [Registry.beginLoad, clock, patient.configured] at begun
        split at begun <;> cases begun
        exact RetryCursor.onTrack_start _
      · exact patient.set rfl rfl trivial
      · rename_i begun
        simp only [Registry.beginLoad, clock] at begun
        split at begun <;> cases begun
      · rename_i begun
        simp only [Registry.beginLoad, clock] at begun
        split at begun <;> cases begun
  · exact patient

theorem Patient.load (patient : reception.Patient options left) (sound : options.loadPolicy.Sound)
    (roomy : options.loadPolicy.Roomy) (index : Nat) (draw : Draw) :
    (reception.load index draw).Patient options left := by
  unfold Reception.load
  split
  · rename_i key load held
    have steady := Load.steady_step (patient.calls index _ held) sound roomy draw reception.client
    cases stepped : load.step draw reception.client with
    | mk step client =>
        rw [stepped] at steady
        cases step with
        | continued next | paused next length => exact patient.set rfl rfl steady
        | ended result => cases result <;> exact patient.set rfl rfl trivial
        | impossible => exact steady.elim
  · exact patient

theorem Patient.drive (patient : reception.Patient options left) (key : PoolKey)
    {action : PoolStore × Surroundings → Option (PoolStore × Surroundings)} :
    (reception.drive key (reception.registry.act? reception.client key action)).Patient options
      left := by
  unfold Reception.drive
  cases acted : reception.registry.act? reception.client key action with
  | none => exact patient
  | some result => exact patient.frame rfl (Registry.act?_settings acted)

/-- Callers stay patient as long as the clock works, and only those who leave are gone. -/
theorem Patient.act (patient : reception.Patient options left) (sound : options.loadPolicy.Sound)
    (roomy : options.loadPolicy.Roomy) {act : ReceptionAct}
    (leaves : ∀ index, act = .leave index → left index)
    (ticks : ∀ client, act ≠ .others client none) : (reception.act act).Patient options left := by
  cases act with
  | ask key =>
      refine patient.append fun _ => ?_
      split <;> trivial
  | look key =>
      refine patient.append fun _ => ?_
      split <;> trivial
  | enter index => exact patient.enter index
  | load index draw => exact patient.load sound roomy index draw
  | install index =>
      simp only [Reception.act, Reception.install]
      split
      · split
        · exact patient.set rfl rfl trivial
        · rename_i registry installed
          exact patient.advance rfl (Registry.install_settings installed) trivial
      · exact patient
  | settle index =>
      simp only [Reception.act, Reception.settle]
      split
      · exact patient.set rfl rfl trivial
      · exact patient
  | leave index =>
      simp only [Reception.act, Reception.leave]
      split
      · exact patient.set rfl rfl (leaves index rfl)
      · exact patient.set rfl rfl (leaves index rfl)
      · exact patient
  | push index mutation =>
      simp only [Reception.act, Reception.push]
      split
      · exact patient
      · exact patient.frame rfl (Registry.push_settings _ _ _)
  | notify index =>
      simp only [Reception.act, Reception.notify]
      split
      · exact patient
      · exact patient.frame rfl (Registry.notify_settings _ _)
  | work key | finishUpdate key | abandonUpdate key => exact patient.drive key
  | shutDown => exact ⟨patient.configured, patient.clock, patient.calls⟩
  | others client clock =>
      cases clock with
      | none => exact absurd rfl (ticks client)
      | some now => exact ⟨patient.configured, rfl, patient.calls⟩

theorem Patient.run (patient : reception.Patient options left) (sound : options.loadPolicy.Sound)
    (roomy : options.loadPolicy.Roomy) {acts : List ReceptionAct}
    (leaves : ∀ index, .leave index ∈ acts → left index)
    (ticks : ∀ client, .others client none ∉ acts) : (reception.run acts).Patient options left := by
  induction acts generalizing reception with
  | nil => exact patient
  | cons first rest ih =>
      have next : (reception.act first).Patient options left := by
        refine patient.act sound roomy ?_ ?_
        · rintro index rfl
          exact leaves index List.mem_cons_self
        · rintro client rfl
          exact ticks client List.mem_cons_self
      exact ih next (fun index member => leaves index (List.mem_cons_of_mem _ member))
        fun client member => ticks client (List.mem_cons_of_mem _ member)

/-- If the options that a registry has been created with leave room for their pauses, every pause
can be computed, whatever has been drawn and however often, and no load breaks down: a caller goes
on until it is given a store or an error, unless it leaves. Each load asks for fewer than 2^64 pauses,
so that a 64-bit word counts them. -/
theorem loads_never_break_down {options : Options} {now : Timestamp} {registry : Registry}
    (created : Registry.create options now = .ok registry) (roomy : options.loadPolicy.Roomy) :
    (∀ (draws : List Draw) (draw : Draw),
      (((RetryCursor.start options.loadPolicy).after draws).next draw).1 ≠ .impossible) ∧
    ∀ (client : Client) (acts : List ReceptionAct),
      (∀ other, ReceptionAct.others other none ∉ acts) → ∀ (index : Nat) (key : PoolKey),
        ((start registry client).run acts).calls[index]? = some (.gone key) →
          ReceptionAct.leave index ∈ acts := by
  have sound : options.loadPolicy.Sound := by
    apply Options.sound_of_fault?
    unfold Registry.create at created
    split at created
    · cases created
    · assumption
  constructor
  · intro draws draw
    have onTrack := (RetryCursor.onTrack_start options.loadPolicy).after sound roomy draws
    exact (onTrack.next sound roomy draw).1
  · intro client acts ticks index key gone
    have patient := (patient_start client created fun index => ReceptionAct.leave index ∈ acts).run
      sound roomy (fun _ member => member) ticks
    exact patient.calls index _ gone

/-- The default policy leaves room. -/
theorem loads_never_break_down_default :
    let registry : Registry := ⟨default, some .epoch, .empty, .empty, false, {}, []⟩
    Registry.create default .epoch = .ok registry ∧
      ∀ (draws : List Draw) (draw : Draw),
        (((RetryCursor.start Options.defaultPolicy).after draws).next draw).1 ≠ .impossible := by
  intro registry
  have created : Registry.create default .epoch = .ok registry := by
    have accepted : (default : Options).fault? = none := by decide +kernel
    rw [Registry.create, accepted]
  have finite : (Number.Single.ofInt 2).toRat? = some 2 := by
    have datum : (Number.Single.ofInt 2).datum = .finite false 8388608 (-22) := by decide +kernel
    rw [Number.Single.toRat?, datum]
    norm_num
  have first : ((Duration.ofMillis 10).nanos : ℚ) ≤ 1000000000 := by
    exact_mod_cast (by decide : (Duration.ofMillis 10).nanos ≤ 1000000000)
  have last : ((Duration.ofMillis 1000).nanos : ℚ) ≤ 1000000000 := by
    exact_mod_cast (by decide : (Duration.ofMillis 1000).nanos ≤ 1000000000)
  have roomy : (default : Options).loadPolicy.Roomy := by
    apply RetryPolicy.roomy_of_longest _ finite (by decide +kernel) first last
    · norm_num [Duration.jitteredAtMost, Duration.room, JitterRange.least, nanosPerMilli,
        nanosPerSecond, UInt64.size]
    · norm_num [Duration.scaledAtMost, Duration.room, nanosPerSecond, UInt64.size]
  exact ⟨created, (loads_never_break_down created roomy).1⟩

/-- Options that are accepted and with which the second pause cannot be computed: the product is too
great before it is cut to the longest pause, or the factor is not a number. -/
theorem second_pause_impossible :
    let options (factor : Number.Single) : Options :=
      ⟨.ofMillis 5000, .exponential (.ofMillis 10) factor none (some (.ofMillis 1000)), none⟩
    let huge := Number.Decimal.toDouble ⟨false, 1, 38⟩
    let second (factor : Number.Single) : RetryStep :=
      (((RetryCursor.start (options factor).loadPolicy).after [.shortest]).next .shortest).1
    (options huge.toSingle).fault? = none ∧ second huge.toSingle = .impossible ∧
      (options .nan).fault? = none ∧ second .nan = .impossible := by
  decide +kernel

end Reception

end ClaimStore
