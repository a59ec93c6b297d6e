import ClaimStore.Proofs.Desk
import ClaimStore.Proofs.Ledger

/-!
Updates whose effect is not known.

The change of a batch is a message to the store, which carries it out at any time or never, as an
update that depends on the version. The worker may hear of the outcome, or of an error that tells
nothing about it, or give up. Others write to the store as well.
-/
namespace ClaimStore

structure Message where
  writer : Nat
  change : Record

/-- A pool with its worker, the messages that the store has not carried out, and the reply to the
message of the batch in hand, if the store has given it. The ledger is kept for the record. -/
structure Wire where
  key : PoolKey
  desk : Desk
  flying : List Message
  reply? : Option (Except StoreError (List Record))
  ledger : Ledger Nat

/-- What happens between a worker and the store: besides what happens at the pool, a message is
carried out, the reply to it arrives, the worker hears of an error or gives up, or somebody else
updates a record. -/
inductive WireAct
  | desk (act : DeskAct)
  | deliver (index : Nat)
  | answer
  | fail (error : StoreError)
  | giveUp
  | write (change : Record)

def Records.carryOut (records : Records) (change : Record) :
    Except StoreError (List Record) × Records :=
  match records.update [change] with
  | (.error key, after) => (.error (.notFound key), after)
  | (.ok found, after) => (.ok found, after)

theorem Records.end_of_carryOut (records : Records) (change : Record) :
    UpdateEnd change records (records.carryOut change).1 (records.carryOut change).2 := by
  unfold carryOut
  rcases records.update_single change with ⟨missing, -⟩ | ⟨_, _, updated, ends⟩
  · rw [missing]
    exact .failed _
  · rw [updated]
    exact ends

namespace Wire

/-- A worker that knows of the pool what one of the past records tells. -/
def start (past : List Record) (snapshot : Snapshot) (around : Surroundings) : Wire :=
  ⟨snapshot.key, .start snapshot around, [], none, past.map fun record => (record, none)⟩

def records (wire : Wire) : Records := wire.desk.around.client.backend.records

def stored? (wire : Wire) : Option Record := wire.records.find? wire.key.text

def replace (wire : Wire) (records : Records) (source : Option Nat) : Wire :=
  let client := wire.desk.around.client
  let after := { client with backend := { client.backend with records } }
  { wire with
    desk := { wire.desk with around := { wire.desk.around with client := after } }
    ledger := wire.ledger.note wire.stored? (records.find? wire.key.text) source }

/-- The message that a worker sends in a step. -/
def sent? (before after : Desk) : Option Message :=
  match before.store.phase, after.store.phase with
  | .applying _ _, .awaiting _ change _ => some ⟨after.log.batches.length - 1, change⟩
  | _, _ => none

def conclude (wire : Wire) (reply : Except StoreError (List Record)) : Wire :=
  match wire.desk.store.phase with
  | .awaiting batch _ _ =>
      let store := { wire.desk.store with phase := .concluding batch (batch.conclude reply) }
      { wire with desk := { wire.desk with store } }
  | _ => wire

def act (batchSize : Nat) (wire : Wire) : WireAct → Wire
  | .desk act =>
      let desk := wire.desk.act batchSize act
      match sent? wire.desk desk with
      | none => { wire with desk }
      | some message => { wire with desk, flying := wire.flying ++ [message], reply? := none }
  | .deliver index =>
      match wire.flying[index]? with
      | none => wire
      | some message =>
          let (reply, records) := wire.records.carryOut message.change
          { wire.replace records (some message.writer) with
            flying := wire.flying.eraseIdx index
            reply? :=
              if message.writer + 1 = wire.desk.log.batches.length then some reply
              else wire.reply? }
  | .answer =>
      match wire.reply? with
      | none => wire
      | some reply => wire.conclude reply
  | .fail error => wire.conclude (.error error)
  | .giveUp =>
      { wire with desk := wire.desk.update (PoolStore.abandonUpdate? (wire.desk.store, wire.desk.around)) }
  | .write change => wire.replace (wire.records.carryOut change).2 none

def run (batchSize : Nat) (acts : List WireAct) (wire : Wire) : Wire :=
  acts.foldl (act batchSize) wire

def reflected (wire : Wire) : List Nat :=
  wire.ledger.writers.flatMap fun writer =>
    (wire.desk.log.batches[writer]?.map fun taken => taken.batch.pending).getD []

/-- What is known of a message until it is carried out. -/
def Flies (wire : Wire) (message : Message) : Prop :=
  ∃ taken now, wire.desk.log.batches[message.writer]? = some taken ∧
    message.change = taken.batch.change now ∧
    Storage.poolFormat.isStorable taken.batch.candidate = true ∧
    taken.before.Coherent wire.key wire.ledger.records ∧ message.writer ∉ wire.ledger.writers

/-- Every batch is sent once, and a batch that the worker takes for committed has been carried
out. -/
structure Sound (wire : Wire) : Prop where
  desk : ∃ verdict, wire.desk.Sound verdict ∧
    ∀ index, verdict index = true → index ∈ wire.ledger.writers
  ledger : wire.ledger.Sound wire.key (fun index => wire.desk.log.batches[index]?) wire.stored?
  coherent : wire.desk.store.Coherent wire.key wire.ledger.records
  flying : ∀ message ∈ wire.flying, wire.Flies message
  apart : (wire.flying.map Message.writer).Nodup
  unsent : ∀ batch rest, wire.desk.store.phase = .applying batch rest →
    wire.desk.log.batches.length - 1 ∉ wire.ledger.writers ∧
      wire.desk.log.batches.length - 1 ∉ wire.flying.map Message.writer
  awaited : ∀ batch change delay reply, wire.desk.store.phase = .awaiting batch change delay →
    wire.reply? = some reply →
    (batch.conclude reply).snapshot.Coherent wire.key wire.ledger.records ∧
      ((batch.conclude reply).isCommitted = true →
        wire.desk.log.batches.length - 1 ∈ wire.ledger.writers)

variable {wire : Wire} {batchSize : Nat}

theorem front_act (wire : Wire) (wireAct : WireAct) :
    wire.ledger <+: (wire.act batchSize wireAct).ledger := by
  cases wireAct with
  | desk deskAct =>
      unfold act
      simp only
      split <;> exact List.prefix_rfl
  | deliver index =>
      unfold act
      simp only
      split
      · exact List.prefix_rfl
      · exact Ledger.front_note _ _ _ _
  | answer =>
      unfold act conclude
      simp only
      split
      · exact List.prefix_rfl
      · split <;> exact List.prefix_rfl
  | fail error =>
      unfold act conclude
      simp only
      split <;> exact List.prefix_rfl
  | giveUp => exact List.prefix_rfl
  | write change => exact Ledger.front_note _ _ _ _

theorem front_run (batchSize : Nat) (wire : Wire) (acts : List WireAct) :
    wire.ledger <+: (wire.run batchSize acts).ledger := by
  induction acts generalizing wire with
  | nil => exact List.prefix_rfl
  | cons first rest ih => exact (wire.front_act first).trans (ih _)

theorem key_act (wire : Wire) (wireAct : WireAct) : (wire.act batchSize wireAct).key = wire.key := by
  cases wireAct with
  | desk deskAct =>
      unfold act
      simp only
      split <;> rfl
  | deliver index =>
      unfold act
      simp only
      split <;> rfl
  | answer =>
      unfold act conclude
      simp only
      split
      · rfl
      · split <;> rfl
  | fail error =>
      unfold act conclude
      simp only
      split <;> rfl
  | giveUp | write change => rfl

theorem key_run (batchSize : Nat) (wire : Wire) (acts : List WireAct) :
    (wire.run batchSize acts).key = wire.key := by
  induction acts generalizing wire with
  | nil => rfl
  | cons first rest ih => exact (ih _).trans (wire.key_act first)

theorem Sound.verdict (sound : wire.Sound) : ∃ verdict, wire.desk.Sound verdict :=
  sound.desk.imp fun _ kept => kept.1

/-- What the store has carried out is added to the ledger, and a message that it has carried out
flies no more. -/
theorem Sound.replaced (sound : wire.Sound) {records : Records} {source : Option Nat}
    {flying : List Message} {reply? : Option (Except StoreError (List Record))}
    (ledger : (wire.replace records source).ledger.Sound wire.key
      (fun index => wire.desk.log.batches[index]?) (records.find? wire.key.text))
    (writers : ∀ writer ∈ (wire.replace records source).ledger.writers,
      writer ∈ wire.ledger.writers ∨ source = some writer)
    (fewer : flying.Sublist wire.flying)
    (landed : ∀ writer, source = some writer →
      writer ∈ wire.flying.map Message.writer ∧ writer ∉ flying.map Message.writer)
    (awaited : ∀ batch change delay reply, wire.desk.store.phase = .awaiting batch change delay →
      reply? = some reply →
      (batch.conclude reply).snapshot.Coherent wire.key
          (wire.replace records source).ledger.records ∧
        ((batch.conclude reply).isCommitted = true →
          wire.desk.log.batches.length - 1 ∈ (wire.replace records source).ledger.writers)) :
    Sound { wire.replace records source with flying, reply? } := by
  have front : wire.ledger <+: (wire.replace records source).ledger := Ledger.front_note _ _ _ _
  have grown : wire.ledger.records ⊆ (wire.replace records source).ledger.records :=
    (front.map Prod.fst).subset
  have kept : wire.ledger.writers ⊆ (wire.replace records source).ledger.writers :=
    (front.filterMap Prod.snd).subset
  obtain ⟨verdict, desk, decided⟩ := sound.desk
  refine ⟨⟨verdict, ⟨⟨desk.ready.clock, desk.ready.honest, desk.ready.numbered,
    desk.ready.answered, desk.ready.owned⟩, desk.fits, desk.concluded⟩,
    fun index committed => kept (decided index committed)⟩, ?_, sound.coherent.grow grown, ?_, ?_,
    ?_, awaited⟩
  · have here : (records.find? wire.key.text) =
        stored? { wire.replace records source with flying, reply? } := rfl
    rw [← here]
    exact ledger
  · intro message member
    obtain ⟨taken, now, found, change, storable, coherent, fresh⟩ :=
      sound.flying message (fewer.subset member)
    refine ⟨taken, now, found, change, storable, coherent.grow grown, ?_⟩
    intro written
    rcases writers _ written with early | late
    · exact fresh early
    · exact (landed _ late).2 (List.mem_map_of_mem member)
  · exact (fewer.map Message.writer).nodup sound.apart
  · intro batch rest applying
    obtain ⟨unwritten, unsent⟩ := sound.unsent batch rest applying
    refine ⟨?_, fun flies => unsent ((fewer.map Message.writer).subset flies)⟩
    intro written
    rcases writers _ written with early | late
    · exact unwritten early
    · exact unsent (landed _ late).1

theorem Sound.write (sound : wire.Sound) (change : Record) :
    (wire.act batchSize (.write change)).Sound := by
  have ends := wire.records.end_of_carryOut change
  obtain ⟨ledger, writers⟩ := sound.ledger.overwritten ends
  have grown : wire.ledger <+: (wire.replace (wire.records.carryOut change).2 none).ledger :=
    Ledger.front_note _ _ _ _
  refine sound.replaced ledger ?_ (List.Sublist.refl _) (by rintro _ ⟨⟩) ?_
  · intro writer member
    exact .inl (writers ▸ member)
  · intro batch change delay reply awaiting given
    obtain ⟨coherent, committed⟩ := sound.awaited batch change delay reply awaiting given
    exact ⟨coherent.grow (grown.map Prod.fst).subset,
      fun settled => (grown.filterMap Prod.snd).subset (committed settled)⟩

theorem not_mem_eraseIdx {flying : List Message} {index : Nat} {message : Message}
    (apart : (flying.map Message.writer).Nodup) (found : flying[index]? = some message) :
    message.writer ∉ (flying.eraseIdx index).map Message.writer := by
  intro member
  obtain ⟨other, left, same⟩ := List.mem_map.mp member
  obtain ⟨place, elsewhere, held⟩ := List.mem_eraseIdx_iff_getElem?.mp left
  have first : (flying.map Message.writer)[index]? = some message.writer := by
    rw [List.getElem?_map, found, Option.map_some]
  have second : (flying.map Message.writer)[place]? = some message.writer := by
    rw [List.getElem?_map, held, Option.map_some, same]
  have within := (List.getElem?_eq_some_iff.mp first).1
  exact elsewhere ((List.getElem?_inj within apart).mp (first.trans second.symm)).symm

/-- The store carries out a message; if it is the one that the worker waits for, the reply to it is
right. -/
theorem Sound.deliver (sound : wire.Sound)
    (unrepeated : (wire.ledger.records.map Record.version).Nodup) (index : Nat) :
    (wire.act batchSize (.deliver index)).Sound := by
  unfold act
  simp only
  cases found : wire.flying[index]? with
  | none => exact sound
  | some message =>
      have member := List.mem_of_getElem? found
      obtain ⟨taken, now, known, change, storable, coherent, fresh⟩ := sound.flying message member
      have ends := wire.records.end_of_carryOut message.change
      rw [change] at ends
      obtain ⟨ledger, snapshot, committed, writers⟩ :=
        sound.ledger.updated unrepeated coherent storable known fresh ends
      rw [← change] at ledger snapshot committed writers
      refine sound.replaced ledger ?_ (List.eraseIdx_sublist _ _) ?_ ?_
      · intro writer written
        rcases List.mem_cons.mp (writers written) with rfl | early
        · exact .inr rfl
        · exact .inl early
      · intro writer own
        cases own
        exact ⟨List.mem_map_of_mem member, not_mem_eraseIdx sound.apart found⟩
      · intro batch sent delay reply awaiting given
        by_cases last : message.writer + 1 = wire.desk.log.batches.length
        · rw [if_pos last] at given
          cases given
          obtain ⟨verdict, desk⟩ := sound.verdict
          obtain ⟨-, earlier, other, batches, holds⟩ := desk.fits.working awaiting rfl
          obtain ⟨rfl, -⟩ := holds
          have place : message.writer = earlier.length := by
            rw [batches, List.length_append, List.length_singleton] at last
            omega
          rw [batches, place, List.getElem?_concat_length] at known
          cases known
          refine ⟨snapshot, fun settled => ?_⟩
          rw [← last, Nat.add_sub_cancel]
          exact committed.mp settled
        · rw [if_neg last] at given
          have front : wire.ledger <+:
              (wire.replace (wire.records.carryOut message.change).2 (some message.writer)).ledger :=
            Ledger.front_note _ _ _ _
          obtain ⟨coherent, settles⟩ := sound.awaited batch sent delay reply awaiting given
          exact ⟨coherent.grow (front.map Prod.fst).subset,
            fun settled => (front.filterMap Prod.snd).subset (settles settled)⟩

/-- The worker stops waiting. It takes its batch for committed only if the store has carried it
out. -/
theorem Sound.concluded (sound : wire.Sound) {batch : Batch} {change : Record} {delay : Nat}
    {conclusion : Conclusion} {client : Client}
    (awaiting : wire.desk.store.phase = .awaiting batch change delay)
    (quiet : Client.Quiet wire.desk.around.client client)
    (coherent : conclusion.snapshot.Coherent wire.key wire.ledger.records)
    (settled : conclusion.isCommitted = true →
      wire.desk.log.batches.length - 1 ∈ wire.ledger.writers) :
    Sound { wire with desk := { wire.desk with
      store := { wire.desk.store with phase := .concluding batch conclusion }
      around := { wire.desk.around with client } } } := by
  obtain ⟨verdict, desk, decided⟩ := sound.desk
  refine ⟨⟨_, desk.conclude awaiting (quiet.honest desk.ready.honest), ?_⟩, ?_,
    ⟨sound.coherent.1, coherent⟩, sound.flying, sound.apart, by rintro _ _ ⟨⟩,
    by rintro _ _ _ _ ⟨⟩⟩
  · intro index committed
    simp only [Desk.conclude] at committed
    split at committed
    · rename_i last
      have place : index = wire.desk.log.batches.length - 1 := by omega
      rw [place]
      exact settled committed
    · exact decided index committed
  · have stored : wire.stored? = client.backend.records.find? wire.key.text := by
      rw [quiet.records]
      rfl
    have ledger := sound.ledger
    rw [stored] at ledger
    exact ledger

theorem Sound.abandoned (sound : wire.Sound) {batch : Batch} {change : Record} {delay : Nat}
    (awaiting : wire.desk.store.phase = .awaiting batch change delay) :
    batch.abandoned.snapshot.Coherent wire.key wire.ledger.records := by
  have coherent := sound.coherent.2
  rw [awaiting] at coherent
  exact coherent.1.forget

theorem Sound.conclude (sound : wire.Sound) {reply : Except StoreError (List Record)}
    (right : ∀ batch change delay, wire.desk.store.phase = .awaiting batch change delay →
      (batch.conclude reply).snapshot.Coherent wire.key wire.ledger.records ∧
        ((batch.conclude reply).isCommitted = true →
          wire.desk.log.batches.length - 1 ∈ wire.ledger.writers)) :
    (wire.conclude reply).Sound := by
  unfold Wire.conclude
  split
  · rename_i batch change delay awaiting
    obtain ⟨coherent, settled⟩ := right batch change delay awaiting
    exact sound.concluded awaiting (Client.Quiet.refl _) coherent settled
  · exact sound

theorem Sound.answer (sound : wire.Sound) : (wire.act batchSize .answer).Sound := by
  unfold act
  simp only
  cases given : wire.reply? with
  | none => exact sound
  | some reply =>
      exact sound.conclude fun batch change delay awaiting =>
        sound.awaited batch change delay reply awaiting given

theorem Sound.fail (sound : wire.Sound) (error : StoreError) :
    (wire.act batchSize (.fail error)).Sound :=
  sound.conclude fun _ _ _ awaiting =>
    ⟨sound.abandoned awaiting, by rintro ⟨⟩⟩

theorem Sound.giveUp (sound : wire.Sound) : (wire.act batchSize .giveUp).Sound := by
  unfold act
  simp only
  cases abandoned : PoolStore.abandonUpdate? (wire.desk.store, wire.desk.around) with
  | none => exact sound
  | some next =>
      obtain ⟨store, after⟩ := next
      obtain ⟨batch, change, delay, client, awaiting, rfl, rfl, quiet⟩ :=
        PoolStore.end_of_abandonUpdate? abandoned
      have log : wire.desk.log.note wire.desk.store
          { wire.desk.store with phase := .concluding batch batch.abandoned } = wire.desk.log :=
        wire.desk.log.note_of_ne _ (by rw [awaiting]; simp)
      simp only [Desk.update, log]
      exact sound.concluded awaiting quiet (sound.abandoned awaiting)
        (by rintro ⟨⟩)

theorem sent?_of_same {before after : Desk} (same : after.store.phase = before.store.phase) :
    sent? before after = none := by
  unfold sent?
  rw [same]
  cases before.store.phase <;> rfl

theorem Sound.keep (sound : wire.Sound) {desk : Desk}
    (kept : ∀ verdict, wire.desk.Sound verdict → desk.Sound verdict)
    (phase : desk.store.phase = wire.desk.store.phase)
    (snapshot : desk.store.snapshot = wire.desk.store.snapshot)
    (batches : desk.log.batches = wire.desk.log.batches)
    (client : desk.around.client = wire.desk.around.client) : Sound { wire with desk } := by
  obtain ⟨verdict, begun, decided⟩ := sound.desk
  refine ⟨⟨verdict, kept verdict begun, decided⟩, ?_, ?_, ?_, sound.apart, ?_, ?_⟩
  · have stored : wire.stored? = desk.around.client.backend.records.find? wire.key.text := by
      rw [client]
      rfl
    have ledger := sound.ledger
    rw [stored] at ledger
    simp only [batches]
    exact ledger
  · refine ⟨?_, ?_⟩
    · exact snapshot ▸ sound.coherent.1
    · exact phase ▸ sound.coherent.2
  · intro message member
    obtain ⟨taken, now, found, rest⟩ := sound.flying message member
    exact ⟨taken, now, batches ▸ found, rest⟩
  · intro batch rest applying
    simp only [batches]
    exact sound.unsent batch rest (phase ▸ applying)
  · intro batch change delay reply awaiting given
    simp only [batches]
    exact sound.awaited batch change delay reply (phase ▸ awaiting) given

/-- Where a batch that is applied comes from: it was applied before, or it has just been taken. -/
theorem applying_step (log : Log) {now : Timestamp} {store next : PoolStore}
    {around after : Surroundings} {batch : Batch} {rest : List Request}
    (step : PoolStore.Step now (store, around) (next, after))
    (applying : next.phase = .applying batch rest) :
    (∃ earlier left, store.phase = .applying earlier left ∧ log.note store next = log) ∨
      ∃ taken, (log.note store next).batches = log.batches ++ [taken] := by
  cases step with
  | take requests waiting taking split some =>
      refine .inr ⟨⟨store.snapshot, requests⟩, ?_⟩
      simp [Log.note, taking]
  | accept before | refuse before =>
      exact .inl ⟨_, _, before, log.note_of_ne _ (by rw [before]; simp)⟩
  | rest taking passed => rcases passed with rfl | rfl <;> cases applying
  | wake | abandon | send | conclude | adopt | finish | resolve => cases applying

theorem sent?_of_awaiting {now : Timestamp} {desk : Desk} {next : PoolStore}
    {after : Surroundings} {batch : Batch} {change : Record} {delay : Nat}
    (step : PoolStore.Step now (desk.store, desk.around) (next, after))
    (awaiting : next.phase = .awaiting batch change delay) :
    ∃ message, sent? desk (desk.update (some (next, after))) = some message := by
  cases step with
  | send before =>
      exact Option.ne_none_iff_exists'.mp (by simp [sent?, Desk.update, before])
  | rest taking passed => rcases passed with rfl | rfl <;> cases awaiting
  | wake | take | accept | refuse | abandon | conclude | adopt | finish | resolve =>
      cases awaiting

theorem eq_of_sent? {before after : Desk} {message : Message}
    (sent : sent? before after = some message) :
    ∃ earlier rest batch delay, before.store.phase = .applying earlier rest ∧
      after.store.phase = .awaiting batch message.change delay ∧
      message.writer = after.log.batches.length - 1 := by
  unfold sent? at sent
  split at sent
  · rename_i earlier rest batch change delay applying awaiting
    cases sent
    exact ⟨earlier, rest, batch, delay, applying, awaiting, rfl⟩
  · contradiction

/-- A batch that has just been taken has neither been sent nor carried out. -/
theorem Sound.unused (sound : wire.Sound) :
    wire.desk.log.batches.length ∉ wire.ledger.writers ∧
      wire.desk.log.batches.length ∉ wire.flying.map Message.writer := by
  constructor
  · intro written
    have known := sound.ledger.known _ written
    simp at known
  · intro flies
    obtain ⟨message, member, last⟩ := List.mem_map.mp flies
    obtain ⟨taken, sentAt, found, -⟩ := sound.flying message member
    have within := (List.getElem?_eq_some_iff.mp found).1
    omega

section Work

variable {now : Timestamp} {next : PoolStore} {after : Surroundings}

theorem Sound.flying_step (sound : wire.Sound) :
    ∀ message ∈ wire.flying,
      Flies { wire with desk := wire.desk.update (some (next, after)) } message := by
  intro message member
  obtain ⟨taken, sentAt, found, rest⟩ := sound.flying message member
  exact ⟨taken, sentAt, Log.note_batches _ _ _ found, rest⟩

theorem Sound.ledger_step (sound : wire.Sound)
    (step : PoolStore.Step now (wire.desk.store, wire.desk.around) (next, after)) :
    wire.ledger.Sound wire.key
      (fun index => (wire.desk.update (some (next, after))).log.batches[index]?)
      (after.client.backend.records.find? wire.key.text) := by
  have ledger := sound.ledger.grow
    (fun _ _ found => wire.desk.log.note_batches wire.desk.store next found)
  rw [step.frame.1.records]
  exact ledger

theorem Sound.silent (sound : wire.Sound)
    (step : PoolStore.Step now (wire.desk.store, wire.desk.around) (next, after))
    (desks : ∀ verdict, wire.desk.Sound verdict →
      (wire.desk.update (some (next, after))).Sound verdict)
    (sent : sent? wire.desk (wire.desk.update (some (next, after))) = none) :
    Sound { wire with desk := wire.desk.update (some (next, after)) } := by
  obtain ⟨verdict, begun, decided⟩ := sound.desk
  refine ⟨⟨verdict, desks verdict begun, decided⟩, sound.ledger_step step,
    sound.coherent.step step, sound.flying_step, sound.apart, ?_, ?_⟩
  · intro batch rest applying
    rcases applying_step wire.desk.log step applying with
      ⟨earlier, left, before, same⟩ | ⟨taken, batches⟩
    · simp only [Desk.update, same]
      exact sound.unsent earlier left before
    · simp only [Desk.update, batches, List.length_append, List.length_singleton,
        Nat.add_sub_cancel]
      exact sound.unused
  · intro batch change delay reply awaiting given
    obtain ⟨message, some⟩ := sent?_of_awaiting step awaiting
    rw [sent] at some
    contradiction

/-- The worker sends the change of the batch in hand, for the first time. -/
theorem Sound.send (sound : wire.Sound)
    (step : PoolStore.Step now (wire.desk.store, wire.desk.around) (next, after))
    (desks : ∀ verdict, wire.desk.Sound verdict →
      (wire.desk.update (some (next, after))).Sound verdict) {message : Message}
    (sent : sent? wire.desk (wire.desk.update (some (next, after))) = some message) :
    Sound
      { wire with
        desk := wire.desk.update (some (next, after))
        flying := wire.flying ++ [message]
        reply? := none } := by
  obtain ⟨verdict, begun, decided⟩ := sound.desk
  have desk := desks verdict begun
  have coherent := sound.coherent.step step
  obtain ⟨earlier, rest, batch, delay, before, awaiting, writer⟩ := eq_of_sent? sent
  have same : wire.desk.log.note wire.desk.store next = wire.desk.log :=
    wire.desk.log.note_of_ne next (by rw [before]; simp)
  have awaits : next.phase = .awaiting batch message.change delay := awaiting
  obtain ⟨unwritten, unsent⟩ := sound.unsent earlier rest before
  have last : message.writer = wire.desk.log.batches.length - 1 := by
    rw [writer]
    simp only [Desk.update, same]
  rw [← last] at unwritten unsent
  refine ⟨⟨verdict, desk, decided⟩, sound.ledger_step step, coherent, ?_, ?_, ?_, ?_⟩
  · intro other member
    rcases List.mem_append.mp member with early | late
    · exact sound.flying_step other early
    · rw [List.mem_singleton.mp late]
      obtain ⟨-, front, taken, batches, holds⟩ := desk.fits.working awaiting rfl
      obtain ⟨rfl, ⟨sentAt, change⟩, storable, -⟩ := holds
      have own := coherent.2
      rw [awaits] at own
      refine ⟨taken, sentAt, ?_, change, storable, own.1, unwritten⟩
      rw [writer, batches, List.length_append, List.length_singleton, Nat.add_sub_cancel]
      exact List.getElem?_concat_length
  · rw [List.map_append, List.nodup_append]
    refine ⟨sound.apart, List.nodup_singleton _, ?_⟩
    intro other member last late same
    rw [List.mem_singleton.mp late] at same
    exact unsent (same ▸ member)
  · intro other left applying
    have applies : next.phase = .applying other left := applying
    rw [awaits] at applies
    contradiction
  · intro _ _ _ _ _ absent
    contradiction

theorem Sound.work (sound : wire.Sound)
    (step : PoolStore.Step now (wire.desk.store, wire.desk.around) (next, after))
    (desks : ∀ verdict, wire.desk.Sound verdict →
      (wire.desk.update (some (next, after))).Sound verdict) :
    Sound
      (match sent? wire.desk (wire.desk.update (some (next, after))) with
        | none => { wire with desk := wire.desk.update (some (next, after)) }
        | some message =>
            { wire with
              desk := wire.desk.update (some (next, after))
              flying := wire.flying ++ [message]
              reply? := none }) := by
  cases sent : sent? wire.desk (wire.desk.update (some (next, after))) with
  | none => exact sound.silent step desks sent
  | some message => exact sound.send step desks sent

end Work

theorem Sound.atDesk (sound : wire.Sound) (deskAct : DeskAct) :
    (wire.act batchSize (.desk deskAct)).Sound := by
  have desks : ∀ verdict, wire.desk.Sound verdict →
      (wire.desk.act batchSize deskAct).Sound verdict := fun _ begun => begun.act deskAct
  by_cases works : deskAct = .work
  · subst works
    obtain ⟨verdict, begun⟩ := sound.verdict
    simp only [Wire.act, Desk.act] at desks ⊢
    cases worked : PoolStore.step? batchSize wire.desk.isShutDown
        (wire.desk.store, wire.desk.around) with
    | none =>
        simp only [Desk.update, sent?_of_same rfl]
        exact sound
    | some next =>
        obtain ⟨store, after⟩ := next
        obtain ⟨now, step⟩ := Desk.step_of_work begun.ready worked
        rw [worked] at desks
        exact sound.work step desks
  · obtain ⟨phase, snapshot, batches, client⟩ := wire.desk.act_frame batchSize works
    simp only [Wire.act, sent?_of_same phase]
    exact sound.keep desks phase snapshot batches client

theorem Sound.act (sound : wire.Sound)
    (unrepeated : (wire.ledger.records.map Record.version).Nodup) (wireAct : WireAct) :
    (wire.act batchSize wireAct).Sound := by
  cases wireAct with
  | desk deskAct => exact sound.atDesk deskAct
  | deliver index => exact sound.deliver unrepeated index
  | answer => exact sound.answer
  | fail error => exact sound.fail error
  | giveUp => exact sound.giveUp
  | write change => exact sound.write change

theorem Sound.run (sound : wire.Sound) (acts : List WireAct)
    (unrepeated : ((wire.run batchSize acts).ledger.records.map Record.version).Nodup) :
    (wire.run batchSize acts).Sound := by
  induction acts generalizing wire with
  | nil => exact sound
  | cons first rest ih =>
      have front := ((wire.front_run batchSize (first :: rest)).map Prod.fst).map Record.version
      exact ih (sound.act (front.sublist.nodup unrepeated) first) unrepeated

/-- What the worker starts from is told by one of the past records, or its version has been
forgotten. -/
theorem sound_start {past : List Record} {snapshot : Snapshot} {around : Surroundings}
    (clock : around.clock.isSome = true) (honest : around.client.Honest)
    (unanswered : around.answers = [])
    (last : past.getLast? = around.client.backend.records.find? snapshot.key.text)
    (keyed : ∀ record ∈ past, record.key = snapshot.key.text)
    (valid : ∀ record ∈ past, record.version.isValid = true)
    (chained : past.IsChain fun record next => next.version = record.version.next)
    (coherent : snapshot.Coherent snapshot.key past) : (start past snapshot around).Sound := by
  have records : (start past snapshot around).ledger.records = past := by
    simp [start, Ledger.records, Function.comp_def]
  have writers : (start past snapshot around).ledger.writers = [] := by
    simp [start, Ledger.writers]
  refine ⟨⟨_, Desk.sound_start clock honest unanswered, by rintro _ ⟨⟩⟩, ?_, ?_,
    ?_, List.nodup_nil, ?_, ?_⟩
  · refine ⟨?_, ?_, ?_, ?_, ?_, ?_⟩
    · rw [records]
      exact last
    · rw [records]
      exact keyed
    · rw [records]
      exact valid
    · rw [start, List.isChain_map]
      refine chained.imp fun _ _ follows => ⟨follows, ?_⟩
      intro writer absent
      contradiction
    · rw [writers]
      exact List.nodup_nil
    · rw [writers]
      intro writer member
      cases member
  · rw [records]
    exact ⟨coherent, trivial⟩
  · intro message member
    cases member
  · intro batch rest applying
    cases applying
  · intro batch change delay reply awaiting
    cases awaiting

theorem mem_reflected {id : Nat} :
    id ∈ wire.reflected ↔ ∃ writer ∈ wire.ledger.writers, ∃ taken,
      wire.desk.log.batches[writer]? = some taken ∧ id ∈ taken.batch.pending := by
  unfold reflected
  rw [List.mem_flatMap]
  refine ⟨?_, ?_⟩
  · rintro ⟨writer, written, member⟩
    cases found : wire.desk.log.batches[writer]? with
    | none => simp [found] at member
    | some taken =>
        rw [found] at member
        exact ⟨writer, written, taken, found, member⟩
  · rintro ⟨writer, written, taken, found, member⟩
    refine ⟨writer, written, ?_⟩
    rw [found]
    exact member

theorem Sound.reflected_nodup (sound : wire.Sound) : wire.reflected.Nodup := by
  obtain ⟨verdict, desk⟩ := sound.verdict
  unfold reflected
  rw [List.nodup_flatMap]
  refine ⟨?_, ?_⟩
  · intro writer _
    cases found : wire.desk.log.batches[writer]? with
    | none => exact List.nodup_nil
    | some taken => exact desk.fits.pending_nodup (List.mem_of_getElem? found)
  · refine sound.ledger.once.imp ?_
    intro left right apart id here there
    cases first : wire.desk.log.batches[left]? with
    | none => simp [first] at here
    | some taken =>
        cases second : wire.desk.log.batches[right]? with
        | none => simp [second] at there
        | some other =>
            simp only [first, Option.map_some, Option.getD_some] at here
            simp only [second, Option.map_some, Option.getD_some] at there
            exact apart (desk.fits.batch_unique first second (Taken.pending_ids here)
              (Taken.pending_ids there))

/-- Whatever becomes of the messages, a mutation is reflected in the stored values at most once; it
is if its request was answered as committed, and it is not if its request was answered with an
error. A value is only overwritten by one that was computed from it. -/
theorem reflected_at_most_once (batchSize : Nat) (past : List Record) (snapshot : Snapshot)
    (around : Surroundings) (acts : List WireAct) (clock : around.clock.isSome = true)
    (honest : around.client.Honest) (unanswered : around.answers = [])
    (last : past.getLast? = around.client.backend.records.find? snapshot.key.text)
    (keyed : ∀ record ∈ past, record.key = snapshot.key.text)
    (valid : ∀ record ∈ past, record.version.isValid = true)
    (chained : past.IsChain fun record next => next.version = record.version.next)
    (coherent : snapshot.Coherent snapshot.key past)
    (unrepeated : ((run batchSize acts (start past snapshot around)).ledger.records.map
      Record.version).Nodup) :
    let wire := run batchSize acts (start past snapshot around)
    wire.reflected.Nodup ∧
    (∀ id, (id, .committed) ∈ wire.desk.around.answers → id ∈ wire.reflected) ∧
    (∀ id failure, (id, .failed failure) ∈ wire.desk.around.answers → id ∉ wire.reflected) ∧
    wire.ledger.IsChain
      (Ledger.Follows snapshot.key fun index => wire.desk.log.batches[index]?) ∧
    wire.ledger.records.getLast? = wire.desk.around.client.backend.records.find? snapshot.key.text := by
  intro wire
  have sound : wire.Sound :=
    (sound_start clock honest unanswered last keyed valid chained coherent).run acts unrepeated
  have key : wire.key = snapshot.key := key_run batchSize _ acts
  obtain ⟨verdict, desk, decided⟩ := sound.desk
  refine ⟨sound.reflected_nodup, ?_, ?_, ?_, ?_⟩
  · intro id given
    have queued : id ∈ wire.desk.log.ids := by
      rcases desk.ready.owned _ given with queued | rejected
      · exact queued
      · contradiction
    obtain ⟨index, taken, found, refused | ⟨pending, committed, -⟩⟩ :=
      desk.fits.answered given queued
    · obtain ⟨failure, absurd⟩ := PoolState.refusals_failed refused
      contradiction
    · cases settled : verdict index with
      | false =>
          rw [settled] at committed
          contradiction
      | true => exact mem_reflected.mpr ⟨index, decided index settled, taken, found, pending⟩
  · intro id failure given reflected
    obtain ⟨writer, -, taken, found, pending⟩ := mem_reflected.mp reflected
    have committed := desk.fits.settled found pending given
    cases settled : verdict writer <;> rw [settled] at committed <;> contradiction
  · rw [← key]
    exact sound.ledger.chained
  · rw [← key]
    exact sound.ledger.last

/-- The first batch is committed. The worker gives up the message of the second one, and the store
carries it out when its request has been answered. -/
def sampleActs : List WireAct :=
  [WireAct.desk (.push (.ofTransition (.deposit 5))), .desk .notify] ++
  List.replicate 4 (WireAct.desk .work) ++ [WireAct.deliver 0, .answer] ++
  List.replicate 4 (WireAct.desk .work) ++ [WireAct.desk (.push (.ofTransition (.deposit 7)))] ++
  List.replicate 3 (WireAct.desk .work) ++ [WireAct.giveUp] ++
  List.replicate 3 (WireAct.desk .work) ++ [WireAct.deliver 0]

theorem reflected_at_most_once_late :
    let wire :=
      run 2 sampleActs (start [Desk.sampleStart.record .epoch] Desk.sampleStart Desk.sampleAround)
    wire.reflected.Nodup ∧ 0 ∈ wire.reflected ∧ 1 ∈ wire.reflected ∧
      (1, .rolledBack) ∈ wire.desk.around.answers := by
  intro wire
  have facts : (wire.ledger.records.map Record.version).Nodup ∧
      1 ∈ wire.reflected ∧
      (0, .committed) ∈ wire.desk.around.answers ∧
      (1, .rolledBack) ∈ wire.desk.around.answers ∧
      (Desk.sampleStart.record .epoch).version.isValid = true ∧
      Desk.sampleAround.client.backend.records.find? Desk.sampleStart.key.text =
        some (Desk.sampleStart.record .epoch) ∧
      Storage.poolFormat.isStorable Desk.sampleStart.state = true := by
    subst wire
    decide +kernel
  obtain ⟨unrepeated, reflected, committed, rolledBack, valid, stored, storable⟩ := facts
  subst wire
  have coherent : Desk.sampleStart.Coherent Desk.sampleStart.key
      [Desk.sampleStart.record .epoch] :=
    Snapshot.coherent_of_read List.mem_cons_self
      (Snapshot.ofRecord_encode storable Desk.sampleStart.key rfl)
  have served := reflected_at_most_once 2 [Desk.sampleStart.record .epoch] Desk.sampleStart
    Desk.sampleAround sampleActs rfl rfl rfl stored.symm (List.forall_mem_singleton.mpr rfl)
    (List.forall_mem_singleton.mpr valid) (List.isChain_singleton _) coherent unrepeated
  exact ⟨served.1, served.2.1 0 committed, reflected, rolledBack⟩

end Wire

end ClaimStore
