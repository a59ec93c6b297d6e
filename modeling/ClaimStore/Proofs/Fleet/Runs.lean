import ClaimStore.Proofs.Fleet.Members

/-!
What holds of several registries after any run.

The records of the pool under watch follow each other by batches of the registries, and every worker
has its batch in the ledger if and only if it takes it for committed.
-/
namespace ClaimStore

namespace Fleet

variable {fleet : Fleet} {origin : Record → Prop} {index : Nat} {member : Member}

/-- Whether a batch has written a record. -/
def verdict (fleet : Fleet) (index : Nat) (batch : Nat) : Bool :=
  decide ((index, batch) ∈ fleet.ledger.writers)

/-- What is known of the registries and the ledger. The first record has not been written by a
batch; all others have. -/
structure Sound (origin : Record → Prop) (fleet : Fleet) : Prop where
  honest : fleet.client.Honest
  ledger : fleet.ledger.Sound fleet.key fleet.batch? fleet.stored?
  members : ∀ (index : Nat) (member : Member), fleet.members[index]? = some member →
    member.Sound fleet.key fleet.ledger.records (fleet.verdict index) fleet.next
  apart : ∀ (left right : Nat) (one other : Member), left ≠ right →
    fleet.members[left]? = some one → fleet.members[right]? = some other →
    ∀ id ∈ one.log.ids, id ∉ other.log.ids
  first : ∀ entry ∈ fleet.ledger.head?, entry.2 = none ∧ origin entry.1
  linked : ∀ entry ∈ fleet.ledger.tail, entry.2.isSome = true

theorem getElem?_update {place : Nat} {writer? : Option (Nat × Nat)} {result : Member × Client}
    (found : fleet.members[index]? = some member) :
    (fleet.update index writer? result).members[place]? =
      if place = index then some result.1 else fleet.members[place]? := by
  have within := (List.getElem?_eq_some_iff.mp found).1
  by_cases same : place = index
  · simp [update, same, within]
  · simp [update, same, Ne.symm same]

theorem batch?_update {writer? : Option (Nat × Nat)} {result : Member × Client}
    (found : fleet.members[index]? = some member) (grows : member.log.Grows result.1.log)
    (writer : Nat × Nat) (taken : Taken) (known : fleet.batch? writer = some taken) :
    (fleet.update index writer? result).batch? writer = some taken := by
  simp only [batch?, getElem?_update found] at known ⊢
  by_cases same : writer.1 = index
  · rw [same, found, Option.bind_some] at known
    rw [if_pos same, Option.bind_some]
    exact grows _ _ known
  · rw [if_neg same]
    exact known

theorem Sound.update (sound : fleet.Sound origin) (found : fleet.members[index]? = some member)
    {writer? : Option (Nat × Nat)} {result : Member × Client} (honest : result.2.Honest)
    (fresh : ∀ id ∈ result.1.log.ids, id ∈ member.log.ids ∨ id = fleet.next)
    (ledger : (fleet.update index writer? result).ledger.Sound fleet.key
      (fleet.update index writer? result).batch? (result.2.backend.records.find? fleet.key.text))
    (others : ∀ writer ∈ (fleet.update index writer? result).ledger.writers,
      writer ∈ fleet.ledger.writers ∨ writer.1 = index)
    (own : result.1.Sound fleet.key (fleet.update index writer? result).ledger.records
      ((fleet.update index writer? result).verdict index) (fleet.next + 1))
    (first : ∀ entry ∈ (fleet.update index writer? result).ledger.head?,
      entry.2 = none ∧ origin entry.1)
    (linked : ∀ entry ∈ (fleet.update index writer? result).ledger.tail, entry.2.isSome = true) :
    (fleet.update index writer? result).Sound origin := by
  have front : fleet.ledger <+: (fleet.update index writer? result).ledger :=
    Ledger.front_note _ _ _ _
  refine ⟨honest, ledger, ?_, ?_, first, linked⟩
  · intro place one there
    rw [getElem?_update found] at there
    by_cases same : place = index
    · rw [if_pos same] at there
      cases there
      rw [same]
      exact own
    · rw [if_neg same] at there
      have verdict : (fleet.update index writer? result).verdict place = fleet.verdict place := by
        funext batch
        apply decide_eq_decide.mpr
        constructor
        · intro written
          rcases others _ written with early | here
          · exact early
          · exact absurd here same
        · intro written
          exact (front.filterMap Prod.snd).subset written
      rw [verdict]
      exact ((sound.members place one there).grow (front.map Prod.fst).subset).later
  · have told : ∀ (place : Nat) (one : Member), place ≠ index → fleet.members[place]? = some one →
        ∀ id ∈ one.log.ids, id ∉ result.1.log.ids := by
      intro place one other there id held shared
      rcases fresh id shared with early | new
      · exact sound.apart place index one member other there found id held early
      · have less := (sound.members place one there).numbered id held
        omega
    intro left right one other different here there id held shared
    rw [getElem?_update found] at here there
    by_cases same : left = index
    · by_cases also : right = index
      · exact different (same.trans also.symm)
      · rw [if_pos same] at here
        rw [if_neg also] at there
        cases here
        exact told right other also there id shared held
    · rw [if_neg same] at here
      by_cases also : right = index
      · rw [if_pos also] at there
        cases there
        exact told left one same here id held shared
      · rw [if_neg also] at there
        exact sound.apart left right one other different here there id held shared

theorem Sound.opened (sound : fleet.Sound origin) {after : Records}
    (opened : Records.Opened fleet.key fleet.client.backend.records after)
    (empty : Storage.poolFormat.isStorable (.empty fleet.key) = true → ∀ now,
      origin ⟨fleet.key.text, Storage.poolFormat.encode (.empty fleet.key), .first, now⟩) :
    let ledger := fleet.ledger.note fleet.stored? (after.find? fleet.key.text) none
    ledger.Sound fleet.key fleet.batch? (after.find? fleet.key.text) ∧
      ledger.writers = fleet.ledger.writers ∧
      (∀ entry ∈ ledger.head?, entry.2 = none ∧ origin entry.1) ∧
      ∀ entry ∈ ledger.tail, entry.2.isSome = true := by
  intro ledger
  rcases opened with same | ⟨absent, storable, now, created⟩
  · have kept : ledger = fleet.ledger := by
      simp only [ledger, same]
      exact fleet.ledger.note_same _ _
    rw [kept, same]
    exact ⟨sound.ledger, rfl, sound.first, sound.linked⟩
  · have none : fleet.ledger = [] := by
      have last := sound.ledger.last
      rw [stored?, absent, List.getLast?_eq_none_iff] at last
      exact List.map_eq_nil_iff.mp last
    have one : ledger = [(⟨fleet.key.text, Storage.poolFormat.encode (.empty fleet.key), .first,
        now⟩, .none)] := by
      simp [ledger, none, created, stored?, absent, Ledger.note]
    rw [one, none, created]
    refine ⟨⟨rfl, ?_, ?_, List.isChain_singleton _, List.nodup_nil, ?_⟩, rfl, ?_, ?_⟩
    · intro record member
      rw [List.mem_singleton.mp member]
    · intro record member
      rw [List.mem_singleton.mp member]
      rfl
    · intro writer member
      cases member
    · intro entry head
      cases head
      exact ⟨rfl, empty storable now⟩
    · intro entry member
      cases member

theorem Sound.pass (sound : fleet.Sound origin) (found : fleet.members[index]? = some member)
    (empty : Storage.poolFormat.isStorable (.empty fleet.key) = true → ∀ now,
      origin ⟨fleet.key.text, Storage.poolFormat.encode (.empty fleet.key), .first, now⟩)
    {result : Member × Client}
    (passes : Member.Passes fleet.key fleet.ledger.records (fleet.verdict index) fleet.next member
      fleet.client result) :
    (fleet.update index none result).Sound origin := by
  obtain ⟨ledger, writers, first, linked⟩ := sound.opened passes.opened empty
  have verdict : (fleet.update index none result).verdict index = fleet.verdict index := by
    funext batch
    exact congrArg (fun list => decide ((index, batch) ∈ list)) writers
  apply sound.update found passes.honest passes.fresh
  · exact ledger.grow (batch?_update found passes.grows)
  · intro writer written
    exact .inl (writers ▸ written)
  · rw [verdict]
    apply passes.sound
    · exact ((Ledger.front_note _ _ _ _).map Prod.fst).subset
    · intro stored held
      exact List.mem_of_getLast? (ledger.last.trans held)
  · exact first
  · exact linked

/-- Only the first record has not been written by a batch. -/
theorem Sound.written (sound : fleet.Sound origin) {change : Record} {after : Records}
    {result : Except StoreError (List Record)} (writer : Nat × Nat)
    (ends : UpdateEnd change fleet.client.backend.records result after)
    (own : change.key = fleet.key.text) :
    let ledger := fleet.ledger.note fleet.stored? (after.find? fleet.key.text) (some writer)
    (∀ entry ∈ ledger.head?, entry.2 = none ∧ origin entry.1) ∧
      ∀ entry ∈ ledger.tail, entry.2.isSome = true := by
  intro ledger
  rcases ends.replaced with same | ⟨stored, found⟩
  · have kept : ledger = fleet.ledger := by
      simp only [ledger, same]
      exact fleet.ledger.note_same _ _
    rw [kept]
    exact ⟨sound.first, sound.linked⟩
  · rw [own] at found
    have last := sound.ledger.last
    rw [stored?, found] at last
    cases entries : fleet.ledger with
    | nil =>
        rw [entries] at last
        cases last
    | cons entry rest =>
        have first := sound.first
        have linked := sound.linked
        rw [entries] at first linked
        rcases Ledger.note_cases (entry :: rest) fleet.stored? (after.find? fleet.key.text)
          (some writer) with kept | ⟨record, longer⟩
        · simp only [ledger, entries, kept]
          exact ⟨first, linked⟩
        · simp only [ledger, entries, longer]
          refine ⟨first, ?_⟩
          intro other member
          rcases List.mem_append.mp member with early | late
          · exact linked other early
          · rw [List.mem_singleton.mp late]
            rfl

theorem Sound.finish (sound : fleet.Sound origin) (found : fleet.members[index]? = some member)
    (unrepeated : (fleet.ledger.records.map Record.version).Nodup) {registry : Registry}
    {later : Client} (finished : member.registry.act? fleet.client fleet.key
      PoolStore.finishUpdate? = some (registry, later)) :
    (fleet.update index (some (index, member.log.batches.length - 1))
      (member.drive fleet.key fleet.client fleet.key (some (registry, later)))).Sound origin := by
  obtain ⟨store, after, around, present, ended, rfl, moves⟩ := Registry.act?_moves finished
  obtain ⟨batch, change, delay, result, later, awaiting, rfl, rfl, ends, honest⟩ :=
    PoolStore.end_of_finishUpdate? ended
  have moves := moves [] (List.append_nil _).symm
  rw [Member.drive_kept present (by simp [awaiting]) moves]
  have begun := sound.members index member found
  have watches := begun.watches
  rw [present] at watches
  obtain ⟨⟨-, coherent⟩, fits, undecided⟩ := watches
  rw [awaiting] at coherent undecided
  obtain ⟨-, earlier, taken, batches, holds⟩ := fits.working awaiting rfl
  obtain ⟨rfl, ⟨now, rfl⟩, storable, -⟩ := holds
  have known : fleet.batch? (index, member.log.batches.length - 1) = some taken := by
    simp [batch?, found, batches]
  have fresh : (index, member.log.batches.length - 1) ∉ fleet.ledger.writers :=
    of_decide_eq_false (undecided rfl)
  obtain ⟨ledger, snapshot, committed, writers⟩ :=
    sound.ledger.updated unrepeated coherent.1 storable known fresh ends
  have size : member.log.batches.length = earlier.length + 1 := by
    rw [batches, List.length_append, List.length_singleton]
  obtain ⟨first, linked⟩ := sound.written (index, member.log.batches.length - 1) ends
    (congrArg PoolKey.text coherent.1.1)
  apply sound.update found (honest sound.honest)
  · intro id held
    exact .inl held
  · exact ledger.grow (batch?_update found fun _ _ held => held)
  · intro writer written
    rcases List.mem_cons.mp (writers written) with rfl | early
    · exact .inr rfl
    · exact .inl early
  · apply Member.Sound.later
    apply begun.conclude present awaiting moves
    · exact ((Ledger.front_note _ _ _ _).map Prod.fst).subset
    · exact snapshot
    · intro place other
      apply decide_eq_decide.mpr
      constructor
      · intro written
        rcases List.mem_cons.mp (writers written) with same | early
        · cases same
          omega
        · exact early
      · intro written
        exact ((Ledger.front_note _ _ _ _).filterMap Prod.snd).subset written
    · rw [Bool.eq_iff_iff, committed]
      exact decide_eq_true_iff.symm
  · exact first
  · exact linked

theorem Sound.client (sound : fleet.Sound origin) {client : Client} (honest : client.Honest)
    (records : client.backend.records = fleet.client.backend.records) :
    Sound origin { fleet with client } := by
  refine ⟨honest, ?_, sound.members, sound.apart, sound.first, sound.linked⟩
  have stored : stored? { fleet with client } = fleet.stored? := by
    simp only [stored?, records]
  rw [stored]
  exact sound.ledger

/-- As long as versions are not repeated, every act keeps what is known. -/
theorem Sound.act (sound : fleet.Sound origin)
    (empty : Storage.poolFormat.isStorable (.empty fleet.key) = true → ∀ now,
      origin ⟨fleet.key.text, Storage.poolFormat.encode (.empty fleet.key), .first, now⟩)
    (unrepeated : (fleet.ledger.records.map Record.version).Nodup) (fleetAct : FleetAct) :
    (fleet.act fleetAct).Sound origin := by
  cases fleetAct with
  | faults faults => exact sound.client rfl rfl
  | delay delay => exact sound.client sound.honest rfl
  | member index memberAct =>
      cases found : fleet.members[index]? with
      | none =>
          simp only [Fleet.act, found]
          exact sound
      | some member =>
          have begun := sound.members index member found
          by_cases own : memberAct = .finishUpdate fleet.key
          · subst own
            cases finished :
              member.registry.act? fleet.client fleet.key PoolStore.finishUpdate? with
            | none =>
                simp only [Fleet.act, found, Member.act, finished, Member.drive, writer?, if_true]
                have same : ∀ source, fleet.update index source (member, fleet.client) =
                    fleet.update index none (member, fleet.client) := by
                  intro source
                  simp only [Fleet.update]
                  congr 1
                  exact (fleet.ledger.note_same _ _).trans (fleet.ledger.note_same _ _).symm
                rw [same]
                exact sound.pass found empty (begun.passes sound.honest rfl rfl)
            | some result =>
                obtain ⟨registry, later⟩ := result
                simp only [Fleet.act, found, Member.act, finished, writer?, if_true]
                exact sound.finish found unrepeated finished
          · have quiet : fleet.writer? index member memberAct = none := by
              cases memberAct with
              | finishUpdate pool =>
                  have elsewhere : pool ≠ fleet.key := fun same => own (same ▸ rfl)
                  exact if_neg elsewhere
              | ask | load | install | leave | push | notify | work | abandonUpdate | shutDown
              | tick => rfl
            simp only [Fleet.act, found, quiet]
            exact sound.pass found empty (begun.act sound.honest own)

theorem key_act (fleet : Fleet) (fleetAct : FleetAct) : (fleet.act fleetAct).key = fleet.key := by
  cases fleetAct with
  | member index memberAct =>
      simp only [act]
      split <;> rfl
  | faults | delay => rfl

theorem key_run (acts : List FleetAct) (fleet : Fleet) : (run acts fleet).key = fleet.key := by
  induction acts generalizing fleet with
  | nil => rfl
  | cons first rest ih => exact (ih _).trans (fleet.key_act first)

theorem front_act (fleet : Fleet) (fleetAct : FleetAct) :
    fleet.ledger <+: (fleet.act fleetAct).ledger := by
  cases fleetAct with
  | member index memberAct =>
      simp only [act]
      split
      · exact List.prefix_rfl
      · exact Ledger.front_note _ _ _ _
  | faults | delay => exact List.prefix_rfl

theorem front_run (acts : List FleetAct) (fleet : Fleet) :
    fleet.ledger <+: (run acts fleet).ledger := by
  induction acts generalizing fleet with
  | nil => exact List.prefix_rfl
  | cons first rest ih => exact (fleet.front_act first).trans (ih _)

theorem writers_act_le (fleet : Fleet) (fleetAct : FleetAct) :
    (fleet.act fleetAct).ledger.writers.length ≤ fleet.ledger.writers.length + 1 := by
  cases fleetAct with
  | faults | delay => exact Nat.le_succ _
  | member index memberAct =>
      simp only [act]
      split
      · exact Nat.le_succ _
      · rename_i member found
        simp only [update]
        rcases fleet.ledger.note_cases fleet.stored? _ (fleet.writer? index member memberAct) with
          same | ⟨record, longer⟩
        · rw [same]
          exact Nat.le_succ _
        · rw [longer, Ledger.writers_append, List.length_append]
          exact Nat.add_le_add_left (List.length_filterMap_le _ _) _

theorem writers_run_le (acts : List FleetAct) (fleet : Fleet) :
    (run acts fleet).ledger.writers.length ≤ fleet.ledger.writers.length + acts.length := by
  induction acts generalizing fleet with
  | nil => exact Nat.le_refl _
  | cons first rest ih =>
      have here := fleet.writers_act_le first
      have later := ih (fleet.act first)
      rw [List.length_cons]
      simp only [run, List.foldl_cons] at later ⊢
      omega

/-- All records but the first are counted as updates. -/
theorem Sound.length_le (sound : fleet.Sound origin) :
    fleet.ledger.length ≤ fleet.ledger.writers.length + 1 := by
  have linked := sound.linked
  cases entries : fleet.ledger with
  | nil => simp
  | cons entry rest =>
      rw [entries] at linked
      have all : (rest.filterMap Prod.snd).length = rest.length :=
        List.filterMap_length_eq_length.mpr linked
      have some : rest.length ≤ (Ledger.writers (entry :: rest)).length := by
        rw [Ledger.writers, ← all]
        exact ((List.sublist_cons_self entry rest).filterMap Prod.snd).length_le
      simpa using some

/-- There are more valid versions than updates, so no version has been stored twice. -/
theorem Sound.unrepeated (sound : fleet.Sound origin)
    (few : fleet.ledger.writers.length < Version.cycle) :
    (fleet.ledger.records.map Record.version).Nodup := by
  have bound := sound.length_le
  apply sound.ledger.versions_nodup
  omega

theorem Sound.run (sound : fleet.Sound origin) (acts : List FleetAct)
    (empty : Storage.poolFormat.isStorable (.empty fleet.key) = true → ∀ now,
      origin ⟨fleet.key.text, Storage.poolFormat.encode (.empty fleet.key), .first, now⟩)
    (few : (Fleet.run acts fleet).ledger.writers.length < Version.cycle) :
    (Fleet.run acts fleet).Sound origin := by
  induction acts generalizing fleet with
  | nil => exact sound
  | cons first rest ih =>
      have front := (fleet.front_run (first :: rest)).filterMap Prod.snd
      have unrepeated := sound.unrepeated (Nat.lt_of_le_of_lt front.length_le few)
      have next := sound.act empty unrepeated first
      apply ih next
      · rw [key_act]
        exact empty
      · exact few

theorem start_of_mem {key : PoolKey} {client : Client} {registries : List Registry}
    (found : (start key client registries).members[index]? = some member) :
    ∃ registry ∈ registries, member = .start registry := by
  simp only [start, List.getElem?_map, Option.map_eq_some_iff] at found
  obtain ⟨registry, held, rfl⟩ := found
  exact ⟨registry, List.mem_of_getElem? held, rfl⟩

theorem sound_start {key : PoolKey} {client : Client} {registries : List Registry}
    (honest : client.Honest)
    (created : ∀ registry ∈ registries, ∃ options now, Registry.create options now = .ok registry)
    (stored : ∀ record, client.backend.records.find? key.text = some record →
      record.key = key.text ∧ record.version.isValid = true ∧ origin record) :
    (start key client registries).Sound origin := by
  have writers : (start key client registries).ledger.writers = [] := by
    simp only [start]
    cases client.backend.records.find? key.text <;> rfl
  refine ⟨honest, ?_, ?_, ?_, ?_, ?_⟩
  · simp only [start, stored?]
    cases found : client.backend.records.find? key.text with
    | none =>
        exact ⟨rfl, List.forall_mem_nil _, List.forall_mem_nil _, List.isChain_nil,
          List.nodup_nil, List.forall_mem_nil _⟩
    | some record =>
        obtain ⟨keyed, valid, -⟩ := stored record found
        refine ⟨rfl, ?_, ?_, List.isChain_singleton _, List.nodup_nil, List.forall_mem_nil _⟩
        · intro other held
          rw [List.mem_singleton.mp held]
          exact keyed
        · intro other held
          rw [List.mem_singleton.mp held]
          exact valid
  · intro index one found
    obtain ⟨registry, held, rfl⟩ := start_of_mem found
    have verdict : (start key client registries).verdict index = fun _ => false := by
      funext batch
      simp [Fleet.verdict, writers]
    rw [verdict]
    exact Member.sound_start (created registry held)
  · intro left right one other different here there id held
    obtain ⟨registry, -, rfl⟩ := start_of_mem here
    cases held
  · intro entry head
    simp only [start] at head
    cases found : client.backend.records.find? key.text with
    | none =>
        rw [found] at head
        cases head
    | some record =>
        rw [found] at head
        cases head
        exact ⟨rfl, (stored record found).2.2⟩
  · intro entry held
    simp only [start] at held
    cases found : client.backend.records.find? key.text <;> rw [found] at held <;> cases held

end Fleet

end ClaimStore
