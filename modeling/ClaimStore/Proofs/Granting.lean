import ClaimStore.Proofs.Committing
import ClaimStore.Proofs.Exclusion

/-!
No token is granted twice.

Whichever registries share the store of a pool, a token is in one outstanding claim at most, and it is
granted again only after the claim that it was in has been released or consumed.
-/
namespace ClaimStore

namespace Member

theorem drive_queued (watched : PoolKey) (member : Member) (client : Client) (key : PoolKey)
    (result : Option (Registry × Client)) :
    (member.drive watched client key result).1.log.queued = member.log.queued := by
  cases result with
  | none => rfl
  | some result =>
      simp only [drive]
      split
      · unfold Log.noteAt
        split
        · exact Log.note_queued _ _ _
        · rfl
      · rfl

theorem act_queued (watched : PoolKey) (next : Nat) (member : Member) (client : Client)
    (memberAct : MemberAct) {request : Request}
    (held : request ∈ (member.act watched next client memberAct).1.log.queued) :
    request ∈ member.log.queued ∨ memberAct = .push watched request.mutation := by
  cases memberAct with
  | push key mutation =>
      simp only [act, push] at held
      split at held
      · rename_i opened
        rcases List.mem_append.mp held with early | late
        · exact .inl early
        · rw [List.mem_singleton.mp late, opened.1]
          exact .inr rfl
      · exact .inl held
  | work key | finishUpdate key | abandonUpdate key =>
      left
      rwa [act, drive_queued] at held
  | ask key hasWaited =>
      left
      rwa [act, ask_log] at held
  | load key draw =>
      left
      rwa [act, load_log] at held
  | install key =>
      left
      rwa [act, install_log] at held
  | leave | notify | shutDown | tick => exact .inl held

end Member

namespace Fleet

theorem act_queued (fleet : Fleet) (fleetAct : FleetAct) {index : Nat} {after : Member}
    {request : Request} (found : (fleet.act fleetAct).members[index]? = some after)
    (held : request ∈ after.log.queued) :
    (∃ member : Member, fleet.members[index]? = some member ∧ request ∈ member.log.queued) ∨
      fleetAct = .member index (.push fleet.key request.mutation) := by
  cases fleetAct with
  | faults | delay => exact .inl ⟨after, found, held⟩
  | member place memberAct =>
      cases there : fleet.members[place]? with
      | none =>
          simp only [act, there] at found
          exact .inl ⟨after, found, held⟩
      | some member =>
          simp only [act, there] at found
          rw [getElem?_update there] at found
          split at found
          · rename_i same
            cases found
            rcases member.act_queued _ _ _ _ held with early | pushed
            · exact .inl ⟨member, same ▸ there, early⟩
            · exact .inr (by rw [same, pushed])
          · exact .inl ⟨after, found, held⟩

theorem run_queued (acts : List FleetAct) (fleet : Fleet) {index : Nat} {after : Member}
    {request : Request} (found : (run acts fleet).members[index]? = some after)
    (held : request ∈ after.log.queued) :
    (∃ member : Member, fleet.members[index]? = some member ∧ request ∈ member.log.queued) ∨
      .member index (.push fleet.key request.mutation) ∈ acts := by
  induction acts generalizing fleet with
  | nil => exact .inl ⟨after, found, held⟩
  | cons first rest ih =>
      rcases ih (fleet.act first) found with ⟨member, there, early⟩ | pushed
      · rcases fleet.act_queued first there early with before | now
        · exact .inl before
        · rw [now]
          exact .inr List.mem_cons_self
      · rw [key_act] at pushed
        exact .inr (List.mem_cons_of_mem _ pushed)

theorem pushed_of_queued {key : PoolKey} {client : Client} {registries : List Registry}
    {acts : List FleetAct} {index : Nat} {member : Member} {request : Request}
    (found : (run acts (start key client registries)).members[index]? = some member)
    (held : request ∈ member.log.queued) : .member index (.push key request.mutation) ∈ acts := by
  rcases run_queued acts _ found held with ⟨before, there, early⟩ | pushed
  · obtain ⟨registry, -, rfl⟩ := start_of_mem there
    cases early
  · exact pushed

variable {fleet : Fleet} {index : Nat} {member : Member}

/-- The record of a pool that did not exist at first has been created with the empty pool. -/
def Empty (key : PoolKey) (record : Record) : Prop :=
  Snapshot.ofRecord key record = .ok ⟨record.version, key, .empty key⟩

/-- The stored pool is what the applied requests have made of the empty one. -/
theorem Sound.stored_serve (sound : fleet.Sound (Empty fleet.key)) :
    (PoolState.empty fleet.key).accepted fleet.applied = fleet.applied ∧
      ∀ record, fleet.stored? = some record →
        Snapshot.ofRecord fleet.key record =
          .ok ⟨record.version, fleet.key, (PoolState.empty fleet.key).serve fleet.applied⟩ := by
  have first := sound.first
  have linked := sound.linked
  have chained := sound.ledger.chained
  have last := sound.ledger.last
  unfold applied
  cases entries : fleet.ledger with
  | nil =>
      rw [entries] at last
      refine ⟨rfl, ?_⟩
      intro record stored
      rw [stored] at last
      cases last
  | cons entry rest =>
      rw [entries] at first linked chained last
      obtain ⟨unwritten, empty⟩ := first entry rfl
      obtain ⟨final, held, served, all⟩ := Ledger.served chained linked empty
      have same : Ledger.applied (entry :: rest) fleet.batch? =
          Ledger.applied rest fleet.batch? := by
        simp [Ledger.applied, Ledger.writers, unwritten]
      rw [same]
      refine ⟨all, ?_⟩
      intro record stored
      rw [held, stored] at last
      cases last
      exact served

theorem Sound.transitions {origin : Record → Prop} (sound : fleet.Sound origin)
    (transitions : ∀ (index : Nat) (member : Member), fleet.members[index]? = some member →
      ∀ request ∈ member.log.queued, ∃ transition, request.Means transition) :
    ∀ request ∈ fleet.applied, ∃ transition, request.Means transition := by
  intro request held
  obtain ⟨writer, -, taken, known, accepted⟩ := mem_applied.mp held
  obtain ⟨member, found, batch⟩ := batch?_eq_some known
  obtain ⟨store, -, fits⟩ := sound.fits found (ne_empty_of_batch batch)
  apply transitions writer.1 member found
  rw [fits.stream]
  apply List.mem_append_left
  have requested := (PoolState.accepted_sublist _ _).subset accepted
  exact List.mem_flatMap.mpr ⟨taken, List.mem_of_getElem? batch, requested⟩

theorem Sound.applied_of_committed {origin : Record → Prop} (sound : fleet.Sound origin)
    (found : fleet.members[index]? = some member) {request : Request}
    (queued : request ∈ member.log.queued)
    (given : (request.id, .committed) ∈ member.registry.answers) : request ∈ fleet.applied := by
  have held : member.log ≠ .empty := by
    intro empty
    rw [empty] at queued
    cases queued
  obtain ⟨store, -, fits⟩ := sound.fits found held
  obtain ⟨place, taken, batch, written, accepted⟩ := fits.committed queued given
  refine mem_applied.mpr ⟨(index, place), of_decide_eq_true written, taken, ?_, accepted⟩
  simp only [batch?, found, Option.bind_some, batch]

/-- The earlier one of two requests has been applied before the later one, and the claim of that
name has been dropped between them. -/
def DroppedBetween (fleet : Fleet) (earlier later : Request) (id : ClaimId) : Prop :=
  ∃ front middle back, fleet.applied = front ++ earlier :: middle ++ later :: back ∧
    ∃ drop ∈ middle, drop.Drops id

theorem split_of_mem {α : Type} {list : List α} {left right : α} (here : left ∈ list)
    (there : right ∈ list) (other : left ≠ right) :
    (∃ front middle back, list = front ++ left :: middle ++ right :: back) ∨
      ∃ front middle back, list = front ++ right :: middle ++ left :: back := by
  obtain ⟨front, back, rfl⟩ := List.append_of_mem here
  rcases List.mem_append.mp there with early | late
  · obtain ⟨first, rest, rfl⟩ := List.append_of_mem early
    exact .inr ⟨first, rest, back, by simp⟩
  · rcases List.mem_cons.mp late with same | late
    · exact absurd same.symm other
    · obtain ⟨first, rest, rfl⟩ := List.append_of_mem late
      exact .inl ⟨front, first, rest, by simp⟩

/-- However many registries share a store, and whatever fails there: if all requests are transitions
of a pool that is created empty, the stored pool lists no token twice, and of two committed claims on
a token the earlier one has been released or consumed before the later one was applied. -/
theorem granted_once (key : PoolKey) (client : Client) (registries : List Registry)
    (acts : List FleetAct) (honest : client.Honest)
    (created : ∀ registry ∈ registries, ∃ options now, Registry.create options now = .ok registry)
    (absent : client.backend.records.find? key.text = none)
    (transitions : ∀ index mutation, .member index (.push key mutation) ∈ acts →
      ∃ transition, mutation = .ofTransition transition)
    (few : (run acts (start key client registries)).ledger.writers.length < UInt32.size - 1) :
    let fleet := run acts (start key client registries)
    (∀ record, fleet.client.backend.records.find? key.text = some record →
      ∃ pool, Snapshot.ofRecord key record = .ok ⟨record.version, key, pool⟩ ∧
        pool.Exclusive) ∧
    ∀ (left right : Nat) (one other : Member) (first second : Request) (claim another : Claim)
      (ref : StateRef), fleet.members[left]? = some one → fleet.members[right]? = some other →
      first ∈ one.log.queued → second ∈ other.log.queued → first.id ≠ second.id →
      first.Means (.claim claim) → second.Means (.claim another) →
      ref ∈ claim.refs → ref ∈ another.refs →
      (first.id, .committed) ∈ one.registry.answers →
      (second.id, .committed) ∈ other.registry.answers →
      fleet.DroppedBetween first second claim.id ∨ fleet.DroppedBetween second first another.id := by
  intro fleet
  have begun : (start key client registries).Sound (Empty key) := by
    apply sound_start honest created
    intro record found
    rw [absent] at found
    cases found
  have sound : fleet.Sound (Empty key) := by
    apply begun.run acts _ few
    intro storable now
    exact Snapshot.ofRecord_encode storable key rfl
  have own : fleet.key = key := key_run acts _
  obtain ⟨all, stored⟩ := Sound.stored_serve (own ▸ sound)
  simp only [own, stored?] at all stored
  have queued : ∀ (index : Nat) (member : Member), fleet.members[index]? = some member →
      ∀ request ∈ member.log.queued, ∃ transition, request.Means transition := by
    intro index member found request held
    exact transitions index request.mutation (pushed_of_queued found held)
  have applied := sound.transitions queued
  constructor
  · intro record found
    exact ⟨_, stored record found, (PoolState.exclusive_empty _).serve applied⟩
  · intro left right one other first second claim another ref oneFound otherFound here there apart
      claims also listed shared firstTold secondTold
    have oneApplied := sound.applied_of_committed oneFound here firstTold
    have otherApplied := sound.applied_of_committed otherFound there secondTold
    have different : first ≠ second := fun same => apart (congrArg Request.id same)
    rcases split_of_mem oneApplied otherApplied different with
      ⟨front, middle, back, split⟩ | ⟨front, middle, back, split⟩
    · left
      refine ⟨front, middle, back, split, ?_⟩
      apply PoolState.dropped_between (split ▸ all) _ claims also listed shared
      intro request held
      apply applied
      rw [split]
      simp [held]
    · right
      refine ⟨front, middle, back, split, ?_⟩
      apply PoolState.dropped_between (split ▸ all) _ also claims shared listed
      intro request held
      apply applied
      rw [split]
      simp [held]

def sampleToken : StateRef := ⟨"t"⟩

def sampleClaim (name : String) : Claim := ⟨⟨name⟩, [⟨sampleToken, 0⟩]⟩

/-- A registry loads the pool and commits one transition. -/
def sampleServe (index : Nat) (transition : Transition) : List FleetAct :=
  let key := Desk.samplePool
  let acts : List MemberAct :=
    [MemberAct.ask key false, .load key .shortest, .load key .shortest, .install key,
      .push key (.ofTransition transition), .notify key] ++
    List.replicate 4 (MemberAct.work key) ++ [MemberAct.finishUpdate key] ++
    List.replicate 3 (MemberAct.work key)
  acts.map (.member index)

/-- Three registries: the first one claims the token, the second one releases it, and the third one
claims it again. -/
def sampleGrants : List FleetAct :=
  sampleServe 0 (.claim (sampleClaim "a")) ++ sampleServe 1 (.release ⟨"a"⟩) ++
    sampleServe 2 (.claim (sampleClaim "b"))

theorem of_sampleGrants {index : Nat} {mutation : Mutation}
    (pushed : .member index (.push Desk.samplePool mutation) ∈ sampleGrants) :
    (index = 0 ∧ mutation = .ofTransition (.claim (sampleClaim "a"))) ∨
      (index = 1 ∧ mutation = .ofTransition (.release ⟨"a"⟩)) ∨
      (index = 2 ∧ mutation = .ofTransition (.claim (sampleClaim "b"))) := by
  simpa [sampleGrants, sampleServe] using pushed

def sampleServed (fleet : Fleet) (index id : Nat) : Bool :=
  fleet.members[index]?.any fun member =>
    decide (member.log.ids = [id]) && decide (member.registry.answers = [(id, .committed)])

theorem of_sampleServed {fleet : Fleet} {index id : Nat} (served : sampleServed fleet index id = true) :
    ∃ (member : Member) (request : Request), fleet.members[index]? = some member ∧
      request ∈ member.log.queued ∧ request.id = id ∧
      (request.id, .committed) ∈ member.registry.answers := by
  unfold sampleServed at served
  cases found : fleet.members[index]? with
  | none => simp [found] at served
  | some member =>
      rw [found, Option.any_some, Bool.and_eq_true, decide_eq_true_iff, decide_eq_true_iff] at served
      obtain ⟨ids, answers⟩ := served
      have held : id ∈ member.log.ids := by
        rw [ids]
        exact List.mem_cons_self
      obtain ⟨request, queued, rfl⟩ := List.mem_map.mp held
      refine ⟨member, request, rfl, queued, rfl, ?_⟩
      rw [answers]
      exact List.mem_cons_self

def sampleTrio : List Registry := [sampleRegistry, sampleRegistry, sampleRegistry]

theorem granted_once_again :
    let fleet := run sampleGrants (start Desk.samplePool .empty sampleTrio)
    ∃ first second, first.Means (.claim (sampleClaim "a")) ∧
      second.Means (.claim (sampleClaim "b")) ∧
      (fleet.DroppedBetween first second ⟨"a"⟩ ∨
        fleet.DroppedBetween second first ⟨"b"⟩) := by
  intro fleet
  have facts : sampleServed fleet 0 4 = true ∧ sampleServed fleet 2 32 = true := by
    subst fleet
    decide +kernel
  obtain ⟨one, other⟩ := facts
  subst fleet
  have few : (run sampleGrants (start Desk.samplePool .empty sampleTrio)).ledger.writers.length <
      UInt32.size - 1 :=
    Nat.lt_of_le_of_lt (writers_run_le _ _) (by decide)
  have created : ∀ registry ∈ sampleTrio, ∃ options now,
      Registry.create options now = .ok registry := by
    intro registry member
    have same : registry = sampleRegistry := by simpa [sampleTrio] using member
    exact ⟨sampleOptions, .epoch, same ▸ sampleRegistry_created⟩
  have transitions : ∀ index mutation,
      .member index (.push Desk.samplePool mutation) ∈ sampleGrants →
      ∃ transition, mutation = .ofTransition transition := by
    intro index mutation pushed
    rcases of_sampleGrants pushed with ⟨-, means⟩ | ⟨-, means⟩ | ⟨-, means⟩ <;> exact ⟨_, means⟩
  have granted := granted_once Desk.samplePool .empty sampleTrio sampleGrants rfl created rfl
    transitions few
  obtain ⟨left, first, leftFound, firstQueued, firstId, firstTold⟩ := of_sampleServed one
  obtain ⟨right, second, rightFound, secondQueued, secondId, secondTold⟩ := of_sampleServed other
  have firstMeans : first.Means (.claim (sampleClaim "a")) := by
    simpa [Request.Means] using of_sampleGrants (pushed_of_queued leftFound firstQueued)
  have secondMeans : second.Means (.claim (sampleClaim "b")) := by
    simpa [Request.Means] using of_sampleGrants (pushed_of_queued rightFound secondQueued)
  have apart : first.id ≠ second.id := by
    rw [firstId, secondId]
    decide
  exact ⟨first, second, firstMeans, secondMeans, granted.2 0 2 left right first second _ _
    sampleToken leftFound rightFound firstQueued secondQueued apart firstMeans secondMeans
    List.mem_cons_self List.mem_cons_self firstTold secondTold⟩

end Fleet

end ClaimStore
