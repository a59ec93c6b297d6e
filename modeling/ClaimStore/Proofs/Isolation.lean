import ClaimStore.Proofs.Committing
import ClaimStore.Proofs.Isolation.Branches
import ClaimStore.Proofs.Pool.Effects

/-!
Pools do not interfere.

Whatever is done with one pool, the others go on as if nothing had happened: their parts of a
registry are not touched, and depend on nothing that is. So the requests to a pool can be taken out
of a run without anybody noticing it at another pool. And a pool is never given what belongs to
another one, unless somebody puts it there.
-/
namespace ClaimStore

/-- What is changed by the mutation keeps its key. -/
def Mutation.KeepsKey (mutation : Mutation) (key : PoolKey) : Prop :=
  ∀ before after, before.key = key → mutation before = .ok after → after.key = key

theorem Mutation.keepsKey_ofTransition (transition : Transition) (key : PoolKey) :
    (ofTransition transition).KeepsKey key := by
  intro before after own changed
  unfold ofTransition at changed
  cases applied : before.apply transition with
  | error fault =>
      rw [applied] at changed
      cases changed
  | ok next =>
      rw [applied] at changed
      cases changed
      rw [PoolState.apply_key applied, own]

/-- The record holds a state of the pool. -/
def Record.Carries (record : Record) (key : PoolKey) : Prop :=
  ∃ snapshot, Snapshot.ofRecord key record = .ok snapshot ∧ snapshot.state.key = key

/-- At the place of a pool there are states with its key, and only such. -/
def Trait.key (key : PoolKey) : Trait where
  state pool content := pool = key → content.key = key
  record pool stored := pool = key → stored.Carries key
  empty _ same := same
  read shown read same := by
    subst same
    obtain ⟨snapshot, held, own⟩ := shown rfl
    rw [held] at read
    cases read
    exact own
  write has storable value same :=
    ⟨_, Snapshot.ofRecord_encode storable key value, has same⟩

/-- Whatever the act brings to the pool from outside is of the pool. -/
def BranchAct.KeepsKey (key : PoolKey) : BranchAct → Prop
  | .member (.push pool mutation) => pool = key → mutation.KeepsKey key
  | .put record => record.key = key.text → record.Carries key
  | _ => True

namespace Branch

variable {trait : Trait} {key pool : PoolKey} {branch left right : Branch}
variable {acts : List BranchAct}

theorem key_act (branch : Branch) (act : BranchAct) : (branch.act act).key = branch.key := by
  cases act <;> rfl

theorem key_run (branch : Branch) (acts : List BranchAct) : (branch.run acts).key = branch.key := by
  induction acts generalizing branch with
  | nil => rfl
  | cons first rest ih => exact (ih (branch.act first)).trans (branch.key_act first)

theorem keeps_any (act : BranchAct) : act.Keeps .any := by
  cases act with
  | member act =>
      cases act with
      | push => exact fun _ _ _ _ => trivial
      | ask | load | install | leave | notify | work | finishUpdate | abandonUpdate | shutDown
      | tick => trivial
  | put => exact fun _ _ => trivial
  | cache | remove | delay | faults | pass => trivial

theorem keeps_key {act : BranchAct} (keeps : act.KeepsKey key) : act.Keeps (.key key) := by
  cases act with
  | member act =>
      cases act with
      | push pool mutation =>
          intro before after own changed same
          exact keeps same before after (own same) changed
      | ask | load | install | leave | notify | work | finishUpdate | abandonUpdate | shutDown
      | tick => trivial
  | put record =>
      intro pool place same
      exact keeps (same ▸ place)
  | cache | remove | delay | faults | pass => trivial

/-- Every act keeps two branches alike, be it about the pool under watch or not. -/
theorem Alike.act (alike : Alike key left right) {act : BranchAct} (soundLeft : left.Sound trait)
    (soundRight : right.Sound trait) (calm : act.Calm) :
    Alike key (left.act act) (right.act act) := by
  obtain ⟨watchedLeft, watchedRight⟩ := alike.watched
  by_cases other : ∃ pool, act.pool? = some pool ∧ key ≠ pool
  · -- Both branches go where they would go if nothing happened, so this is compared first.
    obtain ⟨pool, about, other⟩ := other
    have still : Alike key (left.act .pass) (right.act .pass) :=
      alike.here soundLeft soundRight trivial (fun _ none => by cases none)
    have first := soundLeft.elsewhere alike.client.healthy.1 about (watchedLeft.symm ▸ other)
    have second := soundRight.elsewhere alike.client.healthy.2 about (watchedRight.symm ▸ other)
    rw [watchedLeft] at first
    rw [watchedRight] at second
    exact (first.symm.trans still).trans second
  · refine alike.here soundLeft soundRight calm fun pool about => ?_
    by_contra apart
    exact other ⟨pool, about, Ne.symm apart⟩

/-- The same, where one of the branches does without an act that is about another pool. -/
theorem Alike.act_pass (alike : Alike key left right) {act : BranchAct} (soundLeft : left.Sound trait)
    (soundRight : right.Sound trait) (about : act.pool? = some pool) (other : key ≠ pool) :
    Alike key (left.act .pass) (right.act act) := by
  obtain ⟨-, watched⟩ := alike.watched
  have still : Alike key (left.act .pass) (right.act .pass) :=
    alike.act soundLeft soundRight trivial
  have after := soundRight.elsewhere alike.client.healthy.2 about (watched.symm ▸ other)
  rw [watched] at after
  exact still.trans after

/-- From branches that are alike, the same is seen of the pool, whatever is left out at another
one. -/
theorem Alike.views (alike : Alike key left right) (soundLeft : left.Sound .any)
    (soundRight : right.Sound .any) (calm : ∀ act ∈ acts, act.Calm)
    {change : BranchAct → BranchAct} (other : key ≠ pool)
    (changed : ∀ act, change act = act ∨ change act = .pass ∧ act.pool? = some pool) :
    left.views (acts.map change) = right.views acts := by
  induction acts generalizing left right with
  | nil => exact congrArg ([·]) alike.view
  | cons first rest ih =>
      have next : Alike key (left.act (change first)) (right.act first) := by
        rcases changed first with same | ⟨passed, about⟩
        · rw [same]
          exact alike.act soundLeft soundRight (calm first List.mem_cons_self)
        · rw [passed]
          exact alike.act_pass soundLeft soundRight about other
      have later := ih next (soundLeft.act (keeps_any _)) (soundRight.act (keeps_any _))
        fun act member => calm act (List.mem_cons_of_mem _ member)
      simp only [List.map_cons, Branch.views, alike.view, later]

theorem Sound.view_key (sound : branch.Sound (.key branch.key)) :
    (∀ snapshot, branch.view.snapshot? = some snapshot →
      snapshot.key = branch.key ∧ snapshot.state.key = branch.key) ∧
    ∀ record, branch.view.record? = some record → record.Carries branch.key := by
  constructor
  · intro snapshot seen
    obtain ⟨store, found, rfl⟩ := Option.map_eq_some_iff.mp seen
    obtain ⟨own, carried⟩ := (sound.stores branch.key store found).snapshot
    exact ⟨own, carried rfl⟩
  · intro record found
    exact sound.records branch.key record found rfl

/-- What is seen at any time is the view after a part of the run. -/
theorem mem_views {view : View} (seen : view ∈ branch.views acts) :
    ∃ part, part <+: acts ∧ (branch.run part).view = view := by
  induction acts generalizing branch with
  | nil => exact ⟨[], List.prefix_refl _, (List.mem_singleton.mp seen).symm⟩
  | cons first rest ih =>
      rcases List.mem_cons.mp seen with rfl | late
      · exact ⟨[], List.nil_prefix, rfl⟩
      · obtain ⟨part, early, viewed⟩ := ih late
        exact ⟨first :: part, List.cons_prefix_cons.mpr ⟨rfl, early⟩, viewed⟩

/-- Two pools of a registry do not notice each other: as long as no failure is injected, all that is
ever seen of one of them is the same when the requests to the other one are left out, or everything
that is done with the other one. And if the states and mutations that are brought to a pool keep to
its key, then so do its snapshots and records. -/
theorem pools_apart (registry : Registry) (client : Client) (acts : List BranchAct)
    (created : ∃ options now, Registry.create options now = .ok registry) :
    (client.Healthy → (∀ act ∈ acts, act.Calm) → ∀ a b : PoolKey, a ≠ b →
      (start b registry client).views (acts.map (BranchAct.withoutRequest a)) =
          (start b registry client).views acts ∧
        (start b registry client).views (acts.map (BranchAct.without a)) =
          (start b registry client).views acts) ∧
    ∀ key : PoolKey,
      (∀ stored, client.backend.records.find? key.text = some stored → stored.Carries key) →
      (∀ act ∈ acts, act.KeepsKey key) →
      ∀ view ∈ (start key registry client).views acts,
        (∀ snapshot, view.snapshot? = some snapshot →
          snapshot.key = key ∧ snapshot.state.key = key) ∧
        ∀ record, view.record? = some record → record.Carries key := by
  constructor
  · intro healthy calm a b apart
    have sound : (start b registry client).Sound .any :=
      sound_start created fun _ _ _ => trivial
    have alike : Alike b (start b registry client) (start b registry client) :=
      Alike.refl (start b registry client) healthy
    have same : ∀ change : BranchAct → BranchAct,
        (∀ act, change act = act ∨ change act = .pass ∧ act.pool? = some a) →
        (start b registry client).views (acts.map change) =
          (start b registry client).views acts :=
      fun change changed => alike.views sound sound calm (Ne.symm apart) changed
    constructor
    · refine same _ fun act => ?_
      unfold BranchAct.withoutRequest
      split
      · rename_i part
        exact .inr ⟨rfl, BranchAct.pool?_of_isPartOfRequest part⟩
      · exact .inl rfl
    · refine same _ fun act => ?_
      unfold BranchAct.without
      split
      · rename_i about
        exact .inr ⟨rfl, about⟩
      · exact .inl rfl
  · intro key stored keeps view seen
    have sound : (start key registry client).Sound (.key key) := by
      refine sound_start created fun pool record found same => ?_
      subst same
      exact stored record found
    obtain ⟨part, early, rfl⟩ := mem_views seen
    -- The trait is kept up by any part of the run, whatever fails in it.
    have after := sound.run fun act member => keeps_key (keeps act (early.subset member))
    have own : ((start key registry client).run part).key = key := key_run _ part
    generalize run part _ = later at after own
    subst own
    exact after.view_key

/-- Without the escape marks these two would have the same text. -/
def sampleColons : PoolKey × PoolKey := (⟨"a:", "\\", "", "", ""⟩, ⟨"a", ":\\", "", "", ""⟩)

/-- Both pools are loaded, and then a deposit is made in each of them. -/
def sampleDeposits : List BranchAct :=
  let load (key : PoolKey) : List BranchAct :=
    [.member (.ask key false), .member (.load key .shortest), .member (.load key .shortest),
      .member (.install key)]
  let deposit (key : PoolKey) (amount : UInt64) : List BranchAct :=
    [BranchAct.member (.push key (.ofTransition (.deposit amount))), .member (.notify key)] ++
      List.replicate 4 (BranchAct.member (.work key)) ++ [BranchAct.member (.finishUpdate key)] ++
      List.replicate 5 (BranchAct.member (.work key))
  load sampleColons.1 ++ load sampleColons.2 ++ deposit sampleColons.1 5 ++
    deposit sampleColons.2 7

theorem pools_apart_colons :
    let branch := start sampleColons.2 Fleet.sampleRegistry .empty
    (branch.run sampleDeposits).view.results = [(20, .committed)] ∧
      branch.views (sampleDeposits.map (BranchAct.withoutRequest sampleColons.1)) =
        branch.views sampleDeposits ∧
      ∀ view ∈ branch.views sampleDeposits, ∀ record, view.record? = some record →
        record.Carries sampleColons.2 := by
  intro branch
  have results : (branch.run sampleDeposits).view.results = [(20, .committed)] := by
    subst branch
    decide +kernel
  have apart : sampleColons.1 ≠ sampleColons.2 := by decide
  have calm : ∀ act ∈ sampleDeposits, act.Calm := by
    simp [sampleDeposits, BranchAct.Calm]
  have keeps : ∀ act ∈ sampleDeposits, act.KeepsKey sampleColons.2 := by
    simp [sampleDeposits, BranchAct.KeepsKey, Mutation.keepsKey_ofTransition]
  obtain ⟨unseen, carried⟩ := pools_apart Fleet.sampleRegistry .empty sampleDeposits
    ⟨_, _, Fleet.sampleRegistry_created⟩
  have others := unseen rfl calm sampleColons.1 sampleColons.2 apart
  have own := carried sampleColons.2 (by rintro _ ⟨⟩) keeps
  exact ⟨results, others.1, fun view seen => (own view seen).2⟩

end Branch

end ClaimStore
