import ClaimStore.Proofs.Isolation.Members

/-!
Branches that are alike for the pool under watch.

An act that is about another pool leads to a branch that is alike, and an act that is about the pool
itself, or about none, keeps two branches alike.
-/
namespace ClaimStore

/-- No failure is injected. -/
def BranchAct.Calm : BranchAct → Prop
  | .faults ahead => ahead = {}
  | _ => True

namespace Branch

/-- Two branches that hold the same for the pool under watch. -/
structure Alike (key : PoolKey) (left right : Branch) : Prop where
  watched : left.key = key ∧ right.key = key
  next : left.next = right.next
  asked : left.asked = right.asked
  member : left.member.Alike key left.asked right.member
  client : left.client.Alike key.text right.client

variable {trait : Trait} {key pool : PoolKey} {branch left right : Branch} {act : BranchAct}
variable {member memberLeft memberRight : Member} {client clientLeft clientRight : Client}

namespace Alike

theorem refl (branch : Branch) (healthy : branch.client.Healthy) : Alike branch.key branch branch :=
  ⟨⟨rfl, rfl⟩, rfl, rfl, Member.Alike.refl _ _ _, Client.Alike.refl healthy _⟩

theorem symm (alike : Alike key left right) : Alike key right left :=
  ⟨alike.watched.symm, alike.next.symm, alike.asked.symm, alike.asked ▸ alike.member.symm,
    alike.client.symm⟩

theorem trans (first : Alike key left branch) (second : Alike key branch right) :
    Alike key left right :=
  ⟨⟨first.watched.1, second.watched.2⟩, first.next.trans second.next, first.asked.trans second.asked,
    first.member.trans (first.asked ▸ second.member), first.client.trans second.client⟩

theorem view (alike : Alike key left right) : left.view = right.view := by
  have registries := alike.member.registry
  unfold Branch.view
  rw [alike.watched.1, alike.watched.2, ← alike.asked, registries.results, registries.store,
    registries.cache, alike.client.found]

end Alike

/-- The store of another pool answers none of the requests to the pool under watch. -/
theorem Sound.silent (sound : branch.Sound trait) (other : branch.key ≠ pool)
    {action : PoolStore × Surroundings → Option (PoolStore × Surroundings)}
    (proper : Proper trait pool action) (store next : PoolStore) (around : Surroundings)
    (found : branch.registry.find? pool = some store)
    (done : action (store, branch.registry.surroundings branch.client pool) = some (next, around)) :
    ∃ told, around.answers = branch.registry.answers ++ told ∧
      ∀ answer ∈ told, answer.1 ∉ branch.asked := by
  obtain ⟨-, -, told, whole, serves⟩ := proper (sound.stores pool store found) sound.records done
  refine ⟨told, whole, fun answer given => ?_⟩
  have held := serves.whole.subset (List.mem_append_left _ (List.mem_map_of_mem given))
  exact (sound.held pool store found answer.1 held).2 (Ne.symm other)

/-- The update that a store waits for is one of its own record. -/
theorem Sound.change_key (sound : branch.Sound trait) {store : PoolStore}
    (found : branch.registry.find? pool = some store) (batch : Batch) (change : Record)
    (delay : Nat) (awaiting : store.phase = .awaiting batch change delay) :
    change.key = pool.text := by
  have working := (sound.stores pool store found).phase
  rw [awaiting] at working
  exact working.2.1

theorem Sound.load_key (sound : branch.Sound trait) (load : Load)
    (found : branch.member.loads.find? pool = some (.underway load)) :
    load.request.key = pool.text := by
  obtain ⟨-, ⟨now, request⟩, -⟩ := sound.loads pool _ found
  rw [request]

theorem Sound.snapshot_key (sound : branch.Sound trait) (snapshot : Snapshot)
    (found : branch.member.loads.find? pool = some (.found snapshot)) : snapshot.key = pool :=
  (sound.loads pool _ found).1

/-- For the pool under watch, what is done with another pool is as good as nothing. -/
theorem Sound.elsewhere (sound : branch.Sound trait) (healthy : branch.client.Healthy)
    (about : act.pool? = some pool) (other : branch.key ≠ pool) :
    Alike branch.key (branch.act .pass) (branch.act act) := by
  have result : ∀ {member client}, branch.member.Alike branch.key branch.asked member →
      branch.client.Alike branch.key.text client →
      Alike branch.key (branch.act .pass)
        ⟨branch.key, client, member, branch.next + 1, branch.asked⟩ :=
    fun members clients => ⟨⟨rfl, rfl⟩, rfl, rfl, members, clients⟩
  have same := Client.Alike.refl healthy branch.key.text
  cases act with
  | member act =>
      cases act with
      | ask place hasWaited =>
          cases about
          exact result (Member.alike_ask other hasWaited) same
      | load place draw =>
          cases about
          obtain ⟨members, clients⟩ := Member.alike_load other healthy sound.load_key draw
          exact result members clients
      | install place =>
          cases about
          exact result (Member.alike_install other sound.snapshot_key) same
      | leave place =>
          cases about
          exact result (Member.alike_leave other) same
      | push place mutation =>
          cases about
          -- The request has a number of its own, so the watched ones are still the same.
          have asked : (branch.act (.member (.push pool mutation))).asked = branch.asked := by
            simp [Branch.act, effect, MemberAct.isRequest, Ne.symm other]
          have fresh : branch.next ∉ branch.asked := fun member =>
            Nat.lt_irrefl _ (sound.asked _ member)
          exact ⟨⟨rfl, rfl⟩, rfl, asked.symm, ⟨Registry.alike_push other fresh, rfl⟩, same⟩
      | notify place =>
          cases about
          exact result (Member.alike_of_registry (Registry.alike_notify other)) same
      | work place =>
          cases about
          obtain ⟨members, clients⟩ := Member.alike_drive other healthy
            (fun store _ => store.local_step? _ _) (sound.silent other (proper_work _ _ pool))
            branch.key
          exact result members clients
      | finishUpdate place =>
          cases about
          obtain ⟨members, clients⟩ := Member.alike_drive other healthy
            (fun _ found => PoolStore.local_finishUpdate? (sound.change_key found))
            (sound.silent other (proper_finishUpdate pool)) branch.key
          exact result members clients
      | abandonUpdate place =>
          cases about
          obtain ⟨members, clients⟩ := Member.alike_drive other healthy
            (fun store _ => store.local_abandonUpdate? _)
            (sound.silent other (proper_abandonUpdate pool)) branch.key
          exact result members clients
      | shutDown | tick => cases about
  | cache place change =>
      cases about
      have slice : (branch.registry.caches.change pool change).slice branch.key =
          branch.registry.caches.slice branch.key := by
        rw [PoolCaches.change, PoolCaches.slice_insert, if_neg other]
      exact result (Member.alike_of_registry ⟨rfl, rfl, rfl, rfl, slice.symm, rfl⟩) same
  | put | remove | delay | faults | pass => cases about

namespace Alike

/-- An act that is not a request. -/
theorem advance (alike : Alike key left right)
    (members : memberLeft.Alike key left.asked memberRight)
    (clients : clientLeft.Alike key.text clientRight) :
    Alike key ⟨left.key, clientLeft, memberLeft, left.next + 1, left.asked⟩
      ⟨right.key, clientRight, memberRight, right.next + 1, right.asked⟩ :=
  ⟨alike.watched, congrArg (· + 1) alike.next, alike.asked, members, clients⟩

/-- The request has not been answered yet, so it adds nothing to the results. -/
theorem push (alike : Alike key left right) (soundLeft : left.Sound trait)
    (soundRight : right.Sound trait) (mutation : Mutation) :
    Alike key (left.act (.member (.push key mutation)))
      (right.act (.member (.push key mutation))) := by
  obtain ⟨watchedLeft, watchedRight⟩ := alike.watched
  have askedLeft : (left.act (.member (.push key mutation))).asked = left.asked ++ [left.next] := by
    simp [Branch.act, effect, MemberAct.isRequest, watchedLeft]
  have askedRight : (right.act (.member (.push key mutation))).asked =
      right.asked ++ [right.next] := by
    simp [Branch.act, effect, MemberAct.isRequest, watchedRight]
  have freshLeft : ∀ answer ∈ left.registry.answers, answer.1 ≠ left.next :=
    fun answer given => Nat.ne_of_lt (soundLeft.told answer given)
  have freshRight : ∀ answer ∈ right.registry.answers, answer.1 ≠ left.next :=
    fun answer given => Nat.ne_of_lt (alike.next ▸ soundRight.told answer given)
  have pushed := (alike.member.registry.more freshLeft freshRight).push ⟨left.next, mutation⟩
  refine ⟨alike.watched, congrArg (· + 1) alike.next, ?_, ⟨?_, alike.member.loading⟩, alike.client⟩
  · rw [askedLeft, askedRight, alike.asked, alike.next]
  · rw [askedLeft]
    simp only [Branch.act, effect, Member.act, Member.push, ← alike.next]
    exact pushed

/-- What is done with the pool under watch, or with none, has the same effect on both branches. -/
theorem here (alike : Alike key left right) (soundLeft : left.Sound trait)
    (soundRight : right.Sound trait) (calm : act.Calm)
    (about : ∀ pool, act.pool? = some pool → pool = key) :
    Alike key (left.act act) (right.act act) := by
  have members := alike.member
  have registries := members.registry
  have clients := alike.client
  cases act with
  | member act =>
      cases act with
      | ask place hasWaited =>
          cases about place rfl
          exact alike.advance (members.ask hasWaited) clients
      | load place draw =>
          cases about place rfl
          obtain ⟨loaded, after⟩ := members.load clients soundLeft.load_key draw
          exact alike.advance loaded after
      | install place =>
          cases about place rfl
          exact alike.advance (members.install soundLeft.snapshot_key) clients
      | leave place =>
          cases about place rfl
          exact alike.advance members.leave clients
      | push place mutation =>
          cases about place rfl
          exact alike.push soundLeft soundRight mutation
      | notify place =>
          cases about place rfl
          exact alike.advance ⟨registries.notify, members.loading⟩ clients
      | work place =>
          cases about place rfl
          obtain ⟨driven, after⟩ := members.work clients left.key right.key
          exact alike.advance driven after
      | finishUpdate place =>
          cases about place rfl
          obtain ⟨driven, after⟩ := members.drive clients
            (fun _ found => PoolStore.local_finishUpdate? (soundLeft.change_key found))
            left.key right.key
          exact alike.advance driven after
      | abandonUpdate place =>
          cases about place rfl
          obtain ⟨driven, after⟩ := members.drive clients
            (fun store _ => store.local_abandonUpdate? _) left.key right.key
          exact alike.advance driven after
      | shutDown =>
          exact alike.advance ⟨⟨registries.options, registries.clock, rfl, registries.store,
            registries.cache, registries.results⟩, members.loading⟩ clients
      | tick now =>
          exact alike.advance ⟨⟨registries.options, rfl, registries.isShutDown, registries.store,
            registries.cache, registries.results⟩, members.loading⟩ clients
  | cache place change =>
      cases about place rfl
      have slice : (left.registry.caches.change key change).slice key =
          (right.registry.caches.change key change).slice key := by
        rw [PoolCaches.change, PoolCaches.change, PoolCaches.slice_insert, PoolCaches.slice_insert,
          if_pos rfl, if_pos rfl, registries.cache]
      exact alike.advance ⟨⟨registries.options, registries.clock, registries.isShutDown, registries.store,
        slice, registries.results⟩, members.loading⟩ clients
  | put record =>
      have found : (left.records.put record).find? key.text =
          (right.records.put record).find? key.text := by
        rw [Records.put, Records.put, Table.find?_insert, Table.find?_insert, clients.found]
      exact alike.advance members ⟨clients.healthy, clients.delay, found⟩
  | remove text =>
      have found : Table.find? (left.records.erase text) key.text =
          Table.find? (right.records.erase text) key.text := by
        rw [Table.find?_erase, Table.find?_erase, clients.found]
      exact alike.advance members ⟨clients.healthy, clients.delay, found⟩
  | delay delay => exact alike.advance members ⟨clients.healthy, rfl, clients.found⟩
  | faults ahead => exact alike.advance members ⟨⟨calm, calm⟩, clients.delay, clients.found⟩
  | pass => exact alike.advance members clients

end Alike

end Branch

end ClaimStore
