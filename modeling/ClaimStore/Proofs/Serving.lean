import ClaimStore.Request
import Mathlib.Data.List.Perm.Basic

/-!
Requests served in turn, the reference for everything that is done in batches.
-/
namespace ClaimStore

namespace PoolState

/-- The state after the requests, one after the other. One whose mutation fails changes nothing. -/
def serve (pool : PoolState) : List Request → PoolState
  | [] => pool
  | request :: rest =>
      match request.mutation pool with
      | .ok next => next.serve rest
      | .error _ => pool.serve rest

/-- Those of the requests whose mutations succeed, in their order. -/
def accepted (pool : PoolState) : List Request → List Request
  | [] => []
  | request :: rest =>
      match request.mutation pool with
      | .ok next => request :: next.accepted rest
      | .error _ => pool.accepted rest

/-- The answers to those whose mutations fail, in their order. -/
def refusals (pool : PoolState) : List Request → List (Nat × Answer)
  | [] => []
  | request :: rest =>
      match request.mutation pool with
      | .ok next => next.refusals rest
      | .error failure => (request.id, .failed failure) :: pool.refusals rest

/-- The answers to all of them, in their order, if every success lasts. -/
def verdicts (pool : PoolState) : List Request → List (Nat × Answer)
  | [] => []
  | request :: rest =>
      match request.mutation pool with
      | .ok next => (request.id, .committed) :: next.verdicts rest
      | .error failure => (request.id, .failed failure) :: pool.verdicts rest

variable {pool : PoolState} {request : Request} {requests : List Request}

theorem serve_append (pool : PoolState) (requests more : List Request) :
    pool.serve (requests ++ more) = (pool.serve requests).serve more := by
  induction requests generalizing pool with
  | nil => rfl
  | cons request rest ih =>
      simp only [List.cons_append, serve]
      cases request.mutation pool with
      | ok next => exact ih next
      | error failure => exact ih pool

theorem accepted_append (pool : PoolState) (requests more : List Request) :
    pool.accepted (requests ++ more) =
      pool.accepted requests ++ (pool.serve requests).accepted more := by
  induction requests generalizing pool with
  | nil => rfl
  | cons request rest ih =>
      simp only [List.cons_append, accepted, serve]
      cases request.mutation pool with
      | ok next => exact congrArg (request :: ·) (ih next)
      | error failure => exact ih pool

theorem refusals_append (pool : PoolState) (requests more : List Request) :
    pool.refusals (requests ++ more) =
      pool.refusals requests ++ (pool.serve requests).refusals more := by
  induction requests generalizing pool with
  | nil => rfl
  | cons request rest ih =>
      simp only [List.cons_append, refusals, serve]
      cases request.mutation pool with
      | ok next => exact ih next
      | error failure => exact congrArg ((request.id, .failed failure) :: ·) (ih pool)

theorem verdicts_append (pool : PoolState) (requests more : List Request) :
    pool.verdicts (requests ++ more) =
      pool.verdicts requests ++ (pool.serve requests).verdicts more := by
  induction requests generalizing pool with
  | nil => rfl
  | cons request rest ih =>
      simp only [List.cons_append, verdicts, serve]
      cases request.mutation pool with
      | ok next => exact congrArg ((request.id, .committed) :: ·) (ih next)
      | error failure => exact congrArg ((request.id, .failed failure) :: ·) (ih pool)

theorem serve_of_ok {next : PoolState} (succeeds : request.mutation pool = .ok next) :
    pool.serve [request] = next ∧ pool.accepted [request] = [request] ∧
      pool.refusals [request] = [] := by
  simp [serve, accepted, refusals, succeeds]

theorem serve_of_error {failure : MutationFailure}
    (fails : request.mutation pool = .error failure) :
    pool.serve [request] = pool ∧ pool.accepted [request] = [] ∧
      pool.refusals [request] = [(request.id, .failed failure)] := by
  simp [serve, accepted, refusals, fails]

theorem accepted_sublist (pool : PoolState) (requests : List Request) :
    (pool.accepted requests).Sublist requests := by
  induction requests generalizing pool with
  | nil => exact List.Sublist.slnil
  | cons request rest ih =>
      unfold accepted
      cases request.mutation pool with
      | ok next => exact (ih next).cons_cons request
      | error failure => exact (ih pool).cons request

theorem refusals_failed {answer : Nat × Answer} (refused : answer ∈ pool.refusals requests) :
    ∃ failure, answer.2 = .failed failure := by
  induction requests generalizing pool with
  | nil => cases refused
  | cons request rest ih =>
      unfold refusals at refused
      cases result : request.mutation pool with
      | ok next =>
          rw [result] at refused
          exact ih refused
      | error failure =>
          rw [result] at refused
          rcases List.mem_cons.mp refused with rfl | later
          · exact ⟨failure, rfl⟩
          · exact ih later

theorem serve_accepted (pool : PoolState) (requests : List Request) :
    pool.serve (pool.accepted requests) = pool.serve requests ∧
      pool.accepted (pool.accepted requests) = pool.accepted requests := by
  induction requests generalizing pool with
  | nil => exact ⟨rfl, rfl⟩
  | cons request rest ih =>
      cases result : request.mutation pool with
      | ok next =>
          obtain ⟨same, all⟩ := ih next
          simp only [accepted, serve, result]
          exact ⟨same, congrArg (request :: ·) all⟩
      | error failure =>
          simp only [accepted, serve, result]
          exact ih pool

theorem verdicts_perm (pool : PoolState) (requests : List Request) :
    (pool.verdicts requests).Perm
      (pool.refusals requests ++
        (pool.accepted requests).map fun request => (request.id, Answer.committed)) := by
  induction requests generalizing pool with
  | nil => exact List.Perm.refl _
  | cons request rest ih =>
      cases result : request.mutation pool with
      | ok next =>
          simp only [verdicts, refusals, accepted, result, List.map_cons]
          exact (List.Perm.cons _ (ih next)).trans List.perm_middle.symm
      | error failure =>
          simp only [verdicts, refusals, accepted, result, List.cons_append]
          exact List.Perm.cons _ (ih pool)

theorem verdicts_ids (pool : PoolState) (requests : List Request) :
    (pool.verdicts requests).map Prod.fst = requests.map Request.id := by
  induction requests generalizing pool with
  | nil => rfl
  | cons request rest ih =>
      cases result : request.mutation pool with
      | ok next => simp only [verdicts, result, List.map_cons, ih next]
      | error failure => simp only [verdicts, result, List.map_cons, ih pool]

theorem ids_perm (pool : PoolState) (requests : List Request) :
    (requests.map Request.id).Perm
      ((pool.refusals requests).map Prod.fst ++ (pool.accepted requests).map Request.id) := by
  have perm := (verdicts_perm pool requests).map Prod.fst
  rw [verdicts_ids, List.map_append, List.map_map] at perm
  exact perm

/-- If all requests succeed, so does every part of them in its turn. -/
theorem accepted_split {front back : List Request}
    (all : pool.accepted (front ++ back) = front ++ back) :
    pool.accepted front = front ∧ (pool.serve front).accepted back = back := by
  rw [accepted_append] at all
  have first := accepted_sublist pool front
  have second := accepted_sublist (pool.serve front) back
  have lengths := congrArg List.length all
  simp only [List.length_append] at lengths
  have short := first.length_le
  have brief := second.length_le
  exact ⟨first.eq_of_length (by omega), second.eq_of_length (by omega)⟩

theorem accepted_head (all : pool.accepted (request :: requests) = request :: requests) :
    ∃ next, request.mutation pool = .ok next := by
  cases result : request.mutation pool with
  | ok next => exact ⟨next, rfl⟩
  | error failure =>
      simp only [accepted, result] at all
      have short := (accepted_sublist pool requests).length_le
      rw [all, List.length_cons] at short
      omega

end PoolState

end ClaimStore
