import ClaimStore.Retry.Cursor

/-!
Repeating an operation as a retry policy allows.

Calls are counted by natural numbers. A loop makes fewer than 2^64 of them: there is a pause between
any two, and no loop lasts that long.
-/
namespace ClaimStore

/-- What is done after a failed attempt. -/
inductive Recovery
  | giveUp
  | retry (cursor : RetryCursor) (pause : Duration)
  | impossible
  deriving DecidableEq

/-- An error that is not worth a retry ends the attempts, and does not move the cursor. -/
def RetryCursor.recover (draw : Draw) (cursor : RetryCursor) (retryable : Bool) : Recovery :=
  if retryable then
    match cursor.next draw with
    | (.exhausted, _) => .giveUp
    | (.pause _ length, next) => .retry next length
    | (.impossible, _) => .impossible
  else .giveUp

/-- How a repeated operation ended: with the outcome of its last call, or because a pause could not
be computed. `none` stands for the latter. -/
structure Repeated (α ε : Type) where
  calls : Nat
  /-- How often an error was judged. -/
  checks : Nat
  outcome : Option (Except ε α)
  deriving Inhabited

namespace RetryCursor

variable {α ε : Type}

/-- Calls the operation until its outcome is final. `operation` gives the outcome of each call and
`draws` the draw for the pause after it; `calls` and `checks` count what has been done before.
Without an end within `fuel` calls there is no result. -/
def runFrom (draws : Nat → Draw) (retryable : ε → Bool) (operation : Nat → Except ε α) :
    (fuel : Nat) → RetryCursor → (calls checks : Nat) → Option (Repeated α ε)
  | 0, _, _, _ => none
  | fuel + 1, cursor, calls, checks =>
      match operation calls with
      | .ok value => some ⟨calls + 1, checks, some (.ok value)⟩
      | .error error =>
          match cursor.recover (draws calls) (retryable error) with
          | .giveUp => some ⟨calls + 1, checks + 1, some (.error error)⟩
          | .impossible => some ⟨calls + 1, checks + 1, none⟩
          | .retry next _ => runFrom draws retryable operation fuel next (calls + 1) (checks + 1)

end RetryCursor

namespace RetryPolicy

variable {α ε : Type}

/-- Repeats an operation under a policy, for at most `fuel` calls. Each pause has a draw of its
own. -/
def retryDrawing (policy : RetryPolicy) (draws : Nat → Draw) (retryable : ε → Bool)
    (operation : Nat → Except ε α) (fuel : Nat) : Option (Repeated α ε) :=
  (RetryCursor.start policy).runFrom draws retryable operation fuel 0 0

/-- The same with one draw for all pauses. -/
def retryIf (policy : RetryPolicy) (draw : Draw) (retryable : ε → Bool)
    (operation : Nat → Except ε α) (fuel : Nat) : Option (Repeated α ε) :=
  policy.retryDrawing (fun _ => draw) retryable operation fuel

end RetryPolicy

end ClaimStore
