import ClaimStore.Request

/-!
The queue of a pool's requests.

Requests leave the queue in the order in which they came. A closed queue takes no more requests; the
ones that wait in it still leave.
-/
namespace ClaimStore

structure RequestQueue where
  waiting : List Request
  isClosed : Bool

namespace RequestQueue

def empty : RequestQueue := ⟨[], false⟩

instance : Inhabited RequestQueue := ⟨empty⟩

def size (queue : RequestQueue) : Nat := queue.waiting.length

/-- The queue with one more request at its end, unless it is closed. -/
def push? (queue : RequestQueue) (request : Request) : Option RequestQueue :=
  if queue.isClosed then none else some { queue with waiting := queue.waiting ++ [request] }

/-- Takes the first requests, at most `limit` of them. -/
def takeBatch (queue : RequestQueue) (limit : Nat) : List Request × RequestQueue :=
  (queue.waiting.take limit, { queue with waiting := queue.waiting.drop limit })

def close (queue : RequestQueue) : RequestQueue := { queue with isClosed := true }

theorem takeBatch_append (queue : RequestQueue) (limit : Nat) :
    (queue.takeBatch limit).1 ++ (queue.takeBatch limit).2.waiting = queue.waiting :=
  List.take_append_drop limit queue.waiting

theorem takeBatch_length (queue : RequestQueue) (limit : Nat) :
    (queue.takeBatch limit).1.length = min limit queue.size :=
  List.length_take

end RequestQueue

end ClaimStore
