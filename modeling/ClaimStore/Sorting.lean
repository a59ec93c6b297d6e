/-!
Sorted lists without repeated elements.
-/
namespace ClaimStore

/-- Puts an element into its place in an ascending list, unless an equal one is there. -/
def insertDistinct {α : Type} [Ord α] (item : α) : List α → List α
  | [] => [item]
  | head :: rest =>
      match compare item head with
      | .lt => item :: head :: rest
      | .eq => head :: rest
      | .gt => head :: insertDistinct item rest

def sortDistinct {α : Type} [Ord α] (items : List α) : List α :=
  items.foldr insertDistinct []

end ClaimStore
