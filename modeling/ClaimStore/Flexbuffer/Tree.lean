/-!
The values that are written as flexbuffers.
-/
namespace ClaimStore.Flexbuffer

/-- A number, a text, a list, or a record of named fields. -/
inductive Tree
  | number (value : UInt64)
  | text (value : String)
  | list (items : List Tree)
  | record (fields : List (String × Tree))
  deriving Inhabited

end ClaimStore.Flexbuffer
