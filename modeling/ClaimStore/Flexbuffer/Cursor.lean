import ClaimStore.Flexbuffer.Layout
import ClaimStore.Number.Power

/-!
Reading flexbuffers in place.

A cursor stands on one value of a buffer and is moved by what the buffer holds, not by a schema.
The root is found from the end of the buffer. Every read is checked against the buffer; an element
that cannot be reached is null.
-/
namespace ClaimStore.Flexbuffer

/-- A value in a buffer. `width` is the width of its words. -/
structure Cursor where
  buffer : Array UInt8
  kind : Kind := .null
  width : Width := .one
  address : Nat := 0
  deriving Inhabited

def wordAt? (buffer : Array UInt8) (address : Nat) (width : Width) : Option Nat :=
  if address + width.bytes ≤ buffer.size then
    some (Bytes.toNat (buffer.extract address (address + width.bytes)).toList)
  else none

/-- The address that the distance stored at `address` leads back to. -/
def follow? (buffer : Array UInt8) (address : Nat) (width : Width) : Option Nat := do
  let distance ← wordAt? buffer address width
  if distance ≤ address then some (address - distance) else none

namespace Cursor

/-- The value in the place `address`. Unless the place holds the value itself, it is reached by a
distance of width `parent`. -/
def ofPlace? (buffer : Array UInt8) (address : Nat) (kind : Kind) (width parent : Width) :
    Option Cursor :=
  if kind.isInline then some { buffer, kind, width, address }
  else (follow? buffer address parent).map fun target =>
    { buffer, kind := kind.direct, width, address := target }

/-- The root of a buffer: its last byte is the width of the root, the byte before it the packed
type, and the place of the root comes before them. -/
def root? (bytes : Bytes) : Option Cursor := do
  let buffer := bytes.toArray
  if buffer.size < 3 then none
  let parent ← Width.ofBytes? (← buffer[buffer.size - 1]?).toNat
  let (kind, width) ← unpackType? (← buffer[buffer.size - 2]?)
  if parent.bytes ≤ buffer.size - 2 then
    ofPlace? buffer (buffer.size - 2 - parent.bytes) kind width parent
  else none

/-- The length word stored before the value; a value too close to the start has length zero. -/
def storedLength? (cursor : Cursor) : Option Nat :=
  if cursor.width.bytes ≤ cursor.address then
    wordAt? cursor.buffer (cursor.address - cursor.width.bytes) cursor.width
  else some 0

/-- The number of elements of a vector; `none` if the value is no vector. -/
def vectorLength? (cursor : Cursor) : Option Nat :=
  match cursor.kind with
  | .vector | .typedVector _ => cursor.storedLength?
  | .fixedVector _ length => some length
  | _ => none

/-- The element that the place `index` of an untyped vector of the given length holds. -/
def untypedElement? (cursor : Cursor) (length index : Nat) : Option Cursor := do
  let packed ← cursor.buffer[cursor.address + length * cursor.width.bytes + index]?
  let (kind, width) ← unpackType? packed
  ofPlace? cursor.buffer (cursor.address + index * cursor.width.bytes) kind width cursor.width

def typedElement? (cursor : Cursor) (element : ElementKind) (index : Nat) : Option Cursor :=
  ofPlace? cursor.buffer (cursor.address + index * cursor.width.bytes) element.kind cursor.width
    cursor.width

/-- The element at an index of a vector of the given length; null if it cannot be reached. -/
def element (cursor : Cursor) (length index : Nat) : Cursor :=
  let found :=
    match cursor.kind with
    | .typedVector kind | .fixedVector kind _ => cursor.typedElement? kind index
    | _ => cursor.untypedElement? length index
  found.getD { buffer := cursor.buffer }

/-- The value as a 64-bit word: any integer that is not negative. A number that cannot be reached
is zero. -/
def number? (cursor : Cursor) : Option UInt64 :=
  let word := (wordAt? cursor.buffer cursor.address cursor.width).getD 0
  match cursor.kind with
  | .uint => some (UInt64.ofNat word)
  | .int =>
      if word < Number.twoTo (8 * cursor.width.bytes - 1) then some (UInt64.ofNat word) else none
  | _ => none

/-- The bytes of a key, up to the zero byte that ends it; none if no zero byte does. -/
def keyBytes (cursor : Cursor) : Bytes :=
  let rest := cursor.buffer.toList.drop cursor.address
  if rest.contains 0 then rest.takeWhile (· ≠ 0) else []

/-- The bytes of a text or blob, if they are all in the buffer. -/
def storedBytes? (cursor : Cursor) : Option Bytes := do
  let length ← cursor.storedLength?
  if cursor.address + length ≤ cursor.buffer.size then
    some (cursor.buffer.extract cursor.address (cursor.address + length)).toList
  else none

/-- The name that a key stands for; a key that is no UTF-8 has the empty name. -/
def keyName (cursor : Cursor) : String := (Bytes.toText? cursor.keyBytes).getD ""

/-- The value as a text. A text that is no UTF-8 reads as the empty text; a blob has to be UTF-8. -/
def text? (cursor : Cursor) : Option String :=
  match cursor.kind with
  | .text => some ((cursor.storedBytes?.bind Bytes.toText?).getD "")
  | .key => some cursor.keyName
  | .blob => cursor.storedBytes?.bind Bytes.toText?
  | _ => none

/-- The vector of field names of a map. Its distance and the width of its words are stored before
the length of the map. -/
def names? (cursor : Cursor) : Option Cursor := do
  let width := cursor.width.bytes
  if cursor.kind ≠ .map ∨ cursor.address ≤ 3 * width then none
  let namesWidth ← Width.ofBytes?
    (← wordAt? cursor.buffer (cursor.address - 2 * width) cursor.width)
  let address ← follow? cursor.buffer (cursor.address - 3 * width) cursor.width
  some { cursor with kind := .typedVector .key, width := namesWidth, address }

/-- Whether a value that nobody asks for can be passed over. At most `depth` levels are followed;
what lies deeper is refused. -/
def skippable : (depth : Nat) → Cursor → Bool
  | 0, _ => false
  | depth + 1, cursor =>
      match cursor.kind with
      | .float => cursor.width = .four || cursor.width = .eight
      | .blob => cursor.storedBytes?.isSome
      | .typedVector _ | .fixedVector _ _ =>
          match cursor.vectorLength? with
          | none => false
          | some 0 => true
          | some length => skippable depth (cursor.element length 0)
      | .vector =>
          match cursor.storedLength? with
          | none => false
          | some length =>
              (List.range (min length cursor.buffer.size)).all fun index =>
                skippable depth (cursor.element length index)
      | .map =>
          match cursor.names?, cursor.storedLength? with
          | some _, some length =>
              (List.range (min length cursor.buffer.size)).all fun index =>
                skippable depth (cursor.element length index)
          | _, _ => false
      | _ => true

/-- The values of the wanted fields among the entries of a map from `index` on. A name that occurs
twice is refused; an unwanted field is passed over. -/
def collectFields (cursor names : Cursor) (length : Nat) (wanted : List String) :
    (left : Nat) → List (String × Cursor) → Option (List (String × Cursor))
  | 0, found => some found
  | left + 1, found =>
      let index := length - (left + 1)
      let name := names.element length index
      let value := cursor.element length index
      if name.kind ≠ .key then none
      else if name.keyName ∈ wanted then
        if (found.lookup name.keyName).isSome then none
        else collectFields cursor names length wanted left ((name.keyName, value) :: found)
      else if skippable cursor.buffer.size value then
        collectFields cursor names length wanted left found
      else none

/-- The values of all wanted fields, in the wanted order. A record is a map, or a vector whose
first elements are the fields. -/
def fields? (cursor : Cursor) (wanted : List String) : Option (List Cursor) :=
  match cursor.kind with
  | .map => do
      let names ← cursor.names?
      let length ← cursor.storedLength?
      let found ← collectFields cursor names length wanted length []
      wanted.mapM fun name => found.lookup name
  | _ => do
      let length ← cursor.vectorLength?
      if length < wanted.length then none
      else some ((List.range wanted.length).map (cursor.element length))

/-- The elements of a vector from `index` on, each read by `read`. -/
def collectElements {α : Type} (read : Cursor → Option α) (cursor : Cursor) (length : Nat) :
    (left : Nat) → Option (List α)
  | 0 => some []
  | left + 1 => do
      let first ← read (cursor.element length (length - (left + 1)))
      let rest ← collectElements read cursor length left
      some (first :: rest)

/-- The elements of a vector, each read by `read`. -/
def list? {α : Type} (cursor : Cursor) (read : Cursor → Option α) : Option (List α) := do
  let length ← cursor.vectorLength?
  collectElements read cursor length length

end Cursor

end ClaimStore.Flexbuffer
