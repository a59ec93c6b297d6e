import ClaimStore.Flexbuffer.Layout
import ClaimStore.Flexbuffer.Tree

/-!
Writing a tree as a flexbuffer.

Values are stored in the order of a walk through the tree, the parts of a list or a record before
the list or record itself. The name of a field is stored once and shared by all records.
-/
namespace ClaimStore.Flexbuffer

/-- What a place of a vector will hold. -/
inductive Slot
  | number (value : Nat)
  | reference (kind : Kind) (child : Width) (address : Nat)
  deriving Inhabited

/-- The bytes written so far and the addresses of the field names among them. -/
structure Writer where
  bytes : Array UInt8 := #[]
  names : List (String × Nat) := []

/-- The bytes missing from `length` to the next multiple of `step`. -/
def padding (length step : Nat) : Nat := (step - length % step) % step

/-- The words in which a distance is tried, each with the step by which its place is estimated. -/
def distanceSteps : List (Nat × Width) := [(1, .one), (2, .two), (3, .four), (4, .eight)]

namespace Slot

/-- The width that the slot needs as place `index` of a vector that starts after `length` bytes.
For a reference it is the first width that its estimated distance needs exactly. -/
def widthAt (length index : Nat) : Slot → Width
  | .number value => Width.ofNumber value
  | .reference _ _ address =>
      let estimate (step : Nat) := length + padding length step + index * step - address
      match distanceSteps.find? fun (step, width) => Width.ofNumber (estimate step) = width with
      | some (_, width) => width
      | none => .eight

/-- The word at the place `position`. -/
def word (position : Nat) : Slot → Nat
  | .number value => value
  | .reference _ _ address => position - address

/-- The packed type of the slot in a vector of the given width. -/
def packed (width : Width) : Slot → UInt8
  | .number value => packType .uint (width.max (Width.ofNumber value))
  | .reference kind child _ => packType kind child

end Slot

namespace Writer

def append (writer : Writer) (bytes : Bytes) : Writer :=
  { writer with bytes := writer.bytes ++ bytes }

def align (writer : Writer) (width : Width) : Writer :=
  writer.append (List.replicate (padding writer.bytes.size width.bytes) 0)

def putWord (writer : Writer) (width : Width) (word : Nat) : Writer :=
  writer.append (Bytes.littleEndian width.bytes word)

def putSlot (width : Width) (writer : Writer) (slot : Slot) : Writer :=
  writer.putWord width (slot.word writer.bytes.size)

/-- Stores a field name unless it is stored already, and gives its address. -/
def putName (writer : Writer) (name : String) : Writer × Nat :=
  match writer.names.lookup name with
  | some address => (writer, address)
  | none =>
      let address := writer.bytes.size
      let stored := writer.append (Bytes.ofText name ++ [0])
      ({ stored with names := (name, address) :: stored.names }, address)

def putText (writer : Writer) (text : String) : Writer × Slot :=
  let bytes := Bytes.ofText text
  let width := Width.ofNumber bytes.length
  let started := (writer.align width).putWord width bytes.length
  (started.append (bytes ++ [0]), .reference .text width started.bytes.size)

/-- The width of a vector of these slots, of which the first comes after `lead` words. -/
def vectorWidth (length lead : Nat) (slots : List Slot) : Width :=
  (slots.zipIdx lead).foldl (fun width (slot, index) => width.max (slot.widthAt length index))
    (Width.ofNumber slots.length)

def putNames (writer : Writer) (addresses : List Nat) : Writer × Slot :=
  let slots := addresses.map (Slot.reference .key .one)
  let width := vectorWidth writer.bytes.size 1 slots
  let started := (writer.align width).putWord width slots.length
  (slots.foldl (putSlot width) started,
    .reference (.typedVector .key) width started.bytes.size)

def putVector (writer : Writer) (kind : Kind) (width : Width) (slots : List Slot) : Writer × Slot :=
  let started := writer.putWord width slots.length
  let filled := slots.foldl (putSlot width) started
  (filled.append (slots.map (Slot.packed width)), .reference kind width started.bytes.size)

def putList (writer : Writer) (slots : List Slot) : Writer × Slot :=
  let width := vectorWidth writer.bytes.size 1 slots
  (writer.align width).putVector .vector width slots

/-- Puts a field into its place among fields that are sorted by the bytes of their names. -/
def insertField (field : String × Nat × Slot) :
    List (String × Nat × Slot) → List (String × Nat × Slot)
  | [] => [field]
  | head :: rest =>
      if field.1 ≤ head.1 then field :: head :: rest else head :: insertField field rest

def sortFields (fields : List (String × Nat × Slot)) : List (String × Nat × Slot) :=
  fields.foldr insertField []

/-- Stores the fields of a record, given by the names, their addresses and the values. They are
sorted by the bytes of their names, and a vector of the names is stored before the values. -/
def putRecord (writer : Writer) (fields : List (String × Nat × Slot)) : Writer × Slot :=
  let sorted := sortFields fields
  let (named, names) := writer.putNames (sorted.map fun field => field.2.1)
  let namesWidth : Width :=
    match names with
    | .reference _ width _ => width
    | .number _ => .one
  let slots := sorted.map fun field => field.2.2
  let length := named.bytes.size
  let width := (vectorWidth length 3 slots).max (names.widthAt length 0)
  let started := (putSlot width (named.align width) names).putWord width namesWidth.bytes
  started.putVector .map width slots

mutual

def put (writer : Writer) : Tree → Writer × Slot
  | .number value => (writer, .number value.toNat)
  | .text value => writer.putText value
  | .list items =>
      let (stored, slots) := writer.putItems items
      stored.putList slots
  | .record fields =>
      let (stored, slots) := writer.putFields fields
      stored.putRecord slots

def putItems (writer : Writer) : List Tree → Writer × List Slot
  | [] => (writer, [])
  | item :: rest =>
      let (first, slot) := writer.put item
      let (stored, slots) := first.putItems rest
      (stored, slot :: slots)

def putFields (writer : Writer) : List (String × Tree) → Writer × List (String × Nat × Slot)
  | [] => (writer, [])
  | (name, value) :: rest =>
      let (named, address) := writer.putName name
      let (first, slot) := named.put value
      let (stored, fields) := first.putFields rest
      (stored, (name, address, slot) :: fields)

end

def finish (writer : Writer) (root : Slot) : Bytes :=
  let width := root.widthAt writer.bytes.size 0
  let placed := putSlot width (writer.align width) root
  (placed.append [root.packed width, UInt8.ofNat width.bytes]).bytes.toList

end Writer

def Tree.write (tree : Tree) : Bytes :=
  let (writer, root) := Writer.put {} tree
  writer.finish root

end ClaimStore.Flexbuffer
