import ClaimStore.Bytes

/-!
The layout of flexbuffers: widths of words and kinds of values.

A flexbuffer is written from its leaves to its root. Words are little-endian with a width of one,
two, four or eight bytes. A value that does not fit into a word is stored before the place that
refers to it, and the place holds the distance back to it. A packed type, one byte, gives the kind
of a value and the width of its words.
-/
namespace ClaimStore.Flexbuffer

/-- The width of a word. -/
inductive Width
  | one
  | two
  | four
  | eight
  deriving DecidableEq, Inhabited

namespace Width

def bytes : Width → Nat
  | .one => 1
  | .two => 2
  | .four => 4
  | .eight => 8

def code : Width → Nat
  | .one => 0
  | .two => 1
  | .four => 2
  | .eight => 3

def ofCode : Nat → Width
  | 0 => .one
  | 1 => .two
  | 2 => .four
  | _ => .eight

def ofBytes? : Nat → Option Width
  | 1 => some .one
  | 2 => some .two
  | 4 => some .four
  | 8 => some .eight
  | _ => none

def ofNumber (number : Nat) : Width :=
  if number < 256 then .one
  else if number < 65536 then .two
  else if number < 4294967296 then .four
  else .eight

def max (left right : Width) : Width := if left.code < right.code then right else left

end Width

/-- The element kind of a typed vector. -/
inductive ElementKind
  | int
  | uint
  | float
  | key
  | bool
  deriving DecidableEq

/-- What a value is. An indirect number is stored apart from the place that holds it; a fixed
vector has no length word. -/
inductive Kind
  | null
  | int
  | uint
  | float
  | bool
  | key
  | text
  | indirectInt
  | indirectUint
  | indirectFloat
  | map
  | vector
  | typedVector (element : ElementKind)
  | fixedVector (element : ElementKind) (length : Nat)
  | blob
  deriving DecidableEq, Inhabited

namespace Kind

def code : Kind → Nat
  | .null => 0
  | .int => 1
  | .uint => 2
  | .float => 3
  | .key => 4
  | .text => 5
  | .indirectInt => 6
  | .indirectUint => 7
  | .indirectFloat => 8
  | .map => 9
  | .vector => 10
  | .typedVector .int => 11
  | .typedVector .uint => 12
  | .typedVector .float => 13
  | .typedVector .key => 14
  | .fixedVector .int 2 => 16
  | .fixedVector .uint 2 => 17
  | .fixedVector .float 2 => 18
  | .fixedVector .int 3 => 19
  | .fixedVector .uint 3 => 20
  | .fixedVector .float 3 => 21
  | .fixedVector .int _ => 22
  | .fixedVector .uint _ => 23
  | .fixedVector _ _ => 24
  | .blob => 25
  | .bool => 26
  | .typedVector .bool => 36

def ofCode? : Nat → Option Kind
  | 0 => some .null
  | 1 => some .int
  | 2 => some .uint
  | 3 => some .float
  | 4 => some .key
  | 5 => some .text
  | 6 => some .indirectInt
  | 7 => some .indirectUint
  | 8 => some .indirectFloat
  | 9 => some .map
  | 10 => some .vector
  | 11 => some (.typedVector .int)
  | 12 => some (.typedVector .uint)
  | 13 => some (.typedVector .float)
  | 14 => some (.typedVector .key)
  | 16 => some (.fixedVector .int 2)
  | 17 => some (.fixedVector .uint 2)
  | 18 => some (.fixedVector .float 2)
  | 19 => some (.fixedVector .int 3)
  | 20 => some (.fixedVector .uint 3)
  | 21 => some (.fixedVector .float 3)
  | 22 => some (.fixedVector .int 4)
  | 23 => some (.fixedVector .uint 4)
  | 24 => some (.fixedVector .float 4)
  | 25 => some .blob
  | 26 => some .bool
  | 36 => some (.typedVector .bool)
  | _ => none

def isInline : Kind → Bool
  | .null | .int | .uint | .float | .bool => true
  | _ => false

/-- The kind of an indirect number once it has been followed. -/
def direct : Kind → Kind
  | .indirectInt => .int
  | .indirectUint => .uint
  | .indirectFloat => .float
  | kind => kind

end Kind

def ElementKind.kind : ElementKind → Kind
  | .int => .int
  | .uint => .uint
  | .float => .float
  | .key => .key
  | .bool => .bool

def packType (kind : Kind) (width : Width) : UInt8 := UInt8.ofNat (kind.code * 4 + width.code)

def unpackType? (byte : UInt8) : Option (Kind × Width) :=
  (Kind.ofCode? (byte.toNat / 4)).map fun kind => (kind, Width.ofCode (byte.toNat % 4))

end ClaimStore.Flexbuffer
