import ClaimStore.Buffer

/-!
Framed values.

A stored value starts with a byte that names the codec of its payload. The length of the payload
follows as a 32-bit word, and then the payload. The length makes a value end by itself, so a frame
can be followed by other bytes.
-/
namespace ClaimStore.Storage

/-- How values of a type are written as payloads and read from them. -/
structure Format (α : Type) where
  write : α → Bytes
  read? : Bytes → Option α

/-- Every value is read back from its payload. -/
def Format.Faithful {α : Type} (format : Format α) : Prop :=
  ∀ value, format.read? (format.write value) = some value

/-- The codecs of payloads. -/
inductive Codec
  | flexbuffers
  deriving DecidableEq

namespace Codec

def byte : Codec → UInt8
  | .flexbuffers => 2

def ofByte? (byte : UInt8) : Option Codec :=
  if byte = Codec.flexbuffers.byte then some .flexbuffers else none

theorem ofByte?_byte (codec : Codec) : ofByte? codec.byte = some codec := by
  cases codec; rfl

end Codec

/-- Why no value can be read from a buffer. -/
inductive DecodeError
  | noCodec
  | unknownCodec (byte : UInt8)
  | shortLength
  | shortPayload (length : Nat)
  | malformedPayload
  deriving DecidableEq

/-- What is missing; nothing more is said of a malformed payload. -/
def DecodeError.message? : DecodeError → Option String
  | .noCodec => some "failed reading codec: remaining bytes in buf '0' < version bytes '1'"
  | .unknownCodec byte => some s!"failed reading codec: unknown discriminant '{byte.toNat}'"
  | .shortLength =>
      some "decoding failed: Serde Error: insufficient data: expecting 4 bytes for length"
  | .shortPayload length =>
      some ("decoding failed: Serde Error: insufficient data: expecting " ++ toString length ++
        " bytes for flexbuffers")
  | .malformedPayload => none

/-- Why a value cannot be written: its frame does not fit into the space, or its payload is too
long for the length word. -/
inductive EncodeError
  | noRoom
  | shortOfSpace (required free : Nat)
  | tooLong
  deriving DecidableEq

def EncodeError.message : EncodeError → String
  | .noRoom => "there is no room for the codec byte"
  | .shortOfSpace required free =>
      "encoding failed: Serde(\"not enough buffer space to serialize value; required " ++
        s!"{required} bytes but free capacity was {free}\")"
  | .tooLong => "encoding failed: Serde(\"only support serializing types of size <= 4GB\")"

def lengthBytes : Nat := 4

def sized (payload : Bytes) : Bytes := Bytes.littleEndian lengthBytes payload.length ++ payload

namespace Format

variable {α : Type} (format : Format α)

/-- Whether the length word can tell the length of the value's payload. -/
def isStorable (value : α) : Bool := (format.write value).length < UInt32.size

/-- The value in its frame, which is read back only if the value is storable. -/
def encode (value : α) : Bytes := Codec.flexbuffers.byte :: sized (format.write value)

/-- Writes the value into space for `capacity` bytes. What has been written is given with the
outcome. The codec byte is written before the space for the rest and the length of the payload are
checked. -/
def encodeWithin (capacity : Nat) (value : α) : Except EncodeError Unit × Bytes :=
  let rest := sized (format.write value)
  if capacity = 0 then (.error .noRoom, [])
  else if capacity - 1 < rest.length then
    (.error (.shortOfSpace rest.length (capacity - 1)), [Codec.flexbuffers.byte])
  else if !format.isStorable value then (.error .tooLong, [Codec.flexbuffers.byte])
  else (.ok (), Codec.flexbuffers.byte :: rest)

/-- Reads a payload of the given length. A payload that is all in one chunk is read in place,
together with what follows it in the chunk, and is used up only if it can be read. A payload cut by
chunks is used up first and then read by itself. -/
def decodePayload (length : Nat) (buffer : Buffer) : Except DecodeError α × Buffer :=
  if length ≤ buffer.chunk.length then
    match format.read? buffer.chunk with
    | some value => (.ok value, buffer.advance length)
    | none => (.error .malformedPayload, buffer)
  else
    match format.read? (buffer.take length) with
    | some value => (.ok value, buffer.advance length)
    | none => (.error .malformedPayload, buffer.advance length)

def decodeSized (buffer : Buffer) : Except DecodeError α × Buffer :=
  if buffer.remaining < lengthBytes then (.error .shortLength, buffer)
  else
    let length := Bytes.toNat (buffer.take lengthBytes)
    let rest := buffer.advance lengthBytes
    if rest.remaining < length then (.error (.shortPayload length), rest)
    else format.decodePayload length rest

/-- Reads a framed value from the front of a buffer and gives the rest of the buffer. -/
def decode (buffer : Buffer) : Except DecodeError α × Buffer :=
  match buffer.bytes with
  | [] => (.error .noCodec, buffer)
  | byte :: _ =>
      match Codec.ofByte? byte with
      | none => (.error (.unknownCodec byte), buffer.advance 1)
      | some .flexbuffers => format.decodeSized (buffer.advance 1)

end Format

end ClaimStore.Storage
