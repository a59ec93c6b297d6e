import ClaimStore.Proofs.Storage.Bounds

/-!
Writing into limited room.

A frame is put down in three pieces: the codec byte, the length word and the payload. Before the length
word it is made sure that the room takes the word and the payload, so that the two are written together
or not at all. What stands in a buffer that was too small is the codec byte, which no reader takes for a
frame.
-/
namespace ClaimStore.Storage

theorem sized_length (payload : Bytes) : (sized payload).length = payload.length + lengthBytes := by
  rw [sized, List.length_append, Bytes.littleEndian_length, Nat.add_comm]

/-- A buffer that bytes are put into at its end, and that has room for so many more. -/
structure Sink where
  written : Bytes
  room : Nat

namespace Sink

/-- The sink with more bytes at its end. Nothing can be put beyond the room. -/
def put? (sink : Sink) (bytes : Bytes) : Option Sink :=
  if bytes.length ≤ sink.room then some ⟨sink.written ++ bytes, sink.room - bytes.length⟩ else none

/-- Puts the length of a payload and the payload, unless the room is too small for both or the length
does not fit into its word. -/
def putSized? (sink : Sink) (payload : Bytes) : Option (Except EncodeError Unit × Sink) :=
  let required := payload.length + lengthBytes
  if sink.room < required then some (.error (.shortOfSpace required sink.room), sink)
  else if UInt32.size ≤ payload.length then some (.error .tooLong, sink)
  else
    ((sink.put? (Bytes.littleEndian lengthBytes payload.length)).bind fun worded =>
      worded.put? payload).map fun full => (.ok (), full)

/-- A buffer that grows: it can hold as many bytes as can be counted. -/
def growing : Sink := ⟨[], UInt64.size - 1⟩

variable {sink : Sink} {bytes more payload : Bytes}

theorem put?_of_le (within : bytes.length ≤ sink.room) :
    sink.put? bytes = some ⟨sink.written ++ bytes, sink.room - bytes.length⟩ := if_pos within

/-- Pieces that fit together can be put one after the other. -/
theorem put?_put? (within : (bytes ++ more).length ≤ sink.room) :
    ((sink.put? bytes).bind fun next => next.put? more) =
      some ⟨sink.written ++ (bytes ++ more), sink.room - (bytes ++ more).length⟩ := by
  rw [List.length_append] at within ⊢
  have first : bytes.length ≤ sink.room := by omega
  have second : more.length ≤ sink.room - bytes.length := by omega
  rw [put?_of_le first, Option.bind_some, put?_of_le second, List.append_assoc, Nat.sub_add_eq]

theorem putSized?_of_lt (short : sink.room < (sized payload).length) :
    sink.putSized? payload = some (.error (.shortOfSpace (sized payload).length sink.room), sink) := by
  rw [sized_length] at short ⊢
  exact if_pos short

theorem putSized?_of_size_le (within : (sized payload).length ≤ sink.room)
    (long : UInt32.size ≤ payload.length) :
    sink.putSized? payload = some (.error .tooLong, sink) := by
  rw [sized_length] at within
  rw [putSized?, if_neg (Nat.not_lt_of_le within), if_pos long]

/-- Where the length and the payload fit, both are put. -/
theorem putSized?_of_le (within : (sized payload).length ≤ sink.room)
    (told : payload.length < UInt32.size) :
    sink.putSized? payload =
      some (.ok (), ⟨sink.written ++ sized payload, sink.room - (sized payload).length⟩) := by
  have pieces := put?_put? within
  rw [sized_length] at within
  rw [putSized?, if_neg (Nat.not_lt_of_le within), if_neg (Nat.not_le_of_lt told), pieces]
  rfl

end Sink

namespace Format

variable {α : Type} {format : Format α} {value : α} {sink : Sink}

/-- Puts the value into the sink, piece by piece. There is no outcome if a piece does not fit. -/
def put? (format : Format α) (value : α) (sink : Sink) : Option (Except EncodeError Unit × Sink) :=
  (sink.put? [Codec.flexbuffers.byte]).bind fun opened => opened.putSized? (format.write value)

/-- The bytes of the value, put into a buffer of their own. -/
def encodeToBytes? (format : Format α) (value : α) : Option (Except EncodeError Bytes) :=
  (format.put? value .growing).map fun (outcome, sink) => outcome.map fun _ => sink.written

/-- Piece by piece the same is written as is told for the room all at once, and no piece is put beyond
the room. -/
theorem put?_eq (room : 1 ≤ sink.room) :
    format.put? value sink =
      some ((format.encodeWithin sink.room value).1,
        ⟨sink.written ++ (format.encodeWithin sink.room value).2,
          sink.room - (format.encodeWithin sink.room value).2.length⟩) := by
  have some : ¬ sink.room = 0 := by omega
  have byte : [Codec.flexbuffers.byte].length ≤ sink.room := room
  rw [put?, Sink.put?_of_le byte, Option.bind_some]
  simp only [encodeWithin, if_neg some, List.length_singleton]
  by_cases short : sink.room - 1 < (sized (format.write value)).length
  · rw [if_pos short, Sink.putSized?_of_lt short]
    rfl
  · have within := Nat.le_of_not_lt short
    rw [if_neg short]
    cases storable : format.isStorable value with
    | false =>
        have long : UInt32.size ≤ (format.write value).length :=
          Nat.le_of_not_lt (of_decide_eq_false storable)
        rw [Sink.putSized?_of_size_le within long]
        rfl
    | true =>
        rw [Sink.putSized?_of_le within (of_decide_eq_true storable), List.append_assoc,
          Nat.sub_sub, Nat.add_comm 1]
        rfl

/-- A value that is storable is never too long for a buffer of its own. -/
theorem encodeToBytes?_of_storable (storable : format.isStorable value = true) :
    format.encodeToBytes? value = some (.ok (format.encode value)) := by
  have told : (format.write value).length < UInt32.size := of_decide_eq_true storable
  have room : (format.encode value).length ≤ Sink.growing.room := by
    have fits : headLength + UInt32.size ≤ Sink.growing.room := by decide
    rw [encode_length]
    omega
  rw [encodeToBytes?, put?_eq (by decide), encodeWithin_of_le storable room]
  rfl

/-- Without room for all of the frame its first byte is written, and no other. -/
theorem encodeWithin_of_lt {capacity : Nat} (room : 1 ≤ capacity)
    (short : capacity < (format.encode value).length) :
    format.encodeWithin capacity value =
      (.error (.shortOfSpace ((format.encode value).length - 1) (capacity - 1)),
        (format.encode value).take 1) := by
  rw [encode, List.length_cons] at short
  have some : ¬ capacity = 0 := by omega
  have lacking : capacity - 1 < (sized (format.write value)).length := by omega
  simp only [encodeWithin, if_neg some, if_pos lacking]
  rfl

/-- The codec byte by itself is refused for the length that it lacks, and it is used up. -/
theorem decode_codec_byte {buffer : Buffer} (bytes : buffer.bytes = [Codec.flexbuffers.byte]) :
    (format.decode buffer).1 = .error .shortLength ∧ (format.decode buffer).2.bytes = [] := by
  have read := format.decode_outcome buffer
  rw [bytes] at read
  exact ⟨congrArg Prod.fst read, congrArg Prod.snd read⟩

end Format

/-- A state that is put into a sink with some room is there to the last byte, as in a buffer of its own,
or only with its codec byte: it depends on whether the room takes the frame. The codec byte is refused,
however it is handed over. -/
theorem encode_whole_or_codec_byte (pool : PoolState) (sink : Sink)
    (storable : poolFormat.isStorable pool = true) (room : 1 ≤ sink.room) :
    let frame := poolFormat.encode pool
    let result := poolFormat.encodeWithin sink.room pool
    poolFormat.put? pool sink =
      some (result.1, ⟨sink.written ++ result.2, sink.room - result.2.length⟩) ∧
    (frame.length ≤ sink.room →
      result = (.ok (), frame) ∧ poolFormat.encodeToBytes? pool = some (.ok frame)) ∧
    (sink.room < frame.length →
      result = (.error (.shortOfSpace (frame.length - 1) (sink.room - 1)), [2]) ∧
      ∀ chunks : List Bytes, chunks.flatten = result.2 →
        (poolFormat.decode (.ofChunks chunks)).1 = .error .shortLength ∧
        (poolFormat.decode (.ofChunks chunks)).2.bytes = []) := by
  refine ⟨Format.put?_eq room, fun enough => ?_, fun short => ?_⟩
  · exact ⟨Format.encodeWithin_of_le storable enough, Format.encodeToBytes?_of_storable storable⟩
  · have refused := Format.encodeWithin_of_lt room short
    refine ⟨refused, fun chunks cut => Format.decode_codec_byte ?_⟩
    rw [Buffer.bytes_ofChunks, cut, refused]
    rfl

/-- One byte of room too few, behind a frame that has been written before. -/
theorem encode_whole_or_codec_byte_short :
    let frame := poolFormat.encode claimedSample
    let sink : Sink := ⟨frame, frame.length - 1⟩
    poolFormat.isStorable claimedSample = true ∧ 1 ≤ sink.room ∧ sink.room < frame.length ∧
    poolFormat.put? claimedSample sink =
      some (.error (.shortOfSpace (frame.length - 1) (sink.room - 1)),
        ⟨frame ++ [2], sink.room - 1⟩) ∧
    (poolFormat.decode (.ofChunks [[], [2]])).1 = .error .shortLength := by
  have long : 1 < (poolFormat.encode claimedSample).length := by decide +kernel
  let sink : Sink :=
    ⟨poolFormat.encode claimedSample, (poolFormat.encode claimedSample).length - 1⟩
  have room : 1 ≤ sink.room := Nat.le_sub_of_add_le long
  have short : sink.room < (poolFormat.encode claimedSample).length := Nat.sub_lt (by omega) (by omega)
  obtain ⟨put, -, lacking⟩ :=
    encode_whole_or_codec_byte claimedSample sink claimedSample_storable room
  obtain ⟨refused, read⟩ := lacking short
  refine ⟨claimedSample_storable, room, short, ?_, (read [[], [2]] ?_).1⟩
  · rw [put, refused, List.length_singleton]
  · rw [refused]
    rfl

end ClaimStore.Storage
