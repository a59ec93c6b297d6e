import ClaimStore.Proofs.Storage.Streams

/-!
Frames cut into chunks.

A frame in chunks of its own comes back however it is cut. Where other bytes follow in the same
chunk, they are handed to the reader of the payload too: what is read from a buffer depends on its
bytes and on those that lie behind the payload in the payload's chunk, and on nothing else. A
payload that cannot be read is used up only if it had to be copied.
-/
namespace ClaimStore

theorem Buffer.take_append_chunk (buffer : Buffer) {count : Nat}
    (within : count ≤ buffer.chunk.length) :
    buffer.take count ++ buffer.chunk.drop count = buffer.chunk := by
  obtain ⟨rest, bytes⟩ := buffer.chunk_prefix
  rw [Buffer.take, bytes, List.take_append_of_le_length within, List.take_append_drop]

namespace Storage

namespace Format

variable {α : Type} {format : Format α} {value other : α} {buffer : Buffer}

/-! ### Frames in chunks of their own -/

theorem drop_encode (format : Format α) (value : α) :
    (format.encode value).drop headLength = format.write value := by
  let head := Codec.flexbuffers.byte :: Bytes.littleEndian lengthBytes (format.write value).length
  have length : head.length = headLength := by
    rw [List.length_cons, Bytes.littleEndian_length, headLength, Nat.add_comm]
  show (head ++ format.write value).drop headLength = format.write value
  exact List.drop_left' length

theorem encodeWithin_of_le {capacity : Nat} (storable : format.isStorable value = true)
    (room : (format.encode value).length ≤ capacity) :
    format.encodeWithin capacity value = (.ok (), format.encode value) := by
  rw [encode, List.length_cons] at room
  have space : ¬ capacity = 0 := by omega
  have enough : ¬ capacity - 1 < (sized (format.write value)).length := by omega
  simp only [encodeWithin, if_neg space, if_neg enough, storable, Bool.not_true,
    Bool.false_eq_true, if_false, encode]

/-- Payloads that are read back tell values apart, and so do their frames. -/
theorem eq_of_encode_eq
    (back : ∀ value, format.isStorable value = true →
      format.read? (format.write value) = some value)
    (storable : format.isStorable value = true)
    (same : format.encode other = format.encode value) : other = value := by
  have payloads : format.write other = format.write value := by
    rw [← drop_encode, same, drop_encode]
  have storable' : format.isStorable other = true := by
    rw [isStorable, payloads]
    exact storable
  have found := back other storable'
  rw [payloads, back value storable] at found
  exact (Option.some.inj found).symm

/-! ### What the chunks show -/

/-- The length of the payload, as the head of the buffer tells it. -/
def toldLength (buffer : Buffer) : Nat := Bytes.toNat ((buffer.advance 1).take lengthBytes)

/-- Whether the payload lies in one chunk. -/
def isInPlace (buffer : Buffer) : Bool :=
  toldLength buffer ≤ (buffer.advance headLength).chunk.length

/-- The bytes behind the payload in the chunk that the payload lies in. Behind a payload that is
cut there are none. -/
def overread (buffer : Buffer) : Bytes :=
  (buffer.advance headLength).chunk.drop (toldLength buffer)

/-- A payload is read together with what lies behind it in its chunk. -/
theorem decodePayload_eq (format : Format α) (length : Nat) (buffer : Buffer) :
    format.decodePayload length buffer =
      match format.read? (buffer.take length ++ buffer.chunk.drop length) with
      | some value => (.ok value, buffer.advance length)
      | none =>
          (.error .malformedPayload,
            if length ≤ buffer.chunk.length then buffer else buffer.advance length) := by
  unfold decodePayload
  by_cases fits : length ≤ buffer.chunk.length
  · cases read : format.read? buffer.chunk <;>
      simp only [if_pos fits, buffer.take_append_chunk fits, read]
  · have behind := List.drop_eq_nil_of_le (Nat.le_of_not_le fits)
    cases read : format.read? (buffer.take length) <;>
      simp only [if_neg fits, behind, List.append_nil, read]

/-- What comes of bytes, and the bytes that are left, if the given ones are handed to the reader of
the payload behind it. -/
def outcome (format : Format α) (overread : Bytes) (inPlace : Bool) :
    Bytes → Except DecodeError α × Bytes
  | [] => (.error .noCodec, [])
  | byte :: bytes =>
      match Codec.ofByte? byte with
      | none => (.error (.unknownCodec byte), bytes)
      | some .flexbuffers =>
          let length := Bytes.toNat (bytes.take lengthBytes)
          let body := bytes.drop lengthBytes
          if bytes.length < lengthBytes then (.error .shortLength, bytes)
          else if body.length < length then (.error (.shortPayload length), body)
          else
            match format.read? (body.take length ++ overread) with
            | some value => (.ok value, body.drop length)
            | none => (.error .malformedPayload, if inPlace then body else body.drop length)

/-- Nothing but the bytes and what lies behind the payload in its chunk shows in the outcome. -/
theorem decode_outcome (format : Format α) (buffer : Buffer) :
    ((format.decode buffer).1, (format.decode buffer).2.bytes) =
      format.outcome (overread buffer) (isInPlace buffer) buffer.bytes := by
  unfold decode
  split
  · rename_i bytes
    simp only [bytes, outcome]
  · rename_i byte rest bytes
    have behind : (buffer.advance 1).bytes = rest := by
      rw [Buffer.bytes_advance, bytes, List.drop_one, List.tail_cons]
    rw [bytes, outcome]
    cases Codec.ofByte? byte with
    | none => exact congrArg _ behind
    | some codec =>
        cases codec
        have head : Bytes.toNat (rest.take lengthBytes) = toldLength buffer := by
          rw [toldLength, Buffer.take, behind]
        have past : (buffer.advance 1).advance lengthBytes = buffer.advance headLength :=
          Buffer.advance_advance buffer 1 lengthBytes
        have body : (buffer.advance headLength).bytes = rest.drop lengthBytes := by
          rw [← past, Buffer.bytes_advance, behind]
        have seen : (buffer.advance headLength).chunk.drop (toldLength buffer) = overread buffer :=
          rfl
        simp only [decodeSized, head, past, decodePayload_eq, seen, Buffer.take,
          Buffer.remaining, body, behind]
        split
        · rw [behind]
        · split
          · rw [body]
          · cases format.read? ((rest.drop lengthBytes).take (toldLength buffer) ++
                overread buffer) with
            | some value => simp only [Buffer.bytes_advance, body]
            | none =>
                by_cases inPlace : toldLength buffer ≤ (buffer.advance headLength).chunk.length
                · simp only [isInPlace, inPlace, decide_true, if_true, body]
                · simp only [isInPlace, inPlace, decide_false, Bool.false_eq_true, if_false,
                    Buffer.bytes_advance, body]

theorem outcome_inPlace (format : Format α) (overread bytes : Bytes) (first second : Bool) :
    (format.outcome overread first bytes).1 = (format.outcome overread second bytes).1 ∧
      ((format.outcome overread first bytes).1 ≠ .error .malformedPayload →
        (format.outcome overread first bytes).2 = (format.outcome overread second bytes).2) := by
  cases bytes with
  | nil => exact ⟨rfl, fun _ => rfl⟩
  | cons byte bytes =>
      simp only [outcome]
      cases Codec.ofByte? byte with
      | none => exact ⟨rfl, fun _ => rfl⟩
      | some codec =>
          cases codec
          dsimp only
          split
          · exact ⟨rfl, fun _ => rfl⟩
          · split
            · exact ⟨rfl, fun _ => rfl⟩
            · split
              · exact ⟨rfl, fun _ => rfl⟩
              · exact ⟨rfl, fun other => absurd rfl other⟩

/-- Cuts that show the same bytes behind the payload give the same outcome. They leave the same
bytes too, unless the payload cannot be read and lies in one chunk under only one of them. -/
theorem decode_of_overread {other : Buffer} (format : Format α) (same : buffer.bytes = other.bytes)
    (sight : overread buffer = overread other) :
    (format.decode buffer).1 = (format.decode other).1 ∧
      ((format.decode buffer).1 ≠ .error .malformedPayload ∨ isInPlace buffer = isInPlace other →
        (format.decode buffer).2.bytes = (format.decode other).2.bytes) := by
  have first := format.decode_outcome buffer
  have second := format.decode_outcome other
  rw [same, sight] at first
  obtain ⟨result, left⟩ :=
    format.outcome_inPlace (overread other) other.bytes (isInPlace buffer) (isInPlace other)
  rw [← first, ← second] at result left
  refine ⟨result, ?_⟩
  rintro (read | place)
  · exact left read
  · rw [place, ← second] at first
    exact congrArg Prod.snd first

/-- If a chunk ends with a payload, nothing behind the payload is handed to its reader. -/
theorem overread_of_ends {front others : List Bytes}
    (full : toldLength (.ofChunks (front ++ others)) ≠ 0)
    (ends : front.flatten.length = headLength + toldLength (.ofChunks (front ++ others))) :
    overread (.ofChunks (front ++ others)) = [] := by
  obtain ⟨payload, past, left⟩ := Buffer.advance_ofChunks_append others
    (show headLength ≤ front.flatten.length by omega)
  have length : payload.flatten.length = toldLength (.ofChunks (front ++ others)) := by
    rw [left, List.length_drop, ends, Nat.add_sub_cancel_left]
  have within := Buffer.chunk_ofChunks_append others
    (show payload.flatten ≠ [] from fun empty => full (by rw [← length, empty]; rfl))
  rw [overread, past]
  exact List.drop_eq_nil_of_le (length ▸ within.length_le)

theorem toldLength_of_encode {rest : Bytes} (storable : format.isStorable value = true)
    (bytes : buffer.bytes = format.encode value ++ rest) :
    toldLength buffer = (format.write value).length := by
  have short : (format.write value).length < Nat.pow 256 4 := of_decide_eq_true storable
  rw [toldLength, Buffer.take, Buffer.bytes_advance, bytes, encode, List.cons_append,
    List.drop_one, List.tail_cons, sized, List.append_assoc,
    List.take_left' (Bytes.littleEndian_length _ _)]
  exact Bytes.toNat_littleEndian short

/-- Behind a frame that shares no chunk with other bytes nothing is handed to its reader. -/
theorem overread_of_frame {front : List Bytes} (storable : format.isStorable value = true)
    (full : format.write value ≠ []) (frame : front.flatten = format.encode value)
    (others : List Bytes) : overread (.ofChunks (front ++ others)) = [] := by
  have bytes : (Buffer.ofChunks (front ++ others)).bytes =
      format.encode value ++ others.flatten := by
    rw [Buffer.bytes_ofChunks, List.flatten_append, frame]
  have told := toldLength_of_encode storable bytes
  apply overread_of_ends
  · rw [told]
    exact fun none => full (List.length_eq_zero_iff.mp none)
  · rw [told, frame, encode_length]

end Format

open Format

/-- A pool state is written where there is room for its frame and comes back from its frame however
this is cut, and no other state has the same frame. -/
theorem frame_survives_cuts (pool : PoolState) (storable : poolFormat.isStorable pool = true) :
    (∀ capacity, (poolFormat.encode pool).length ≤ capacity →
      poolFormat.encodeWithin capacity pool = (.ok (), poolFormat.encode pool)) ∧
    (∀ chunks : List Bytes, chunks.flatten = poolFormat.encode pool →
      poolFormat.decode (.ofChunks chunks) = (.ok pool, .ofChunks [])) ∧
    ∀ other, poolFormat.encode other = poolFormat.encode pool → other = pool := by
  refine ⟨fun _ room => encodeWithin_of_le storable room, ?_, ?_⟩
  · intro chunks frame
    have decoded := decode_parts storable (Shape.faithful_poolState.write_ne_nil storable) frame
      (Shape.faithful_poolState.read?_write storable) []
    rwa [List.append_nil] at decoded
  · intro other same
    exact eq_of_encode_eq (fun _ => Shape.faithful_poolState.read?_write) storable same

/-- A pool with a claim. -/
def claimedSample : PoolState := ⟨⟨"", "c", "", ":", ""⟩, 300, [⟨⟨"i"⟩, [⟨⟨"r"⟩, 5⟩]⟩]⟩

theorem claimedSample_storable : poolFormat.isStorable claimedSample = true := by decide +kernel

theorem frame_survives_cuts_inside :
    poolFormat.isStorable claimedSample = true ∧
    poolFormat.decode (.ofChunks
        [(poolFormat.encode claimedSample).take 3,
          ((poolFormat.encode claimedSample).drop 3).take 40,
          ((poolFormat.encode claimedSample).drop 3).drop 40]) =
      (.ok claimedSample, .ofChunks []) := by
  refine ⟨claimedSample_storable, (frame_survives_cuts _ claimedSample_storable).2.1 _ ?_⟩
  simp only [List.flatten_cons, List.flatten_nil, List.append_nil, List.take_append_drop]

/-- What decoding gives depends on the bytes and on what lies behind the payload in the payload's
chunk. It leaves the same bytes as well, unless the payload cannot be read: then it is left if it
lies in one chunk, and used up if it is cut. Nothing lies behind a payload with which a chunk
ends. -/
theorem cuts_show_behind_payload (chunks parts : List Bytes)
    (same : chunks.flatten = parts.flatten) :
    (overread (.ofChunks chunks) = overread (.ofChunks parts) →
      (poolFormat.decode (.ofChunks chunks)).1 = (poolFormat.decode (.ofChunks parts)).1 ∧
      ((poolFormat.decode (.ofChunks chunks)).1 ≠ .error .malformedPayload ∨
          isInPlace (.ofChunks chunks) = isInPlace (.ofChunks parts) →
        (poolFormat.decode (.ofChunks chunks)).2.remaining =
          (poolFormat.decode (.ofChunks parts)).2.remaining)) ∧
    ∀ front others, chunks = front ++ others → toldLength (.ofChunks chunks) ≠ 0 →
      front.flatten.length = headLength + toldLength (.ofChunks chunks) →
      overread (.ofChunks chunks) = [] := by
  have bytes : (Buffer.ofChunks chunks).bytes = (Buffer.ofChunks parts).bytes := by
    rw [Buffer.bytes_ofChunks, Buffer.bytes_ofChunks, same]
  refine ⟨?_, ?_⟩
  · intro sight
    obtain ⟨result, left⟩ := decode_of_overread poolFormat bytes sight
    exact ⟨result, fun known => congrArg List.length (left known)⟩
  · rintro front others rfl full ends
    exact overread_of_ends full ends

/-- Two frames in chunks of their own. -/
def apartSample : List Bytes :=
  [poolFormat.encode sampleStates[0]] ++ [poolFormat.encode sampleStates[1]]

/-- The same frames, the first one with a cut in its payload. -/
def splitSample : List Bytes :=
  [(poolFormat.encode sampleStates[0]).take 9, (poolFormat.encode sampleStates[0]).drop 9] ++
    [poolFormat.encode sampleStates[1]]

theorem cuts_show_behind_payload_apart :
    apartSample.flatten = splitSample.flatten ∧
    (poolFormat.decode (.ofChunks apartSample)).1 = (poolFormat.decode (.ofChunks splitSample)).1 ∧
    (poolFormat.decode (.ofChunks apartSample)).2.remaining =
      (poolFormat.decode (.ofChunks splitSample)).2.remaining := by
  have storable := sampleStates_storable sampleStates[0] List.mem_cons_self
  have full := Shape.faithful_poolState.write_ne_nil storable
  have whole : [poolFormat.encode sampleStates[0]].flatten = poolFormat.encode sampleStates[0] :=
    List.flatten_singleton
  have cut : [(poolFormat.encode sampleStates[0]).take 9,
      (poolFormat.encode sampleStates[0]).drop 9].flatten = poolFormat.encode sampleStates[0] := by
    rw [List.flatten_cons, List.flatten_singleton, List.take_append_drop]
  have same : apartSample.flatten = splitSample.flatten := by
    rw [apartSample, splitSample, List.flatten_append, List.flatten_append, whole, cut]
  have sight : overread (.ofChunks apartSample) = overread (.ofChunks splitSample) :=
    (overread_of_frame storable full whole _).trans (overread_of_frame storable full cut _).symm
  have read := decode_parts storable full whole (Shape.faithful_poolState.read?_write storable)
    [poolFormat.encode sampleStates[1]]
  have agree := (cuts_show_behind_payload apartSample splitSample same).1 sight
  refine ⟨same, agree.1, agree.2 (.inl ?_)⟩
  rw [apartSample, read]
  nofun

/-- Of two frames in one chunk the second is read first, and of frames in chunks of their own the
first. -/
theorem cut_changes_outcome : ¬ ∀ chunks parts : List Bytes,
    (∀ chunk ∈ chunks ++ parts, chunk ≠ []) → chunks.flatten = parts.flatten →
      (poolFormat.decode (.ofChunks chunks)).1 = (poolFormat.decode (.ofChunks parts)).1 ∧
      (poolFormat.decode (.ofChunks chunks)).2.remaining =
        (poolFormat.decode (.ofChunks parts)).2.remaining := by
  intro agree
  have storable := sampleStates_storable sampleStates[1] (by simp [sampleStates])
  have full := Shape.faithful_poolState.write_ne_nil storable
  let behind := poolFormat.stream [sampleStates[0]]
  have seen : poolFormat.read? (poolFormat.write sampleStates[1] ++ behind) =
      some sampleStates[0] :=
    Shape.faithful_poolState.read?_stream rfl
      (sampleStates_storable sampleStates[0] List.mem_cons_self)
  have ahead := decode_front storable full seen []
  have whole : [poolFormat.encode sampleStates[1]].flatten = poolFormat.encode sampleStates[1] :=
    List.flatten_singleton
  have apart := decode_parts storable full whole (Shape.faithful_poolState.read?_write storable)
    [behind]
  have wanted := (agree [poolFormat.encode sampleStates[1] ++ behind]
    ([poolFormat.encode sampleStates[1]] ++ [behind])
    (by simp [behind, Format.stream, encode]) (by simp)).1
  rw [ahead, apart] at wanted
  exact absurd (congrArg PoolState.available (Except.ok.inj wanted)) (by decide)

end Storage

end ClaimStore
