import ClaimStore.Proofs.Storage.Cuts
import Mathlib.Data.List.Infix

/-!
Reading within the bounds of a buffer.

Before anything is read from a buffer, it is made sure that the buffer holds as much. So a frame that
ends too early is refused for what it lacks, wherever it ends, and no read goes beyond the end. A frame
that is read is used up as far as its length word tells.
-/
namespace ClaimStore

/-- The next bytes and the buffer behind them. There is no such read beyond the end. -/
def Buffer.read? (buffer : Buffer) (count : Nat) : Option (Bytes × Buffer) :=
  if count ≤ buffer.remaining then some (buffer.take count, buffer.advance count) else none

theorem Buffer.read?_of_le {buffer : Buffer} {count : Nat} (within : count ≤ buffer.remaining) :
    buffer.read? count = some (buffer.take count, buffer.advance count) := if_pos within

namespace Storage

namespace Format

variable {α : Type} {format : Format α} {value : α} {buffer : Buffer}

/-! ### Reads that fail beyond the end -/

/-- Reads a payload of the given length. A chunk can be looked at as a whole. -/
def decodePayload? (format : Format α) (length : Nat) (buffer : Buffer) :
    Option (Except DecodeError α × Buffer) :=
  if length ≤ buffer.chunk.length then
    match format.read? buffer.chunk with
    | some value => (buffer.read? length).map fun (_, rest) => (.ok value, rest)
    | none => some (.error .malformedPayload, buffer)
  else
    (buffer.read? length).map fun (payload, rest) =>
      match format.read? payload with
      | some value => (.ok value, rest)
      | none => (.error .malformedPayload, rest)

def decodeSized? (format : Format α) (buffer : Buffer) : Option (Except DecodeError α × Buffer) :=
  if buffer.remaining < lengthBytes then some (.error .shortLength, buffer)
  else
    (buffer.read? lengthBytes).bind fun (word, rest) =>
      let length := Bytes.toNat word
      if rest.remaining < length then some (.error (.shortPayload length), rest)
      else format.decodePayload? length rest

/-- Reads a framed value as `decode` does, but fails if a read goes beyond the end. -/
def decode? (format : Format α) (buffer : Buffer) : Option (Except DecodeError α × Buffer) :=
  if buffer.remaining < 1 then some (.error .noCodec, buffer)
  else
    (buffer.read? 1).bind fun (codec, rest) =>
      codec.head?.bind fun byte =>
        match Codec.ofByte? byte with
        | none => some (.error (.unknownCodec byte), rest)
        | some .flexbuffers => format.decodeSized? rest

theorem decodePayload?_eq {length : Nat} (within : length ≤ buffer.remaining) :
    format.decodePayload? length buffer = some (format.decodePayload length buffer) := by
  unfold decodePayload? decodePayload
  rw [Buffer.read?_of_le within]
  split
  · cases format.read? buffer.chunk <;> rfl
  · cases read : format.read? (buffer.take length) <;> simp only [Option.map_some, read]

theorem decodeSized?_eq (format : Format α) (buffer : Buffer) :
    format.decodeSized? buffer = some (format.decodeSized buffer) := by
  unfold decodeSized? decodeSized
  by_cases short : buffer.remaining < lengthBytes
  · rw [if_pos short, if_pos short]
  · rw [if_neg short, if_neg short, Buffer.read?_of_le (Nat.le_of_not_lt short), Option.bind_some]
    dsimp only
    split
    · rfl
    · rename_i enough
      exact decodePayload?_eq (Nat.le_of_not_lt enough)

/-- No read goes beyond the end. -/
theorem decode?_eq (format : Format α) (buffer : Buffer) :
    format.decode? buffer = some (format.decode buffer) := by
  unfold decode? decode
  cases bytes : buffer.bytes with
  | nil => rw [Buffer.remaining, bytes, if_pos (by decide)]
  | cons byte rest =>
      have some : 1 ≤ buffer.remaining := by
        rw [Buffer.remaining, bytes]
        exact Nat.le_add_left _ _
      have first : buffer.take 1 = [byte] := by rw [Buffer.take, bytes]; rfl
      rw [if_neg (Nat.not_lt.mpr some), Buffer.read?_of_le some, Option.bind_some, first]
      dsimp only [List.head?_cons, Option.bind_some]
      cases Codec.ofByte? byte with
      | none => rfl
      | some codec =>
          cases codec
          exact format.decodeSized?_eq _

/-! ### Frames that end too early -/

/-- The length word of a frame tells the length of the payload, whether the payload is there or not. -/
theorem length_of_prefix {front : Bytes} (storable : format.isStorable value = true)
    (within : front <+: sized (format.write value)) (whole : lengthBytes ≤ front.length) :
    Bytes.toNat (front.take lengthBytes) = (format.write value).length := by
  have fits : (format.write value).length < Nat.pow 256 4 := of_decide_eq_true storable
  have length : (front.take lengthBytes).length = lengthBytes := List.length_take_of_le whole
  have word := within.take lengthBytes
  rw [sized, List.take_left' (Bytes.littleEndian_length _ _)] at word
  rw [word.eq_of_length (length.trans (Bytes.littleEndian_length _ _).symm)]
  exact Bytes.toNat_littleEndian fits

/-- A frame without its end is refused for the codec, for the length or for the payload, and the payload
is not even tried. -/
theorem decode_of_prefix (storable : format.isStorable value = true)
    (front : buffer.bytes <+: format.encode value) (short : buffer.bytes ≠ format.encode value) :
    ∃ error ∈ [.noCodec, .shortLength, .shortPayload (format.write value).length],
      (format.decode buffer).1 = .error error := by
  have result := congrArg Prod.fst (format.decode_outcome buffer)
  dsimp only at result
  rw [result]
  generalize overread buffer = behind
  generalize isInPlace buffer = inPlace
  cases bytes : buffer.bytes with
  | nil => exact ⟨.noCodec, by simp, rfl⟩
  | cons byte rest =>
      rw [bytes, encode] at front short
      obtain ⟨rfl, within⟩ := List.cons_prefix_cons.mp front
      have less : rest.length < (sized (format.write value)).length := by
        refine Nat.lt_of_le_of_ne within.length_le fun same => short ?_
        rw [within.eq_of_length same]
      rw [sized, List.length_append, Bytes.littleEndian_length] at less
      simp only [outcome, Codec.ofByte?_byte]
      by_cases cut : rest.length < lengthBytes
      · rw [if_pos cut]
        exact ⟨.shortLength, by simp, rfl⟩
      · have told := length_of_prefix storable within (Nat.le_of_not_lt cut)
        have lacking : (rest.drop lengthBytes).length < (format.write value).length := by
          rw [List.length_drop]
          omega
        rw [if_neg cut, told, if_pos lacking]
        exact ⟨.shortPayload _, by simp, rfl⟩

theorem encodeWithin_eq_ok {capacity : Nat} {frame : Bytes}
    (written : format.encodeWithin capacity value = (.ok (), frame)) :
    format.isStorable value = true ∧ frame = format.encode value := by
  unfold encodeWithin at written
  dsimp only at written
  split at written
  · cases written
  · split at written
    · cases written
    · split at written
      · cases written
      · rename_i storable
        cases written
        exact ⟨by simpa using storable, rfl⟩

/-! ### What is used up -/

/-- What is left is the end of what was there, and the frame of a value is used up by its length word. -/
theorem outcome_used (format : Format α) (behind : Bytes) (inPlace : Bool) (bytes : Bytes) :
    ∃ count ≤ bytes.length, (format.outcome behind inPlace bytes).2 = bytes.drop count ∧
      ∀ value, (format.outcome behind inPlace bytes).1 = .ok value →
        count = headLength + Bytes.toNat ((bytes.drop 1).take lengthBytes) := by
  have refused : ∀ {error : DecodeError} {P : Prop} (value : α),
      Except.error error = .ok value → P := by
    intro error P value accepted
    cases accepted
  cases bytes with
  | nil => exact ⟨0, Nat.le_refl 0, rfl, refused⟩
  | cons byte bytes =>
      have one : 1 ≤ (byte :: bytes).length := Nat.le_add_left _ _
      have past : bytes = (byte :: bytes).drop 1 := rfl
      simp only [outcome]
      cases Codec.ofByte? byte with
      | none => exact ⟨1, one, past, refused⟩
      | some codec =>
          cases codec
          dsimp only
          split
          · exact ⟨1, one, past, refused⟩
          · rename_i head
            have inside : headLength ≤ (byte :: bytes).length := by
              rw [headLength, List.length_cons]
              omega
            have body : bytes.drop lengthBytes = (byte :: bytes).drop headLength := by
              rw [headLength, Nat.add_comm, List.drop_succ_cons]
            split
            · exact ⟨headLength, inside, body, refused⟩
            · rename_i enough
              have all : headLength + Bytes.toNat (bytes.take lengthBytes) ≤
                  (byte :: bytes).length := by
                rw [headLength, List.length_cons]
                rw [List.length_drop] at enough
                omega
              have payload : (bytes.drop lengthBytes).drop (Bytes.toNat (bytes.take lengthBytes)) =
                  (byte :: bytes).drop (headLength + Bytes.toNat (bytes.take lengthBytes)) := by
                rw [body, List.drop_drop]
              split
              · exact ⟨_, all, payload, fun _ _ => rfl⟩
              · cases inPlace with
                | true => exact ⟨headLength, inside, body, refused⟩
                | false => exact ⟨_, all, payload, refused⟩

end Format

open Format

/-- A frame that has been written, and of which the end is missing, is refused however the rest is cut,
for the codec, the length or the payload that it lacks. Whatever a buffer holds and however it is cut,
no read goes beyond its end, what is left is the end of what was there, and a value uses up five bytes
and as many as the length word tells. -/
theorem decode_within_bounds :
    (∀ capacity pool frame, poolFormat.encodeWithin capacity pool = (.ok (), frame) →
      ∀ chunks : List Bytes, chunks.flatten <+: frame → chunks.flatten ≠ frame →
        ∃ error ∈ [.noCodec, .shortLength, .shortPayload (poolFormat.write pool).length],
          (poolFormat.decode (.ofChunks chunks)).1 = .error error) ∧
    ∀ chunks : List Bytes,
      poolFormat.decode? (.ofChunks chunks) = some (poolFormat.decode (.ofChunks chunks)) ∧
      ∃ count ≤ chunks.flatten.length,
        (poolFormat.decode (.ofChunks chunks)).2.bytes = chunks.flatten.drop count ∧
        ∀ pool, (poolFormat.decode (.ofChunks chunks)).1 = .ok pool →
          count = 5 + Bytes.toNat ((chunks.flatten.drop 1).take 4) := by
  constructor
  · intro capacity pool frame written chunks front short
    obtain ⟨storable, rfl⟩ := encodeWithin_eq_ok written
    rw [← Buffer.bytes_ofChunks] at front short
    exact decode_of_prefix storable front short
  · intro chunks
    refine ⟨poolFormat.decode?_eq _, ?_⟩
    have decoded := poolFormat.decode_outcome (.ofChunks chunks)
    rw [Buffer.bytes_ofChunks] at decoded
    obtain ⟨count, within, left, used⟩ := poolFormat.outcome_used (overread (.ofChunks chunks))
      (isInPlace (.ofChunks chunks)) chunks.flatten
    rw [← decoded] at left used
    exact ⟨count, within, left, used⟩

/-- A frame that is cut twice, the second time for good. -/
theorem decode_within_bounds_cut :
    poolFormat.encodeWithin 1000 claimedSample = (.ok (), poolFormat.encode claimedSample) ∧
    ∃ error ∈ [.noCodec, .shortLength, .shortPayload (poolFormat.write claimedSample).length],
      (poolFormat.decode (.ofChunks
        [(poolFormat.encode claimedSample).take 3,
          ((poolFormat.encode claimedSample).drop 3).take 40])).1 = .error error := by
  have written : poolFormat.encodeWithin 1000 claimedSample =
      (.ok (), poolFormat.encode claimedSample) :=
    encodeWithin_of_le claimedSample_storable (by decide +kernel)
  have whole : [(poolFormat.encode claimedSample).take 3,
      ((poolFormat.encode claimedSample).drop 3).take 40].flatten =
        (poolFormat.encode claimedSample).take 43 := by
    rw [List.flatten_cons, List.flatten_singleton, ← List.take_add]
  refine ⟨written, decode_within_bounds.1 _ _ _ written _ ?_ ?_⟩
  · rw [whole]
    exact List.take_prefix _ _
  · rw [whole]
    intro same
    have long : 43 < (poolFormat.encode claimedSample).length := by decide +kernel
    have kept := congrArg List.length same
    rw [List.length_take_of_le (Nat.le_of_lt long)] at kept
    omega

end Storage

end ClaimStore
