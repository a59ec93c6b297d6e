import ClaimStore.Storage.Frame

/-!
Frames in chunks.

The length of a payload stands before it, so a frame is used up exactly, whatever follows it and
however it is cut into chunks. What is read from it is another matter: a payload that lies in one
chunk is read together with the bytes behind it in that chunk.
-/
namespace ClaimStore

namespace Buffer

theorem dropChunks_zero {chunks : List Bytes} (full : ∀ chunk ∈ chunks, chunk ≠ []) :
    dropChunks 0 chunks = chunks := by
  cases chunks with
  | nil => rfl
  | cons chunk rest =>
      have within : 0 < chunk.length := List.length_pos_iff.mpr (full chunk List.mem_cons_self)
      simp [dropChunks, within]

theorem ofChunks_cons {chunk : Bytes} (full : chunk ≠ []) (chunks : List Bytes) :
    ofChunks (chunk :: chunks) = ⟨chunk :: (ofChunks chunks).chunks⟩ := by
  simp [ofChunks, full]

theorem chunk_ofChunks {chunk : Bytes} (full : chunk ≠ []) (chunks : List Bytes) :
    (ofChunks (chunk :: chunks)).chunk = chunk := by
  simp [ofChunks_cons full, Buffer.chunk, full]

theorem dropChunks_dropChunks (first second : Nat) (chunks : List Bytes) :
    dropChunks second (dropChunks first chunks) = dropChunks (first + second) chunks := by
  induction chunks generalizing first with
  | nil => rfl
  | cons chunk rest ih =>
      by_cases within : first < chunk.length
      · by_cases further : first + second < chunk.length
        · have second' : second < (chunk.drop first).length := by
            rw [List.length_drop]
            omega
          rw [dropChunks, if_pos within, dropChunks, if_pos second', dropChunks, if_pos further,
            List.drop_drop]
        · have beyond : ¬ second < (chunk.drop first).length := by
            rw [List.length_drop]
            omega
          have same : second - (chunk.drop first).length = first + second - chunk.length := by
            rw [List.length_drop]
            omega
          rw [dropChunks, if_pos within, dropChunks, if_neg beyond, same, dropChunks,
            if_neg further]
      · have further : ¬ first + second < chunk.length := by omega
        have same : first - chunk.length + second = first + second - chunk.length := by omega
        rw [dropChunks, if_neg within, ih, same, dropChunks, if_neg further]

theorem advance_advance (buffer : Buffer) (first second : Nat) :
    (buffer.advance first).advance second = buffer.advance (first + second) :=
  congrArg Buffer.mk (dropChunks_dropChunks first second buffer.chunks)

theorem ofChunks_append_of_empty {part : List Bytes} (empty : part.flatten = [])
    (others : List Bytes) : ofChunks (part ++ others) = ofChunks others := by
  have none : part.filter (fun chunk => !chunk.isEmpty) = [] := by
    rw [List.filter_eq_nil_iff]
    intro chunk member
    simp [List.flatten_eq_nil_iff.mp empty chunk member]
  rw [ofChunks, List.filter_append, none, List.nil_append]
  rfl

/-- A buffer is advanced over the front of its first chunk without touching anything behind it. -/
theorem advance_ofChunks (front rest : Bytes) (chunks : List Bytes) :
    (ofChunks ((front ++ rest) :: chunks)).advance front.length = ofChunks (rest :: chunks) := by
  have others : dropChunks 0 (ofChunks chunks).chunks = (ofChunks chunks).chunks :=
    dropChunks_zero fun chunk member => by simpa using (List.mem_filter.mp member).2
  by_cases empty : front ++ rest = []
  · obtain ⟨rfl, rfl⟩ := List.append_eq_nil_iff.mp empty
    exact congrArg Buffer.mk others
  · rw [ofChunks_cons empty, advance, dropChunks]
    by_cases more : rest = []
    · subst more
      rw [List.append_nil, if_neg (Nat.lt_irrefl _), Nat.sub_self, others]
      rfl
    · have within : front.length < (front ++ rest).length := by
        rw [List.length_append]
        exact Nat.lt_add_of_pos_right (List.length_pos_iff.mpr more)
      rw [if_pos within, List.drop_left, ofChunks_cons more]

/-- A buffer is advanced within its first chunks without touching the others. -/
theorem advance_ofChunks_append {part : List Bytes} (others : List Bytes) {count : Nat}
    (within : count ≤ part.flatten.length) :
    ∃ rest, (ofChunks (part ++ others)).advance count = ofChunks (rest ++ others) ∧
      rest.flatten = part.flatten.drop count := by
  induction part generalizing count with
  | nil =>
      cases Nat.le_zero.mp within
      exact ⟨[], advance_ofChunks [] [] others, rfl⟩
  | cons chunk more ih =>
      by_cases first : count ≤ chunk.length
      · have beyond := advance_ofChunks (chunk.take count) (chunk.drop count) (more ++ others)
        rw [List.take_append_drop, List.length_take_of_le first] at beyond
        refine ⟨chunk.drop count :: more, beyond, ?_⟩
        rw [List.flatten_cons, List.flatten_cons, List.drop_append_of_le_length first]
      · have total : (chunk :: more).flatten.length = chunk.length + more.flatten.length := by
          rw [List.flatten_cons, List.length_append]
        have later : count - chunk.length ≤ more.flatten.length := by omega
        obtain ⟨rest, beyond, left⟩ := ih later
        have past := advance_ofChunks chunk [] (more ++ others)
        have whole : count = chunk.length + (count - chunk.length) := by omega
        rw [List.append_nil] at past
        refine ⟨rest, ?_, ?_⟩
        · rw [whole, ← advance_advance, List.cons_append, past]
          exact beyond
        · have passed : chunk.drop count = [] := List.drop_eq_nil_of_le (by omega)
          rw [left, List.flatten_cons, List.drop_append, passed, List.nil_append]

/-- What can be looked at in a buffer belongs to its first chunks, if they hold anything. -/
theorem chunk_ofChunks_append {part : List Bytes} (others : List Bytes) (full : part.flatten ≠ []) :
    (ofChunks (part ++ others)).chunk <+: part.flatten := by
  induction part with
  | nil => contradiction
  | cons chunk more ih =>
      cases chunk with
      | nil => exact ih full
      | cons byte chunk =>
          rw [List.cons_append, chunk_ofChunks (List.cons_ne_nil _ _)]
          exact List.prefix_append _ _

end Buffer

namespace Storage

namespace Format

variable {α : Type} {format : Format α} {value found : α}

/-- The codec byte and the length word before a payload. -/
def headLength : Nat := 1 + lengthBytes

theorem encode_length (value : α) :
    (format.encode value).length = headLength + (format.write value).length := by
  simp only [encode, sized, List.length_cons, List.length_append, Bytes.littleEndian_length,
    headLength]
  omega

/-- A frame at the front of a buffer is used up exactly. It gives the value that is found in its
payload, or in all of the chunk that the payload lies in. -/
theorem decode_frame {buffer : Buffer} {rest : Bytes} (storable : format.isStorable value = true)
    (bytes : buffer.bytes = format.encode value ++ rest)
    (inPlace : (format.write value).length ≤ (buffer.advance headLength).chunk.length →
      format.read? (buffer.advance headLength).chunk = some found)
    (copied : (buffer.advance headLength).chunk.length < (format.write value).length →
      format.read? (format.write value) = some found) :
    format.decode buffer = (.ok found, buffer.advance (format.encode value).length) := by
  have short : (format.write value).length < Nat.pow 256 4 := of_decide_eq_true storable
  have told := Bytes.toNat_littleEndian short
  have head : (Bytes.littleEndian lengthBytes (format.write value).length).length = lengthBytes :=
    Bytes.littleEndian_length _ _
  have afterCodec : (buffer.advance 1).bytes = sized (format.write value) ++ rest := by
    rw [Buffer.bytes_advance, bytes]
    rfl
  have afterHead : (buffer.advance headLength).bytes = format.write value ++ rest := by
    rw [headLength, ← Buffer.advance_advance, Buffer.bytes_advance, afterCodec, sized,
      List.append_assoc, List.drop_left' head]
  have length : Bytes.toNat ((buffer.advance 1).take lengthBytes) =
      (format.write value).length := by
    rw [Buffer.take, afterCodec, sized, List.append_assoc, List.take_left' head]
    exact told
  have enough : ¬ (buffer.advance 1).remaining < lengthBytes := by
    simp only [Buffer.remaining, afterCodec, sized, List.length_append, head]
    omega
  have inside : ¬ (buffer.advance headLength).remaining < (format.write value).length := by
    simp only [Buffer.remaining, afterHead, List.length_append]
    omega
  have payload : format.decodePayload (format.write value).length (buffer.advance headLength) =
      (.ok found, buffer.advance (format.encode value).length) := by
    rw [encode_length, ← Buffer.advance_advance]
    unfold decodePayload
    split
    · rename_i fits
      rw [inPlace fits]
    · rename_i cut
      have copy : (buffer.advance headLength).take (format.write value).length =
          format.write value := by
        rw [Buffer.take, afterHead, List.take_left]
      rw [copy, copied (Nat.lt_of_not_le cut)]
  unfold decode
  rw [bytes, encode, List.cons_append]
  simp only [Codec.ofByte?_byte, decodeSized, if_neg enough, length, Buffer.advance_advance]
  rw [← headLength, if_neg inside]
  exact payload

/-- A frame that shares no chunk with other bytes is read by itself, however it is cut. -/
theorem decode_parts {part : List Bytes} (storable : format.isStorable value = true)
    (full : format.write value ≠ []) (frame : part.flatten = format.encode value)
    (back : format.read? (format.write value) = some value) (others : List Bytes) :
    format.decode (.ofChunks (part ++ others)) = (.ok value, .ofChunks others) := by
  have length : part.flatten.length = headLength + (format.write value).length := by
    rw [frame, encode_length]
  obtain ⟨payload, atPayload, left⟩ := Buffer.advance_ofChunks_append others
    (show headLength ≤ part.flatten.length by omega)
  have held : payload.flatten = format.write value := by
    rw [left, frame, encode, sized]
    exact List.drop_left' (Bytes.littleEndian_length _ _)
  have seen := Buffer.chunk_ofChunks_append others (held ▸ full)
  rw [held, ← atPayload] at seen
  have bytes : (Buffer.ofChunks (part ++ others)).bytes =
      format.encode value ++ others.flatten := by
    rw [Buffer.bytes_ofChunks, List.flatten_append, frame]
  have decoded : format.decode (.ofChunks (part ++ others)) =
      (.ok value, (Buffer.ofChunks (part ++ others)).advance (format.encode value).length) := by
    refine decode_frame storable bytes ?_ fun _ => back
    intro fits
    rwa [seen.eq_of_length_le fits]
  obtain ⟨nothing, behind, empty⟩ := Buffer.advance_ofChunks_append others
    (show (format.encode value).length ≤ part.flatten.length from Nat.le_of_eq (by rw [frame]))
  rw [frame, List.drop_length] at empty
  rw [decoded, behind, Buffer.ofChunks_append_of_empty empty]

/-- A frame at the front of a chunk is read together with the rest of the chunk. -/
theorem decode_front {rest : Bytes} (storable : format.isStorable value = true)
    (full : format.write value ≠ [])
    (read : format.read? (format.write value ++ rest) = some found) (others : List Bytes) :
    format.decode (.ofChunks ((format.encode value ++ rest) :: others)) =
      (.ok found, .ofChunks (rest :: others)) := by
  have head : (format.encode value).take headLength ++ format.write value =
      format.encode value := by
    have length : (Bytes.littleEndian lengthBytes (format.write value).length).length =
        lengthBytes := Bytes.littleEndian_length _ _
    simp [encode, sized, headLength, Nat.add_comm 1, List.take_left' length]
  have bytes : (Buffer.ofChunks ((format.encode value ++ rest) :: others)).bytes =
      format.encode value ++ (rest ++ others.flatten) := by
    rw [Buffer.bytes_ofChunks, List.flatten_cons, List.append_assoc]
  have seen : ((Buffer.ofChunks ((format.encode value ++ rest) :: others)).advance
      headLength).chunk = format.write value ++ rest := by
    have past := Buffer.advance_ofChunks ((format.encode value).take headLength)
      (format.write value ++ rest) others
    rw [← List.append_assoc, head, List.length_take_of_le (by rw [encode_length]; omega)] at past
    rw [past, Buffer.chunk_ofChunks (List.append_ne_nil_of_left_ne_nil full rest)]
  have decoded : format.decode (.ofChunks ((format.encode value ++ rest) :: others)) =
      (.ok found, (Buffer.ofChunks ((format.encode value ++ rest) :: others)).advance
        (format.encode value).length) := by
    refine decode_frame storable bytes ?_ ?_
    · intro _
      rw [seen]
      exact read
    · intro cut
      rw [seen, List.length_append] at cut
      omega
  rw [decoded, Buffer.advance_ofChunks]

end Format

end Storage

end ClaimStore
