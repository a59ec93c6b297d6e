import ClaimStore.Proofs.Storage.Shapes

/-!
Streams of frames.

Frames are written one after the other and read by one call each. Every call uses up its own frame.
Which value it gives depends on the chunks: a payload is searched from the end of what is handed
over, and in place this is the end of the chunk. So frames in chunks of their own come back in
order, and from a single chunk every call gives the last value.
-/
namespace ClaimStore.Storage

namespace Format

variable {α : Type}

/-- The frames of the values, one after the other. -/
def stream (format : Format α) (values : List α) : Bytes := values.flatMap format.encode

/-- What calls on one buffer give, one after the other, each with the bytes that it leaves. -/
def calls (format : Format α) : (count : Nat) → Buffer → List (Except DecodeError α × Bytes)
  | 0, _ => []
  | count + 1, buffer =>
      let (outcome, rest) := format.decode buffer
      (outcome, rest.bytes) :: format.calls count rest

theorem calls_of_decode {format : Format α} {buffer rest : Buffer} {outcome : Except DecodeError α}
    (decoded : format.decode buffer = (outcome, rest)) (count : Nat) :
    format.calls (count + 1) buffer = (outcome, rest.bytes) :: format.calls count rest := by
  rw [calls, decoded]

end Format

namespace Shape

variable {α : Type} {shape : Shape α} {value last : α} {values : List α}

/-- The payload at the front of a stream is hidden by the last one. -/
theorem Faithful.read?_stream (faithful : shape.Faithful)
    (ends : (value :: values).getLast? = some last)
    (storable : shape.format.isStorable last = true) :
    shape.format.read? (shape.format.write value ++ shape.format.stream values) = some last := by
  rcases values.eq_nil_or_concat with rfl | ⟨front, final, rfl⟩
  · cases ends
    exact faithful.read?_behind storable [] ▸ congrArg shape.format.read? (List.append_nil _)
  · rw [List.concat_eq_append, ← List.cons_append, List.getLast?_concat] at ends
    cases ends
    have behind := faithful.read?_behind storable (shape.format.write value ++
      shape.format.stream front ++ Codec.flexbuffers.byte ::
        Bytes.littleEndian lengthBytes (shape.format.write last).length)
    simpa [Format.stream, Format.encode, sized] using behind

/-- From a single chunk every call gives the last value. -/
theorem Faithful.calls_contiguous (faithful : shape.Faithful)
    (storable : ∀ value ∈ values, shape.format.isStorable value = true)
    (ends : values.getLast? = some last) {index : Nat} (within : index < values.length) :
    (shape.format.calls values.length (.ofChunks [shape.format.stream values]))[index]? =
      some (.ok last, shape.format.stream (values.drop (index + 1))) := by
  induction values generalizing index with
  | nil => contradiction
  | cons value rest ih =>
      have own := storable value List.mem_cons_self
      have read := faithful.read?_stream ends (storable last (List.mem_of_getLast? ends))
      have decoded := Format.decode_front own (faithful.write_ne_nil own) read []
      have bytes : (Buffer.ofChunks [shape.format.stream rest]).bytes =
          shape.format.stream rest := by
        rw [Buffer.bytes_ofChunks, List.flatten_singleton]
      rw [Format.stream, List.flatMap_cons, ← Format.stream, List.length_cons,
        Format.calls_of_decode decoded, bytes]
      cases index with
      | zero => rfl
      | succ index =>
          rw [List.length_cons, Nat.succ_lt_succ_iff] at within
          obtain ⟨final, ends'⟩ : ∃ final, rest.getLast? = some final := by
            cases rest with
            | nil => contradiction
            | cons next more => exact ⟨_, List.getLast?_cons⟩
          have same : final = last := by
            rw [List.getLast?_cons, ends'] at ends
            exact Option.some.inj ends
          subst same
          exact ih (fun value member => storable value (List.mem_cons_of_mem _ member)) ends' within

/-- From chunks of their own, however cut, the values come back in order. -/
theorem Faithful.calls_separate (faithful : shape.Faithful)
    (storable : ∀ value ∈ values, shape.format.isStorable value = true) {parts : List (List Bytes)}
    (cut : parts.map List.flatten = values.map shape.format.encode) {index : Nat}
    (found : values[index]? = some value) :
    (shape.format.calls values.length (.ofChunks parts.flatten))[index]? =
      some (.ok value, shape.format.stream (values.drop (index + 1))) := by
  induction values generalizing parts index with
  | nil => contradiction
  | cons first rest ih =>
      obtain ⟨part, others, rfl, frame, cut⟩ := List.map_eq_cons_iff.mp cut
      have own := storable first List.mem_cons_self
      have decoded := Format.decode_parts own (faithful.write_ne_nil own) frame
        (faithful.read?_write own) others.flatten
      have bytes : (Buffer.ofChunks others.flatten).bytes = shape.format.stream rest := by
        rw [Buffer.bytes_ofChunks, List.flatten_flatten, cut, Format.stream, List.flatMap_def]
      rw [List.flatten_cons, List.length_cons, Format.calls_of_decode decoded, bytes]
      cases index with
      | zero =>
          cases found
          rfl
      | succ index =>
          exact ih (fun value member => storable value (List.mem_cons_of_mem _ member)) cut found

end Shape

/-- Whatever states are written one after the other, every call uses up its own frame. From chunks
of their own the states come back in order; from a single chunk every call gives the last state. -/
theorem stream_uses_up_frames (pools : List PoolState)
    (storable : ∀ pool ∈ pools, poolFormat.isStorable pool = true) :
    (∀ parts : List (List Bytes), parts.map List.flatten = pools.map poolFormat.encode →
      ∀ index pool, pools[index]? = some pool →
        (poolFormat.calls pools.length (.ofChunks parts.flatten))[index]? =
          some (.ok pool, poolFormat.stream (pools.drop (index + 1)))) ∧
    ∀ last, pools.getLast? = some last → ∀ index, index < pools.length →
      (poolFormat.calls pools.length (.ofChunks [poolFormat.stream pools]))[index]? =
        some (.ok last, poolFormat.stream (pools.drop (index + 1))) :=
  ⟨fun _ cut _ _ found => Shape.faithful_poolState.calls_separate storable cut found,
    fun _ ends _ within => Shape.faithful_poolState.calls_contiguous storable ends within⟩

/-- A pool with units, and the same pool without. -/
def sampleStates : List PoolState :=
  [⟨⟨"holder", "coin", "issuer", "notary", "USD"⟩, 5, []⟩,
    ⟨⟨"holder", "coin", "issuer", "notary", "USD"⟩, 0, []⟩]

theorem sampleStates_storable : ∀ pool ∈ sampleStates, poolFormat.isStorable pool = true := by
  decide +kernel

theorem stream_uses_up_frames_two :
    (∀ pool ∈ sampleStates, poolFormat.isStorable pool = true) ∧
    (poolFormat.calls 2 (.ofChunks (sampleStates.map fun pool =>
        [(poolFormat.encode pool).take 9, (poolFormat.encode pool).drop 9]).flatten))[0]? =
      some (.ok sampleStates[0], poolFormat.stream (sampleStates.drop 1)) ∧
    (poolFormat.calls 2 (.ofChunks [poolFormat.stream sampleStates]))[0]? =
      some (.ok sampleStates[1], poolFormat.stream (sampleStates.drop 1)) := by
  have reads := stream_uses_up_frames sampleStates sampleStates_storable
  refine ⟨sampleStates_storable, ?_, reads.2 _ rfl 0 (by decide)⟩
  refine reads.1 _ ?_ 0 _ rfl
  rw [List.map_map]
  exact List.map_congr_left fun pool _ => by simp

/-- The first of two different states does not come back from a single chunk. -/
theorem stream_hides_states : ¬ ∀ pools : List PoolState,
    (∀ pool ∈ pools, poolFormat.isStorable pool = true) → ∀ index pool, pools[index]? = some pool →
      (poolFormat.calls pools.length (.ofChunks [poolFormat.stream pools]))[index]? =
        some (.ok pool, poolFormat.stream (pools.drop (index + 1))) := by
  intro readBack
  have wanted := readBack sampleStates sampleStates_storable 0 _ rfl
  have read := Shape.faithful_poolState.calls_contiguous sampleStates_storable rfl
    (show 0 < sampleStates.length by decide)
  have same := Except.ok.inj (Prod.mk.inj (Option.some.inj (read.symm.trans wanted))).1
  exact absurd (congrArg PoolState.available same) (by decide)

end ClaimStore.Storage
