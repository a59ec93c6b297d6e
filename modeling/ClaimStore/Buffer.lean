import ClaimStore.Bytes

/-!
Bytes that arrive in chunks.

A buffer is read from the front. What it holds is the concatenation of its chunks; where one chunk
ends and the next begins shows only in `chunk`, the part that can be looked at without copying.
-/
namespace ClaimStore

structure Buffer where
  chunks : List Bytes
  deriving DecidableEq, Inhabited

namespace Buffer

/-- The buffer made of the given chunks, without the empty ones. -/
def ofChunks (chunks : List Bytes) : Buffer := ⟨chunks.filter fun chunk => !chunk.isEmpty⟩

def bytes (buffer : Buffer) : Bytes := buffer.chunks.flatten

def remaining (buffer : Buffer) : Nat := buffer.bytes.length

def chunk (buffer : Buffer) : Bytes :=
  (buffer.chunks.find? fun chunk => !chunk.isEmpty).getD []

/-- Drops `count` bytes from chunks. -/
def dropChunks (count : Nat) : List Bytes → List Bytes
  | [] => []
  | chunk :: rest =>
      if count < chunk.length then chunk.drop count :: rest
      else dropChunks (count - chunk.length) rest

/-- The buffer after reading `count` bytes. -/
def advance (buffer : Buffer) (count : Nat) : Buffer := ⟨dropChunks count buffer.chunks⟩

/-- The next `count` bytes, across chunks. -/
def take (buffer : Buffer) (count : Nat) : Bytes := buffer.bytes.take count

theorem dropChunks_flatten (count : Nat) (chunks : List Bytes) :
    (dropChunks count chunks).flatten = chunks.flatten.drop count := by
  induction chunks generalizing count with
  | nil => simp [dropChunks]
  | cons chunk rest ih =>
      by_cases within : count < chunk.length
      · simp [dropChunks, within, List.drop_append_of_le_length (Nat.le_of_lt within)]
      · simp [dropChunks, within, ih, List.drop_append,
          List.drop_eq_nil_of_le (Nat.le_of_not_lt within)]

@[simp]
theorem bytes_advance (buffer : Buffer) (count : Nat) :
    (buffer.advance count).bytes = buffer.bytes.drop count :=
  dropChunks_flatten count buffer.chunks

@[simp]
theorem bytes_ofChunks (chunks : List Bytes) : (ofChunks chunks).bytes = chunks.flatten := by
  induction chunks with
  | nil => rfl
  | cons chunk rest ih =>
      cases chunk with
      | nil => simpa [ofChunks, bytes] using ih
      | cons byte chunk => simpa [ofChunks, bytes] using ih

theorem chunk_prefix (buffer : Buffer) : ∃ rest, buffer.bytes = buffer.chunk ++ rest := by
  obtain ⟨chunks⟩ := buffer
  induction chunks with
  | nil => exact ⟨[], rfl⟩
  | cons chunk rest ih =>
      cases chunk with
      | nil => simpa [bytes, chunk] using ih
      | cons byte chunk => exact ⟨rest.flatten, by simp [bytes, Buffer.chunk]⟩

end Buffer

end ClaimStore
