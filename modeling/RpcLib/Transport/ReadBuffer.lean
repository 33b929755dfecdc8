import RpcLib.Foundation.TransitionSystem
import RpcLib.Transport.AsyncWriter

/-!
# The buffer that a connection reads into

The client and a session read in the same way: `async_read_some` writes at most
`max_read_bytes` bytes into the free part of the unpacker's buffer, and the
completion handler takes the messages out and makes room before it reads again.
`ReadBuffer` is an unpacker with the reads into its buffer; the two handlers
that work on it are with the client and with the session.

Of the unpacker only one thing is used: `reserve_buffer(n)` leaves at least `n`
bytes free.  What `buffer_consumed` and `next` do to the free part is left
open.
-/

namespace RpcLib
namespace Transport

/-- `Constants::DEFAULT_BUFFER_SIZE`, which both handlers read at most. -/
def defaultBufferSize : Nat := 1024 <<< 10

/-- `msgpack::unpacker` as far as the size of its buffer goes. -/
structure Unpacker (U : Type) where
  /-- A new unpacker. -/
  init : U
  /-- `buffer_capacity`, the free bytes. -/
  bufferCapacity : U → Nat
  reserveBuffer : U → Nat → U
  bufferConsumed : U → Nat → U
  /-- A call of `next`. -/
  next : U → U
  capacity_reserve : ∀ u n, n ≤ bufferCapacity (reserveBuffer u n)

/-- One call of `async_read_some`: how many reads are in progress with it, and
how many bytes the buffer has free. -/
structure Issue where
  reading : Nat
  capacity : Nat

/-- The unpacker of a connection.  `issued` is history. -/
structure ReadBuffer (U : Type) where
  unpac : U
  /-- The `async_read_some` operations in progress. -/
  reading : Nat
  issued : List Issue

namespace ReadBuffer

variable {U : Type} (unpacker : Unpacker U)

/-- The buffer after the constructor of the client or of the session. -/
def constructed : ReadBuffer U :=
  ⟨unpacker.reserveBuffer unpacker.init defaultBufferSize, 0, []⟩

/-- `async_read_some` into `unpac_.buffer()`. -/
def asyncReadSome (b : ReadBuffer U) : ReadBuffer U :=
  { b with
    reading := b.reading + 1
    issued := b.issued ++
      [⟨b.reading + 1, unpacker.bufferCapacity b.unpac⟩] }

/-- A read has come to its end. -/
def completed (b : ReadBuffer U) : ReadBuffer U :=
  { b with reading := b.reading - 1 }

def bufferConsumed (b : ReadBuffer U) (length : Nat) : ReadBuffer U :=
  { b with unpac := unpacker.bufferConsumed b.unpac length }

def next (b : ReadBuffer U) : ReadBuffer U :=
  { b with unpac := unpacker.next b.unpac }

/-- The resizing strategy of both handlers. -/
def makeRoom (b : ReadBuffer U) : ReadBuffer U :=
  if unpacker.bufferCapacity b.unpac < defaultBufferSize then
    { b with unpac := unpacker.reserveBuffer b.unpac defaultBufferSize }
  else b

/-- At every `async_read_some` that was called it is the only read in progress
and there is room for all that it may read, and both still hold. -/
structure Safe (b : ReadBuffer U) : Prop where
  issued : ∀ issue ∈ b.issued,
    issue.reading ≤ 1 ∧ defaultBufferSize ≤ issue.capacity
  reading : b.reading ≤ 1
  room : 0 < b.reading → defaultBufferSize ≤ unpacker.bufferCapacity b.unpac

theorem makeRoom_frame (b : ReadBuffer U) :
    (b.makeRoom unpacker).reading = b.reading ∧
      (b.makeRoom unpacker).issued = b.issued := by
  unfold makeRoom
  split <;> exact ⟨rfl, rfl⟩

/-- Making room and reading again is one more read. -/
theorem readAgain_issued (b : ReadBuffer U) :
    ∃ issue, ((b.makeRoom unpacker).asyncReadSome unpacker).issued =
      b.issued ++ [issue] := by
  have hissued := (makeRoom_frame unpacker b).2
  refine ⟨⟨(b.makeRoom unpacker).reading + 1,
    unpacker.bufferCapacity (b.makeRoom unpacker).unpac⟩, ?_⟩
  rw [← hissued]
  rfl

theorem le_capacity_makeRoom (b : ReadBuffer U) :
    defaultBufferSize ≤
      unpacker.bufferCapacity (b.makeRoom unpacker).unpac := by
  unfold makeRoom
  split
  · exact unpacker.capacity_reserve _ _
  · rename_i hroom
    exact Nat.le_of_not_lt hroom

namespace Safe

variable {unpacker}

theorem constructed : Safe unpacker (constructed unpacker) :=
  ⟨fun _ hmem => absurd hmem List.not_mem_nil, Nat.zero_le 1,
    fun _ => unpacker.capacity_reserve _ _⟩

/-- A read into a buffer with room that nothing else is read into. -/
theorem asyncReadSome {b : ReadBuffer U} (h : Safe unpacker b)
    (hnone : b.reading = 0)
    (hroom : defaultBufferSize ≤ unpacker.bufferCapacity b.unpac) :
    Safe unpacker (b.asyncReadSome unpacker) := by
  have hone : b.reading + 1 ≤ 1 := by omega
  -- the new read is the last one issued, and the only one in progress
  refine ⟨fun issue hmem => ?_, hone, fun _ => hroom⟩
  rcases List.mem_append.mp hmem with hold | hnew
  · exact h.issued issue hold
  · obtain rfl := List.mem_singleton.mp hnew
    exact ⟨hone, hroom⟩

/-- While no read is in progress the unpacker may change. -/
theorem of_idle {b b' : ReadBuffer U} (h : Safe unpacker b)
    (hissued : b'.issued = b.issued) (hnone : b'.reading = 0) :
    Safe unpacker b' := by
  refine ⟨hissued ▸ h.issued, by omega, fun hsome => ?_⟩
  omega

/-- The end of the only read leaves none. -/
theorem completed_reading {b : ReadBuffer U} (h : Safe unpacker b) :
    b.completed.reading = 0 := by
  have hone := h.reading
  show b.reading - 1 = 0
  omega

/-- A handler that makes room before it reads again. -/
theorem readAgain {b b' : ReadBuffer U} (h : Safe unpacker b)
    (hissued : b'.issued = b.issued) (hnone : b'.reading = 0) :
    Safe unpacker ((b'.makeRoom unpacker).asyncReadSome unpacker) := by
  obtain ⟨hreading, hsame⟩ := makeRoom_frame unpacker b'
  have hroom := le_capacity_makeRoom unpacker b'
  exact (h.of_idle (hsame.trans hissued) (hreading.trans hnone)).asyncReadSome
    (hreading.trans hnone) hroom

end Safe
end ReadBuffer
end Transport
end RpcLib
