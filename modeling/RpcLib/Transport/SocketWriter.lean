import RpcLib.Transport.QueueConservation

/-!
# A writer on its socket

The socket takes the bytes of the `async_write` in progress some time before
the completion handler runs.  `SocketWriter` keeps the two apart.

* `Flowing`: while no write fails, what the socket has taken is what was popped
  and, between the transfer and its completion, the frame in progress.
-/

namespace RpcLib
namespace Transport

variable {Buf : Type} (mp : MsgPack Buf)

/-- A writer and its socket. -/
structure SocketWriter (Buf : Type) where
  writer : AsyncWriter Buf
  /-- The socket has taken all bytes of the write in progress, whose
  completion handler has not run. -/
  transferred : Bool
  /-- The frames that the socket has taken completely, in order. -/
  sent : List Buf

namespace SocketWriter

/-- A writer as its constructor leaves it, on an open socket. -/
def initial : SocketWriter Buf := ⟨.initial, false, []⟩

/-- What holds of every writer whose writes do not fail, closed or not. -/
structure Flowing (c : SocketWriter Buf) : Prop where
  accepted : c.writer.popped.map Prod.fst ++ c.writer.writeQueue =
    c.writer.accepted
  started : c.writer.popped.map Prod.fst ++ c.writer.outstanding =
    c.writer.started
  running : c.writer.outstanding = c.writer.writeQueue.take 1 ∨
    (c.writer.exit = true ∧ c.writer.outstanding = [])
  sent : c.sent = if c.transferred then c.writer.started
    else c.writer.popped.map Prod.fst
  inProgress : c.transferred = true → c.writer.outstanding ≠ []
  opened : c.writer.exit = false →
    c.writer.socketOpen = true ∧ c.writer.closing = 0

theorem Flowing.initial : Flowing (initial : SocketWriter Buf) :=
  ⟨rfl, rfl, Or.inl rfl, rfl, by simp [SocketWriter.initial],
    fun _ => ⟨rfl, rfl⟩⟩

namespace Flowing

variable {mp}

/-- A write in progress is the only one and writes the front. -/
theorem single {c : SocketWriter Buf} (h : Flowing c) {i : Nat}
    (hi : i < c.writer.outstanding.length) :
    i = 0 ∧ ∃ item rest, c.writer.writeQueue = item :: rest ∧
      c.writer.outstanding = [item] := by
  rcases h.running with htake | ⟨-, hnone⟩
  · cases hqueue : c.writer.writeQueue with
    | nil => simp [htake, hqueue] at hi
    | cons item rest =>
        have hsingle : c.writer.outstanding = [item] := by
          simp [htake, hqueue]
        exact ⟨by simpa [hsingle] using hi, item, rest, rfl, hsingle⟩
  · simp [hnone] at hi

theorem transfer {c : SocketWriter Buf} (h : Flowing c) {item : Buf}
    {rest : List Buf} (houtstanding : c.writer.outstanding = item :: rest)
    (hnot : c.transferred = false) :
    Flowing { c with transferred := true, sent := c.sent ++ [item] } := by
  have hsingle : c.writer.outstanding = [item] := by
    obtain ⟨-, item', -, -, hsingle⟩ :=
      h.single (i := 0) (by simp [houtstanding])
    rw [hsingle] at houtstanding
    obtain ⟨rfl, -⟩ := List.cons.inj houtstanding
    exact hsingle
  refine { h with sent := ?_, inProgress := fun _ => by simp [hsingle] }
  have hsent := h.sent
  rw [hnot, if_neg (by simp)] at hsent
  rw [if_pos rfl, ← h.started, hsent, hsingle]

theorem write {c : SocketWriter Buf} (h : Flowing c) (data : Buf) :
    Flowing { c with writer := (c.writer.write mp data).1 } := by
  cases hexit : c.writer.exit with
  | true => simpa [AsyncWriter.write_of_exit mp hexit] using h
  | false =>
      have hrunning : c.writer.outstanding = c.writer.writeQueue.take 1 := by
        rcases h.running with htake | ⟨hclosed, -⟩
        · exact htake
        · cases hexit.symm.trans hclosed
      by_cases hempty : c.writer.writeQueue = []
      · -- nothing was in progress, and this frame is started
        have hidle : c.writer.outstanding = [] := by simp [hrunning, hempty]
        have hnot : c.transferred = false := by
          by_contra htransferred
          exact h.inProgress (by simpa using htransferred) hidle
        rw [AsyncWriter.write_of_empty mp hexit hempty]
        refine ⟨?_, ?_, ?_, ?_, ?_, h.opened⟩
        · simp [← h.accepted, hempty]
        · simp [← h.started, hidle]
        · left
          simp [hidle]
        · simpa [hnot] using h.sent
        · simp [hnot]
      · rw [AsyncWriter.write_of_occupied mp hexit hempty]
        refine ⟨?_, h.started, ?_, h.sent, h.inProgress, h.opened⟩
        · simp [← h.accepted]
        · left
          obtain ⟨front, rest, hqueue⟩ := List.exists_cons_of_ne_nil hempty
          simp [hrunning, hqueue]

/-- The completion of a transferred frame pops it, and starts the next one
only while the writer is open. -/
theorem settled {c : SocketWriter Buf} (h : Flowing c) {i : Nat}
    (hi : i < c.writer.outstanding.length) (htransferred : c.transferred = true) :
    Flowing { c with
      writer := ((c.writer.taken i).popFront .success).continueWriting
      transferred := false } := by
  obtain ⟨rfl, item, rest, hqueue, hsingle⟩ := h.single hi
  have hsent : c.sent = c.writer.popped.map Prod.fst ++ [item] := by
    rw [h.sent, if_pos htransferred, ← h.started, hsingle]
  have hidle : (c.writer.taken 0).outstanding = [] := by
    simp [AsyncWriter.taken, hsingle]
  by_cases hrest : c.writer.exit = true ∨ rest = []
  · rw [AsyncWriter.continueWriting_popFront_of_rest (w := c.writer.taken 0)
      .success hqueue hrest]
    refine ⟨?_, ?_, ?_, ?_, by simp, h.opened⟩
    · simp [AsyncWriter.taken, ← h.accepted, hqueue]
    · simp [AsyncWriter.taken, ← h.started, hsingle]
    · rcases hrest with hexit | rfl
      · exact Or.inr ⟨hexit, hidle⟩
      · left
        simp [hidle]
    · simp [AsyncWriter.taken, hsent]
  · rw [not_or] at hrest
    obtain ⟨next, rest', rfl⟩ := List.exists_cons_of_ne_nil hrest.2
    have hopen : (c.writer.taken 0).exit = false := by
      simpa [AsyncWriter.taken] using hrest.1
    rw [AsyncWriter.continueWriting_popFront_of_next .success hopen hqueue]
    refine ⟨?_, ?_, ?_, ?_, by simp, h.opened⟩
    · simp [AsyncWriter.taken, ← h.accepted, hqueue]
    · simp [AsyncWriter.taken, ← h.started, hsingle]
    · left
      simp [hidle]
    · simp [AsyncWriter.taken, hsent]

end Flowing
end SocketWriter
end Transport
end RpcLib
