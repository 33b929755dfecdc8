import Mathlib.Logic.Relation
import RpcLib.Transport.WriterProgress

/-!
# What every handler does to a writer

`Move` lists the functions of a writer without the conditions under which they
are called, so that whoever embeds a writer in something larger has one case
for each of them.  A move keeps the ledger, only adds to what was accepted and
started, and leaves a closed writer as it is apart from its queue.

`Moves` is any number of moves of one handler.  `Moves.notWedged`: the writer
keeps going as long as no write fails; `Unstarted`: up to its first write it
has nothing to do.
-/

namespace RpcLib
namespace Transport
namespace AsyncWriter

open Foundation TransitionSystem

variable {Buf : Type} (mp : MsgPack Buf)

/-- What a handler of the write strand can do to the writer, when a write can
come to its end with the error codes `ends`. -/
inductive Move (ends : ErrorCode → Prop) (w : AsyncWriter Buf) :
    AsyncWriter Buf → Prop
  | kept : Move ends w w
  | write (data : Buf) : Move ends w (w.write mp data).1
  | written {i : Nat} {ec : ErrorCode} (hends : ends ec)
      (hi : i < w.outstanding.length) :
      Move ends w ((w.taken i).onWritten mp ec).1
  | close : Move ends w w.close
  | closeSocket : Move ends w w.closeSocket

variable {ends : ErrorCode → Prop}

/-- A move that the writer takes by itself, or the closing of the socket. -/
theorem Move.step_or_closeSocket {w w' : AsyncWriter Buf}
    (hmove : Move mp ends w w') :
    w' = w ∨ w' = w.closeSocket ∨ ∃ e, step mp w e = some w' := by
  cases hmove with
  | kept => exact Or.inl rfl
  | write data => exact Or.inr (Or.inr ⟨.write data, rfl⟩)
  | @written i ec hends hi =>
      exact Or.inr (Or.inr ⟨.written i ec, if_pos hi⟩)
  | close => exact Or.inr (Or.inr ⟨.close, rfl⟩)
  | closeSocket => exact Or.inr (Or.inl rfl)

/-- A queue that is served one element at a time stays one. -/
theorem Move.ledger {w w' : AsyncWriter Buf} (hmove : Move mp ends w w')
    {l : FifoLedger Buf} (hl : Ledger w l) : ∃ l', Ledger w' l' := by
  rcases hmove.step_or_closeSocket with rfl | rfl | ⟨e, hstep⟩
  · exact ⟨l, hl⟩
  · exact ⟨l, { hl with }⟩
  · obtain ⟨l', -, hl'⟩ := ledger_step mp hl hstep
    exact ⟨l', hl'⟩

/-- A closed writer accepts and starts nothing. -/
theorem Move.of_exit {w w' : AsyncWriter Buf} (hmove : Move mp ends w w')
    (hexit : w.exit = true) :
    w'.exit = true ∧ w'.started = w.started ∧ w'.accepted = w.accepted := by
  rcases hmove.step_or_closeSocket with rfl | rfl | ⟨e, hstep⟩
  · exact ⟨hexit, rfl, rfl⟩
  · exact ⟨hexit, rfl, rfl⟩
  · exact step_of_exit mp hexit hstep

/-- A writer that is open has been open. -/
theorem Move.open_of_open {w w' : AsyncWriter Buf} (hmove : Move mp ends w w')
    (hopen : w'.exit = false) : w.exit = false := by
  cases hexit : w.exit with
  | false => rfl
  | true =>
      rw [(hmove.of_exit mp hexit).1] at hopen
      cases hopen

/-- Nothing is accepted in the step that closes the writer or later. -/
theorem Move.accepted_of_exit {w w' : AsyncWriter Buf} (hmove : Move mp ends w w')
    (hexit : w'.exit = true) : w'.accepted = w.accepted := by
  cases hmove with
  | write data =>
      rw [write_exit] at hexit
      rw [write_of_exit mp hexit]
  | @written i ec hends hi => exact (onWritten_frame mp (w.taken i) ec).2
  | _ => rfl

theorem doWrite_started (w : AsyncWriter Buf) :
    w.started <+: w.doWrite.started := by
  unfold doWrite
  split
  · exact List.prefix_rfl
  · split
    · exact List.prefix_rfl
    · exact List.prefix_append _ _

theorem settled_started (w : AsyncWriter Buf) (ec : ErrorCode) :
    w.started <+: (w.popFront ec).continueWriting.started := by
  rw [← (popFront_frame w ec).2.2]
  unfold continueWriting
  split
  · exact doWrite_started _
  · exact List.prefix_rfl

/-- What was handed to `async_write` stays handed over. -/
theorem Move.started {w w' : AsyncWriter Buf} (hmove : Move mp ends w w') :
    w.started <+: w'.started := by
  cases hmove with
  | kept => exact List.prefix_rfl
  | write data =>
      cases hexit : w.exit with
      | true =>
          have hsame := write_of_exit mp hexit data
          exact hsame.symm ▸ List.prefix_rfl
      | false =>
          by_cases hqueue : w.writeQueue = []
          · rw [write_of_empty mp hexit hqueue]
            exact List.prefix_append _ _
          · have hsame := write_of_occupied mp hexit hqueue data
            exact hsame.symm ▸ List.prefix_rfl
  | @written i ec hends hi =>
      by_cases hsettles : Settles mp (w.taken i) ec
      · rw [onWritten_of_settles mp hsettles]
        exact settled_started (w.taken i) ec
      · rw [onWritten_of_not_settles mp hsettles]
        exact List.prefix_rfl
  | close => exact List.prefix_rfl
  | closeSocket => exact List.prefix_rfl

/-- The writer starts what it has accepted, in order. -/
theorem started_isPrefix {w : AsyncWriter Buf} {l : FifoLedger Buf}
    (hl : Ledger w l) : w.started <+: w.accepted := by
  rw [hl.started, hl.accepted]
  exact l.started_prefix_accepted

/-- An empty queue leaves nothing to start. -/
theorem started_eq_accepted {w : AsyncWriter Buf} {l : FifoLedger Buf}
    (hl : Ledger w l) (hempty : w.writeQueue = []) :
    w.started = w.accepted := by
  have hqueue : l.queue = [] := hl.queue.symm.trans hempty
  rw [hl.started, hl.accepted, FifoLedger.started, FifoLedger.accepted, hqueue]
  split <;> rfl

/-- A write that succeeds leaves one message less. -/
theorem written_writeQueue_lt {w : AsyncWriter Buf} {l : FifoLedger Buf}
    (hl : Ledger w l) {i : Nat} (hi : i < w.outstanding.length) :
    ((w.taken i).onWritten mp .success).1.writeQueue.length <
      w.writeQueue.length := by
  obtain ⟨-, -, item, rest, hqueue, -⟩ := hl.of_outstanding hi
  show ((w.taken i).popFront .success).continueWriting.writeQueue.length < _
  have hqueue' : (w.taken i).writeQueue = item :: rest := hqueue
  rw [(continueWriting_frame _).1, popFront, hqueue', hqueue]
  exact Nat.lt_succ_self rest.length

/-- A writer goes on as long as no write fails. -/
theorem Move.notWedged {w w' : AsyncWriter Buf} (hmove : Move mp ends w w')
    (hends : ∀ ec, ends ec → ec = .success) (h : NotWedged w) :
    NotWedged w' := by
  cases hmove with
  | kept => exact h
  | write data => exact notWedged_write mp h data
  | @written i ec hec hi =>
      obtain rfl := hends ec hec
      exact notWedged_settled (w.taken i) .success
  | close =>
      intro hopen
      simp [AsyncWriter.close] at hopen
  | closeSocket => exact h

/-- A writer that has started nothing has nothing to start. -/
def Unstarted (w : AsyncWriter Buf) : Prop :=
  w.started = [] → w.writeQueue = []

theorem Move.unstarted {w w' : AsyncWriter Buf} (hmove : Move mp ends w w')
    (h : Unstarted w) : Unstarted w' := by
  intro hnone
  have hbefore : w.started = [] :=
    List.prefix_nil.mp (hnone ▸ hmove.started mp)
  have hempty := h hbefore
  cases hmove with
  | write data =>
      cases hexit : w.exit with
      | true =>
          have hsame := write_of_exit mp hexit data
          exact (congrArg (fun x => x.1.writeQueue) hsame).trans hempty
      | false =>
          -- the first message is started at once
          rw [write_of_empty mp hexit hempty] at hnone
          simp at hnone
  | @written i ec hends hi =>
      have hsuffix := onWritten_writeQueue mp (w.taken i) ec
      exact List.suffix_nil.mp (hempty ▸ hsuffix)
  | _ => exact hempty

/-! ## Several moves -/

/-- The moves of one handler. -/
def Moves (ends : ErrorCode → Prop) :
    AsyncWriter Buf → AsyncWriter Buf → Prop :=
  Relation.ReflTransGen (Move mp ends)

namespace Moves

variable {mp}

theorem single {w w' : AsyncWriter Buf} (hmove : Move mp ends w w') :
    Moves mp ends w w' :=
  Relation.ReflTransGen.single hmove

/-- What every move keeps, the handler keeps. -/
theorem keeps {P : AsyncWriter Buf → Prop}
    (hstep : ∀ w w', Move mp ends w w' → P w → P w') {w w' : AsyncWriter Buf}
    (hmoves : Moves mp ends w w') (h : P w) : P w' := by
  induction hmoves with
  | refl => exact h
  | tail _ hmove ih => exact hstep _ _ hmove ih

theorem started {w w' : AsyncWriter Buf} (hmoves : Moves mp ends w w') :
    w.started <+: w'.started := by
  refine hmoves.keeps (P := fun v => w.started <+: v.started) ?_
    List.prefix_rfl
  exact fun _ _ hmove h => h.trans (hmove.started mp)

theorem notWedged {w w' : AsyncWriter Buf} (hmoves : Moves mp ends w w')
    (hends : ∀ ec, ends ec → ec = .success) (h : NotWedged w) :
    NotWedged w' :=
  hmoves.keeps (fun _ _ hmove => hmove.notWedged mp hends) h

theorem unstarted {w w' : AsyncWriter Buf} (hmoves : Moves mp ends w w')
    (h : Unstarted w) : Unstarted w' :=
  hmoves.keeps (fun _ _ hmove => hmove.unstarted mp) h

end Moves

end AsyncWriter
end Transport
end RpcLib
