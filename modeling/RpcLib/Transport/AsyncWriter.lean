import RpcLib.Foundation.FifoLedger
import RpcLib.MsgPack.Object

/-!
# `AsyncWriter`: the write queue of a socket

The state of `detail::AsyncWriter` and its functions `close`, `do_write` and
`write`, with the completion handler of `async_write` as `onWritten`.  Every
handler runs on the write strand and is one step; `Effect` says once what a
step can do.

`outstanding` lists the `async_write` operations that have not completed, with
the buffer each of them sends; nothing in the model keeps it short, so that at
most one write is outstanding is a theorem.  `accepted`, `started` and `popped`
are history: the code never reads them.
-/

namespace RpcLib

/-- The `boost::system::error_code` values that the code tells apart. -/
inductive ErrorCode where
  | success
  | brokenPipe
  | eof
  | connectionReset
  | other (value : Int)
  deriving DecidableEq, Repr

namespace Transport

/-- `detail::AsyncWriter`. -/
structure AsyncWriter (Buf : Type) where
  writeQueue : List Buf
  exit : Bool
  socketOpen : Bool
  /-- The `async_write` operations in progress. -/
  outstanding : List Buf
  /-- The closing handlers posted by `close` that have not run. -/
  closing : Nat
  /-- Every buffer that `write` queued, in order. -/
  accepted : List Buf
  /-- Every buffer handed to `async_write`, in order. -/
  started : List Buf
  /-- Every buffer popped from the queue, with the completion that popped it. -/
  popped : List (Buf × ErrorCode)

namespace AsyncWriter

open Foundation TransitionSystem

variable {Buf : Type} (mp : MsgPack Buf)

/-- A writer as its constructor leaves it. -/
def initial : AsyncWriter Buf where
  writeQueue := []
  exit := false
  socketOpen := true
  outstanding := []
  closing := 0
  accepted := []
  started := []
  popped := []

/-- `AsyncWriter::close`. -/
def close (w : AsyncWriter Buf) : AsyncWriter Buf :=
  { w with exit := true, closing := w.closing + 1 }

/-- The handler that `close` posts: shut the socket down and close it. -/
def closeSocket (w : AsyncWriter Buf) : AsyncWriter Buf :=
  { w with closing := w.closing - 1, socketOpen := false }

/-- `AsyncWriter::do_write`. -/
def doWrite (w : AsyncWriter Buf) : AsyncWriter Buf :=
  if w.exit then w
  else
    match w.writeQueue with
    | [] => w -- `front()` of an empty queue: no caller does this
    | item :: _ =>
        { w with
          outstanding := w.outstanding ++ [item]
          started := w.started ++ [item] }

/-- `AsyncWriter::write`.  The second component is what the caller's buffer
holds afterwards: it is moved from only when the message is queued. -/
def write (w : AsyncWriter Buf) (data : Buf) : AsyncWriter Buf × Buf :=
  if w.exit then (w, data)
  else
    let queued : AsyncWriter Buf :=
      { w with
        writeQueue := w.writeQueue ++ [data]
        accepted := w.accepted ++ [data] }
    if queued.writeQueue.length > 1 then (queued, mp.movedFrom)
    else (queued.doWrite, mp.movedFrom)

/-- `write_queue_.pop_front()` in the completion handler. -/
def popFront (w : AsyncWriter Buf) (ec : ErrorCode) : AsyncWriter Buf :=
  match w.writeQueue with
  | [] => w
  | item :: rest =>
      { w with writeQueue := rest, popped := w.popped ++ [(item, ec)] }

/-- The continuation after a pop. -/
def continueWriting (w : AsyncWriter Buf) : AsyncWriter Buf :=
  if w.writeQueue.length > 0 ∧ w.exit = false then w.doWrite else w

/-- The completion handler of `async_write`.  The flag says that an exception
escapes from it: `msgpack::unpack` of the front frame throws. -/
def onWritten (w : AsyncWriter Buf) : ErrorCode → AsyncWriter Buf × Bool
  | .success => ((w.popFront .success).continueWriting, false)
  | .brokenPipe =>
      match w.writeQueue.head?.bind mp.unpack with
      | none => (w, true)
      | some o =>
          if mp.arraySize o = 3 then
            ((w.popFront .brokenPipe).continueWriting, false)
          else (w, false)
  | _ => (w, false)

/-- The writer whose `i`-th outstanding operation has come to its end. -/
def taken (w : AsyncWriter Buf) (i : Nat) : AsyncWriter Buf :=
  { w with outstanding := w.outstanding.eraseIdx i }

/-- The steps of the write strand.  `written i ec` completes the `i`-th
outstanding operation with `ec`. -/
inductive Event (Buf : Type) where
  | write (data : Buf)
  | written (i : Nat) (ec : ErrorCode)
  | close
  | closeSocket

def step (w : AsyncWriter Buf) : Event Buf → Option (AsyncWriter Buf)
  | .write data => some (w.write mp data).1
  | .written i ec =>
      if i < w.outstanding.length then some ((w.taken i).onWritten mp ec).1
      else none
  | .close => some w.close
  | .closeSocket => if 0 < w.closing then some w.closeSocket else none

/-! ## What each function does -/

@[simp] theorem doWrite_of_exit {w : AsyncWriter Buf} (hexit : w.exit = true) :
    w.doWrite = w := by
  simp [doWrite, hexit]

@[simp] theorem doWrite_frame (w : AsyncWriter Buf) :
    w.doWrite.writeQueue = w.writeQueue ∧ w.doWrite.exit = w.exit ∧
      w.doWrite.accepted = w.accepted ∧ w.doWrite.popped = w.popped := by
  unfold doWrite
  split
  · simp
  · split <;> simp

@[simp] theorem continueWriting_frame (w : AsyncWriter Buf) :
    w.continueWriting.writeQueue = w.writeQueue ∧
      w.continueWriting.exit = w.exit ∧
      w.continueWriting.accepted = w.accepted ∧
      w.continueWriting.popped = w.popped := by
  unfold continueWriting
  split <;> simp

theorem continueWriting_of_exit {w : AsyncWriter Buf}
    (hexit : w.exit = true) : w.continueWriting = w := by
  simp [continueWriting, hexit]

@[simp] theorem popFront_frame (w : AsyncWriter Buf) (ec : ErrorCode) :
    (w.popFront ec).exit = w.exit ∧ (w.popFront ec).accepted = w.accepted ∧
      (w.popFront ec).started = w.started := by
  unfold popFront
  split <;> simp

/-- Only the posted closing step touches the socket. -/
theorem doWrite_socket (w : AsyncWriter Buf) :
    w.doWrite.socketOpen = w.socketOpen ∧ w.doWrite.closing = w.closing := by
  unfold doWrite
  split
  · exact ⟨rfl, rfl⟩
  · split <;> exact ⟨rfl, rfl⟩

theorem continueWriting_socket (w : AsyncWriter Buf) :
    w.continueWriting.socketOpen = w.socketOpen ∧
      w.continueWriting.closing = w.closing := by
  unfold continueWriting
  split
  · exact w.doWrite_socket
  · exact ⟨rfl, rfl⟩

theorem popFront_socket (w : AsyncWriter Buf) (ec : ErrorCode) :
    (w.popFront ec).socketOpen = w.socketOpen ∧
      (w.popFront ec).closing = w.closing := by
  unfold popFront
  split <;> exact ⟨rfl, rfl⟩

/-- A closed writer refuses the message and leaves the buffer alone. -/
theorem write_of_exit {w : AsyncWriter Buf} (hexit : w.exit = true)
    (data : Buf) : w.write mp data = (w, data) := by
  simp [write, hexit]

/-- A message that finds the queue empty starts the writer. -/
theorem write_of_empty {w : AsyncWriter Buf} (hexit : w.exit = false)
    (hqueue : w.writeQueue = []) (data : Buf) :
    w.write mp data =
      ({ w with
          writeQueue := [data]
          accepted := w.accepted ++ [data]
          outstanding := w.outstanding ++ [data]
          started := w.started ++ [data] }, mp.movedFrom) := by
  simp [write, doWrite, hexit, hqueue]

/-- A message that finds the queue occupied is left to the running writer. -/
theorem write_of_occupied {w : AsyncWriter Buf} (hexit : w.exit = false)
    (hqueue : w.writeQueue ≠ []) (data : Buf) :
    w.write mp data =
      ({ w with
          writeQueue := w.writeQueue ++ [data]
          accepted := w.accepted ++ [data] }, mp.movedFrom) := by
  have hlength : 0 < w.writeQueue.length := List.length_pos_iff.mpr hqueue
  simp [write, hexit, hlength]

/-- The completions after which the handler pops the front frame: success, or
`broken_pipe` when the front frame reads as an array of three elements. -/
def Settles (w : AsyncWriter Buf) : ErrorCode → Prop
  | .success => True
  | .brokenPipe => ∃ item o, w.writeQueue.head? = some item ∧
      mp.unpack item = some o ∧ mp.arraySize o = 3
  | _ => False

theorem onWritten_of_settles {w : AsyncWriter Buf} {ec : ErrorCode}
    (hsettles : Settles mp w ec) :
    w.onWritten mp ec = ((w.popFront ec).continueWriting, false) := by
  cases ec with
  | success => rfl
  | brokenPipe =>
      obtain ⟨item, o, hhead, hunpack, hsize⟩ := hsettles
      simp [onWritten, hhead, hunpack, hsize]
  | eof => exact hsettles.elim
  | connectionReset => exact hsettles.elim
  | other value => exact hsettles.elim

/-- Any other completion leaves the writer as it is: nothing is popped and
nothing is started. -/
theorem onWritten_of_not_settles {w : AsyncWriter Buf} {ec : ErrorCode}
    (hnot : ¬ Settles mp w ec) : (w.onWritten mp ec).1 = w := by
  cases ec with
  | success => exact (hnot trivial).elim
  | brokenPipe =>
      cases hfront : w.writeQueue.head?.bind mp.unpack with
      | none => simp [onWritten, hfront]
      | some o =>
          obtain ⟨item, hhead, hunpack⟩ := Option.bind_eq_some_iff.mp hfront
          have hsize : mp.arraySize o ≠ 3 := by
            intro hsize
            exact hnot ⟨item, o, hhead, hunpack, hsize⟩
          simp [onWritten, hfront, hsize]
  | eof => rfl
  | connectionReset => rfl
  | other value => rfl

/-- A completion accepts nothing and does not close the writer. -/
theorem onWritten_frame (w : AsyncWriter Buf) (ec : ErrorCode) :
    (w.onWritten mp ec).1.exit = w.exit ∧
      (w.onWritten mp ec).1.accepted = w.accepted := by
  by_cases hsettles : Settles mp w ec
  · rw [onWritten_of_settles mp hsettles]
    simp
  · rw [onWritten_of_not_settles mp hsettles]
    exact ⟨rfl, rfl⟩

/-- An open writer accepts every message, stays open, and moves the message
out of the caller's buffer. -/
theorem write_of_open {w : AsyncWriter Buf} (hexit : w.exit = false)
    (data : Buf) :
    (w.write mp data).1.exit = false ∧
      (w.write mp data).1.accepted = w.accepted ++ [data] ∧
      (w.write mp data).2 = mp.movedFrom := by
  by_cases hqueue : w.writeQueue = []
  · rw [write_of_empty mp hexit hqueue]
    exact ⟨hexit, rfl, rfl⟩
  · rw [write_of_occupied mp hexit hqueue]
    exact ⟨hexit, rfl, rfl⟩

/-- An open writer queues every message behind what it has. -/
theorem write_writeQueue {w : AsyncWriter Buf} (hexit : w.exit = false)
    (data : Buf) :
    (w.write mp data).1.writeQueue = w.writeQueue ++ [data] := by
  by_cases hqueue : w.writeQueue = []
  · rw [write_of_empty mp hexit hqueue, hqueue]
    rfl
  · rw [write_of_occupied mp hexit hqueue]

/-- A completion takes at most the front off the queue. -/
theorem onWritten_writeQueue (w : AsyncWriter Buf) (ec : ErrorCode) :
    (w.onWritten mp ec).1.writeQueue <:+ w.writeQueue := by
  by_cases hsettles : Settles mp w ec
  · rw [onWritten_of_settles mp hsettles]
    dsimp only
    rw [(continueWriting_frame _).1]
    unfold popFront
    split
    · exact List.suffix_rfl
    · rename_i item rest hqueue
      rw [hqueue]
      exact List.suffix_cons item rest
  · have hsame := onWritten_of_not_settles mp hsettles
    exact ⟨[], congrArg writeQueue hsame⟩

theorem write_exit (w : AsyncWriter Buf) (data : Buf) :
    (w.write mp data).1.exit = w.exit := by
  cases hexit : w.exit with
  | true => rw [write_of_exit mp hexit, hexit]
  | false => exact (write_of_open mp hexit data).1

/-- The states that an event leads to, with what enables it.  A completion
either pops the front and continues, or leaves the queue alone. -/
inductive Effect (w : AsyncWriter Buf) : Event Buf → AsyncWriter Buf → Prop
  | write (data : Buf) : Effect w (.write data) (w.write mp data).1
  | settled {i : Nat} {ec : ErrorCode} (hi : i < w.outstanding.length)
      (hsettles : Settles mp w ec) :
      Effect w (.written i ec) ((w.taken i).popFront ec).continueWriting
  | kept {i : Nat} {ec : ErrorCode} (hi : i < w.outstanding.length)
      (hnot : ¬ Settles mp w ec) : Effect w (.written i ec) (w.taken i)
  | close : Effect w .close w.close
  | closeSocket (hclosing : 0 < w.closing) :
      Effect w .closeSocket w.closeSocket

/-- A step has one of the effects. -/
theorem effect_of_step {w w' : AsyncWriter Buf} {e : Event Buf}
    (hstep : step mp w e = some w') : Effect mp w e w' := by
  cases e with
  | write data =>
      obtain rfl : (w.write mp data).1 = w' := by simpa [step] using hstep
      exact .write data
  | written i ec =>
      obtain ⟨hi, rfl⟩ : i < w.outstanding.length ∧
          ((w.taken i).onWritten mp ec).1 = w' := by
        simpa [step] using hstep
      by_cases hsettles : Settles mp w ec
      · rw [onWritten_of_settles mp (show Settles mp (w.taken i) ec from
          hsettles)]
        exact .settled hi hsettles
      · rw [onWritten_of_not_settles mp (show ¬ Settles mp (w.taken i) ec from
          hsettles)]
        exact .kept hi hsettles
  | close =>
      obtain rfl : w.close = w' := by simpa [step] using hstep
      exact .close
  | closeSocket =>
      obtain ⟨hclosing, rfl⟩ : 0 < w.closing ∧ w.closeSocket = w' := by
        simpa [step] using hstep
      exact .closeSocket hclosing

/-- A settled completion with another frame behind the front one. -/
theorem continueWriting_popFront_of_next {w : AsyncWriter Buf}
    {item next : Buf} {rest : List Buf} (ec : ErrorCode)
    (hexit : w.exit = false) (hqueue : w.writeQueue = item :: next :: rest) :
    (w.popFront ec).continueWriting =
      { w with
        writeQueue := next :: rest
        popped := w.popped ++ [(item, ec)]
        outstanding := w.outstanding ++ [next]
        started := w.started ++ [next] } := by
  simp [continueWriting, popFront, doWrite, hqueue, hexit]

/-- A settled completion after which the writer rests: the queue is empty or
the writer is closed. -/
theorem continueWriting_popFront_of_rest {w : AsyncWriter Buf} {item : Buf}
    {rest : List Buf} (ec : ErrorCode) (hqueue : w.writeQueue = item :: rest)
    (hrest : w.exit = true ∨ rest = []) :
    (w.popFront ec).continueWriting =
      { w with writeQueue := rest, popped := w.popped ++ [(item, ec)] } := by
  rcases hrest with hexit | hnil
  · simp [continueWriting, popFront, hqueue, hexit]
  · simp [continueWriting, popFront, hqueue, hnil]

end AsyncWriter
end Transport
end RpcLib
