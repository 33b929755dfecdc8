import RpcLib.Foundation.Framing
import RpcLib.Server.ExitRequests
import RpcLib.Transport.AsyncWriter

/-!
# `Server::impl`: accepting, sessions and worker threads

`Server::impl` with the sessions it has accepted.  Any number of threads run
the `io_context`.  A handler is one step, except the two that lock
`sessions_mutex` between other effects: the accept handler registers the
session only after it has started it, and `close_sessions` closes the sessions
after it has taken them out of the vector.  Such a handler is a `Job` of its
thread, which does nothing else until `resume` has ended it.

The handlers of one write strand run in the order of posting.  The model lets
another thread run a strand whose `close_sessions` is under way; boost does
not, so it has more interleavings than the program.

A dispatch task with its functor is one step, although nothing in the program
keeps two dispatch tasks apart.  A response is held by value until its handler
has packed it; where the memory of the object may be gone by then is the
subject of `ReplyMemory`.  A session is never destroyed here, although the
posted handlers of `close` and `close_sessions` keep only `this`.

`received`, `unregistered`, `dispatched`, `acceptor` and `lastRequests` are
history: the code never reads them.
-/

namespace RpcLib
namespace Server

open Protocol Transport Foundation

variable {ω V Buf : Type} (mp : MsgPack Buf) (unpacker : Decoder Object UInt8)
  (disp : Dispatcher ω V)

/-- The thread-local objects of one thread. -/
structure ThreadLocals where
  thisHandler : ThisHandler
  thisSession : ThisSession
  thisServer : ThisServer

/-- The objects of a thread on which no handler has run. -/
def ThreadLocals.initial : ThreadLocals :=
  ⟨⟨.nil, .nil, true⟩, ⟨false, 0⟩, ⟨false⟩⟩

/-- A session, by how many sessions were created before it. -/
abbrev SessionNumber := Nat

/-- A handler in the queue of a write strand. -/
inductive StrandTask where
  /-- Posted by a dispatch task. -/
  | posted (p : Posted)
  /-- Posted by `AsyncWriter::close`. -/
  | closeSocket
  /-- `parent_->close_session(self)`, posted by `ServerSession::close`. -/
  | closeSession

/-- A `ServerSession` with its writer, its unpacker and its write strand. -/
structure Connection (ω V Buf : Type) extends ServerSession ω V where
  writer : AsyncWriter Buf
  /-- The bytes in `unpac_` that no message has taken. -/
  unparsed : List UInt8
  /-- The `async_read_some` operations in progress. -/
  reading : Nat
  writeStrand : List StrandTask
  /-- Every byte that was read. -/
  received : List UInt8
  /-- The `close_session` handler has run. -/
  unregistered : Bool

/-- A session after `start`, which begins to read. -/
def Connection.started (session : ServerSession ω V) :
    Connection ω V Buf :=
  { session with
    writer := .initial
    unparsed := []
    reading := 1
    writeStrand := []
    received := []
    unregistered := false }

/-- What is left of a handler that has run in part. -/
inductive Job where
  /-- `sessions.push_back(session)` and the end of the accept handler. -/
  | registering (k : SessionNumber)
  /-- The loop of `close_sessions` over the sessions it has taken, and the test
  after it.  `posted` tells a handler of a strand from a call of
  `Server::close_sessions`. -/
  | closing (posted : Bool) (rest : List SessionNumber)

/-- What happens to the acceptor. -/
inductive AcceptorEvent where
  /-- `async_accept`. -/
  | started
  /-- The end of `close_sessions`, which cancels the acceptor or not. -/
  | sessionsClosed (posted cancelled : Bool)
  deriving DecidableEq

/-- A dispatch task that has run: its session and message, the state of the
application before and after it, the functors it has called, and what it has
posted. -/
structure Dispatched (ω V : Type) where
  number : SessionNumber
  msg : Object
  before : ω
  after : ω
  called : List (String × List V)
  posted : List Posted

/-- `Server::impl`, the sessions, the threads and the operations in
progress. -/
structure State (ω V Buf : Type) where
  app : ω
  invocations : List (String × List V)
  locals : ThreadId → ThreadLocals
  jobs : ThreadId → Option Job
  /-- How many sessions were created. -/
  created : Nat
  connection : SessionNumber → Connection ω V Buf
  /-- The vector `sessions`. -/
  sessions : List SessionNumber
  /-- The dispatch tasks posted to the `io_context`, in order. -/
  tasks : List (SessionNumber × Object)
  /-- The `async_accept` operations in progress. -/
  accepting : Nat
  suppressException : Bool
  /-- An exception has left a handler. -/
  escaped : Bool
  dispatched : List (Dispatched ω V)
  acceptor : List AcceptorEvent
  /-- The calls on the thread-local objects that the handler of the last
  dispatch on a thread has made. -/
  lastRequests : ThreadId → List HandlerAction

namespace State

/-- `start_accept`. -/
def startAccept (s : State ω V Buf) : State ω V Buf :=
  { s with
    accepting := s.accepting + 1
    acceptor := s.acceptor ++ [.started] }

/-- The server after its constructor, which starts to accept. -/
def initial (app : ω) : State ω V Buf :=
  startAccept
    { app := app
      invocations := []
      locals := fun _ => .initial
      jobs := fun _ => none
      created := 0
      connection := fun _ => .started ⟨0, disp, false⟩
      sessions := []
      tasks := []
      accepting := 0
      suppressException := false
      escaped := false
      dispatched := []
      acceptor := []
      lastRequests := fun _ => [] }

def setConnection (s : State ω V Buf) (k : SessionNumber)
    (c : Connection ω V Buf) : State ω V Buf :=
  { s with connection := Function.update s.connection k c }

/-- What a thread goes on with. -/
def setJob (s : State ω V Buf) (t : ThreadId) (job : Option Job) :
    State ω V Buf :=
  { s with jobs := Function.update s.jobs t job }

/-- What a dispatch on the thread reads and writes. -/
def worker (s : State ω V Buf) (t : ThreadId) : Worker ω V where
  app := s.app
  thisHandler := (s.locals t).thisHandler
  thisSession := (s.locals t).thisSession
  thisServer := (s.locals t).thisServer
  invocations := s.invocations

/-! ## Accepting -/

/-- The end of the accept handler, which looks at the flag of the thread that
runs it. -/
def acceptNext (s : State ω V Buf) (t : ThreadId) : State ω V Buf :=
  if (s.locals t).thisServer.stopping then s else s.startAccept

/-- The accept handler without an error, up to `session->start()`. -/
def accepted (s : State ω V Buf) (t : ThreadId) (address : SessionId) :
    State ω V Buf :=
  { s.setConnection s.created
      (.started ⟨address, disp, s.suppressException⟩) with
    accepting := s.accepting - 1
    created := s.created + 1
    jobs := Function.update s.jobs t (some (.registering s.created)) }

/-- The rest of this handler. -/
def register (s : State ω V Buf) (t : ThreadId) (k : SessionNumber) :
    State ω V Buf :=
  ({ s with sessions := s.sessions ++ [k] }.setJob t none).acceptNext t

/-- The accept handler with an error. -/
def acceptFailed (s : State ω V Buf) (t : ThreadId) : State ω V Buf :=
  { s with accepting := s.accepting - 1 }.acceptNext t

/-- The accept handler when `remote_endpoint` throws. -/
def acceptThrows (s : State ω V Buf) : State ω V Buf :=
  { s with accepting := s.accepting - 1, escaped := true }

/-! ## Closing -/

/-- `ServerSession::close`. -/
def close (s : State ω V Buf) (k : SessionNumber) : State ω V Buf :=
  let c := s.connection k
  s.setConnection k
    { c with
      writer := c.writer.close
      writeStrand := c.writeStrand ++ [.closeSocket, .closeSession] }

/-- `Server::close_session`. -/
def closeSession (s : State ω V Buf) (k : SessionNumber) : State ω V Buf :=
  { s.setConnection k { s.connection k with unregistered := true } with
    sessions := s.sessions.erase k }

/-- `close_sessions` up to the end of its locked part. -/
def closeSessions (s : State ω V Buf) (t : ThreadId) (posted : Bool) :
    State ω V Buf :=
  { s with sessions := [] }.setJob t (some (.closing posted s.sessions))

/-- One round of the loop of `close_sessions`. -/
def closeNext (s : State ω V Buf) (t : ThreadId) (posted : Bool)
    (k : SessionNumber) (rest : List SessionNumber) : State ω V Buf :=
  (s.close k).setJob t (some (.closing posted rest))

/-- The end of `close_sessions`, which looks at the flag of the thread that
runs it.  The accept operation in progress still completes, with or without an
error. -/
def closedAll (s : State ω V Buf) (t : ThreadId) (posted : Bool) :
    State ω V Buf :=
  let cancelled := (s.locals t).thisServer.stopping
  { s with
    acceptor := s.acceptor ++ [AcceptorEvent.sessionsClosed posted cancelled]
    jobs := Function.update s.jobs t none }

/-! ## Reading and dispatching -/

/-- The loop of the read handler over the messages in `unpac_`, and the next
read.  What `next` throws leaves the handler. -/
def readChunk (s : State ω V Buf) (k : SessionNumber) (chunk : List UInt8) :
    State ω V Buf :=
  let c := s.connection k
  let drained := unpacker.drain (c.unparsed ++ chunk)
  { s.setConnection k
      { c with
        unparsed := drained.rest
        reading := if drained.failed then c.reading else c.reading + 1
        received := c.received ++ chunk } with
    tasks := s.tasks ++ drained.items.map fun msg => (k, msg)
    escaped := drained.failed }

/-- A read operation of a session has completed. -/
def endRead (s : State ω V Buf) (k : SessionNumber) : State ω V Buf :=
  let c := s.connection k
  s.setConnection k { c with reading := c.reading - 1 }

/-- The completion handler of `async_read_some`.  The `is_closed` checks of
the loop see what the first one has seen. -/
def readDone (s : State ω V Buf) (k : SessionNumber) (chunk : List UInt8)
    (ec : ErrorCode) : State ω V Buf :=
  let s := s.endRead k
  if (s.connection k).writer.exit then s
  else
    match ec with
    | .success => s.readChunk unpacker k chunk
    | .eof => s.close k
    | .connectionReset => s.close k
    | _ => s

/-- The dispatch task at position `i` of the `io_context` on a thread. -/
def dispatch (s : State ω V Buf) (t : ThreadId) (i : Nat)
    (k : SessionNumber) (msg : Object) : State ω V Buf :=
  let c := s.connection k
  let (result, w) :=
    (c.toServerSession.dispatchTask mp msg).exec (s.worker t)
  let posted := match result with
    | .ok posted => posted
    | .error _ => []
  { s.setConnection k
      { c with writeStrand := c.writeStrand ++ posted.map .posted } with
    app := w.app
    invocations := w.invocations
    locals := Function.update s.locals t
      ⟨w.thisHandler, w.thisSession, w.thisServer⟩
    tasks := s.tasks.eraseIdx i
    escaped := match result with
      | .ok _ => false
      | .error _ => true
    dispatched := s.dispatched ++
      [⟨k, msg, s.app, w.app, w.invocations.drop s.invocations.length,
        posted⟩]
    lastRequests := Function.update s.lastRequests t
      (c.toServerSession.requestsOf mp msg (s.worker t)) }

/-! ## The write strand -/

/-- `AsyncWriter::write` of a reply. -/
def writeReply (s : State ω V Buf) (k : SessionNumber) (resp : Response) :
    State ω V Buf :=
  let c := s.connection k
  s.setConnection k { c with writer := (c.writer.write mp (resp.data mp)).1 }

/-- The handler posted by `AsyncWriter::close`. -/
def closeSocket (s : State ω V Buf) (k : SessionNumber) : State ω V Buf :=
  let c := s.connection k
  s.setConnection k { c with writer := c.writer.closeSocket }

/-- Run a handler of the write strand of a session on a thread. -/
def runTask (s : State ω V Buf) (t : ThreadId) (k : SessionNumber) :
    StrandTask → State ω V Buf
  | .posted (.write resp) => s.writeReply mp k resp
  | .posted .close => s.close k
  | .posted .closeSessions => s.closeSessions t true
  | .closeSocket => s.closeSocket k
  | .closeSession => s.closeSession k

/-- The write strand of a session without its first handler. -/
def popStrand (s : State ω V Buf) (k : SessionNumber)
    (rest : List StrandTask) : State ω V Buf :=
  s.setConnection k { s.connection k with writeStrand := rest }

/-- The completion of the `i`-th `async_write` of a session. -/
def written (s : State ω V Buf) (k : SessionNumber) (i : Nat)
    (ec : ErrorCode) : State ω V Buf :=
  let c := s.connection k
  let completed := (c.writer.taken i).onWritten mp ec
  { s.setConnection k { c with writer := completed.1 } with
    escaped := completed.2 }

end State

/-! ## The transition system -/

/-- What can happen next, and on which thread: a handler runs, a thread goes
on with the handler it is in, or the application calls the server. -/
inductive Event where
  /-- The completion of `async_accept`; `address` is the new session's. -/
  | acceptDone (t : ThreadId) (ec : ErrorCode) (address : SessionId)
  /-- The completion without an error, but the peer is gone already. -/
  | acceptThrows (t : ThreadId)
  | resume (t : ThreadId)
  | readDone (t : ThreadId) (k : SessionNumber) (ec : ErrorCode)
      (chunk : List UInt8)
  | dispatch (t : ThreadId) (i : Nat)
  | runStrand (t : ThreadId) (k : SessionNumber)
  | written (t : ThreadId) (k : SessionNumber) (i : Nat) (ec : ErrorCode)
  /-- `Server::close_sessions`. -/
  | closeSessions (t : ThreadId)
  /-- `Server::suppress_exceptions`. -/
  | suppressExceptions (suppress : Bool)

/-- The thread that an event keeps busy. -/
def Event.thread : Event → Option ThreadId
  | .acceptDone t _ _ | .acceptThrows t | .readDone t _ _ _ => some t
  | .dispatch t _ | .runStrand t _ | .written t _ _ _ => some t
  | .closeSessions t => some t
  | .resume _ | .suppressExceptions _ => none

/-- The thread of the event is not inside another handler. -/
def State.admits (s : State ω V Buf) (e : Event) : Bool :=
  match e.thread with
  | none => true
  | some t => (s.jobs t).isNone

/-- The step of a process that has not ended, on a thread that is free. -/
def freeStep (s : State ω V Buf) : Event → Option (State ω V Buf)
  | .acceptDone t ec address =>
      if 0 < s.accepting then
        some (if ec = .success then s.accepted disp t address
          else s.acceptFailed t)
      else none
  | .acceptThrows _ => if 0 < s.accepting then some s.acceptThrows else none
  | .resume t =>
      match s.jobs t with
      | none => none
      | some (.registering k) => some (s.register t k)
      | some (.closing posted []) => some (s.closedAll t posted)
      | some (.closing posted (k :: rest)) =>
          some (s.closeNext t posted k rest)
  | .readDone _ k ec chunk =>
      if k < s.created ∧ 0 < (s.connection k).reading then
        some (s.readDone unpacker k chunk ec)
      else none
  | .dispatch t i =>
      s.tasks[i]?.map fun (k, msg) => s.dispatch mp t i k msg
  | .runStrand t k =>
      if k < s.created then
        match (s.connection k).writeStrand with
        | [] => none
        | task :: rest => some ((s.popStrand k rest).runTask mp t k task)
      else none
  | .written _ k i ec =>
      if k < s.created ∧ i < (s.connection k).writer.outstanding.length then
        some (s.written mp k i ec)
      else none
  | .closeSessions t => some (s.closeSessions t false)
  | .suppressExceptions suppress =>
      some { s with suppressException := suppress }

/-- The step of the server; nothing follows an escaped exception. -/
def step (s : State ω V Buf) (e : Event) : Option (State ω V Buf) :=
  if s.escaped = false ∧ s.admits e then freeStep mp unpacker disp s e
  else none

end Server
end RpcLib
