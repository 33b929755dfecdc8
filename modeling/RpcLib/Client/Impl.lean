import RpcLib.Foundation.WriteOnce
import RpcLib.Protocol.Response
import RpcLib.Transport.AsyncWriter

/-!
# `Client`: calls, the strand and the connection

`Client::impl` with the operations of `Client` on it.  One thread runs the
`io_context`, so every completion handler and every handler of the strand is
one step; the strand runs its handlers in the order in which they were posted.
A call is two steps of its own thread: `next_call_idx` with the packing, and
the posting of the handler that enters it into `ongoing_calls`.

A `std::promise` is a name for a cell of a write-once store, its shared state.
A promise whose cell is empty when it is destroyed leaves `broken_promise`
there.  An exception that escapes from a handler ends the `io_thread`, and
with it the process: no step follows.

`issued`, `ran`, `posted`, `handedOver`, `responses` and `flushed` are history:
the code never reads them.
-/

namespace RpcLib
namespace Client

open Protocol Transport Foundation

variable {Buf : Type} (mp : MsgPack Buf)

/-- What the shared state of a promise holds once it is ready. -/
inductive Outcome where
  /-- The object of a successful call. -/
  | value (result : Object)
  /-- `rpc::RpcError`. -/
  | rpcError (what funcName : String) (error : Object)
  /-- `std::future_error` with `promise_already_satisfied`. -/
  | alreadySatisfied
  /-- `std::future_error` with `broken_promise`. -/
  | brokenPromise

/-- A promise, by where it was made. -/
inductive PromiseId where
  /-- The promise of a call of `async_call`. -/
  | call (number : Nat)
  /-- The promise of an entry that `operator[]` created. -/
  | default (number : Nat)
  deriving DecidableEq

/-- The shared states of all promises. -/
abbrev Shared := PromiseId → Option Outcome

/-- `call_t`, the mapped type of `ongoing_calls`. -/
structure Entry where
  funcName : String
  promise : PromiseId

/-- One call of `async_call`: how many were made before it, its index, and
what it packs. -/
structure Call where
  number : Nat
  idx : Int32
  funcName : String
  args : List Object

/-- `Client::RequestType`. -/
inductive RequestType where
  | call
  | notification

def RequestType.value : RequestType → Int8
  | .call => 0
  | .notification => 2

/-- The message that `async_call` packs. -/
def Call.message (c : Call) : Object :=
  .array [.ofInt8 RequestType.call.value, .ofInt32 c.idx, .str c.funcName,
    .array c.args]

/-- The buffer that `async_call` posts. -/
def Call.buffer (c : Call) : Buf := mp.pack c.message

/-- The promise of the call and the name it was called by. -/
def Call.entry (c : Call) : Entry := ⟨c.funcName, .call c.number⟩

/-- The buffer that `notify` posts. -/
def notificationBuffer (funcName : String) (args : List Object) : Buf :=
  mp.pack (.array [.ofInt8 RequestType.notification.value, .str funcName,
    .array args])

/-- `Client::ConnectionState`. -/
inductive ConnectionState where
  | initial
  | connected
  | disconnected
  | reset
  deriving DecidableEq

/-- A handler posted to the strand. -/
inductive Task (Buf : Type) where
  /-- `Client::post` of a call. -/
  | insertCall (c : Call)
  /-- `Client::post` of a notification. -/
  | writeNotification (buffer : Buf)
  /-- Posted by the connect handler. -/
  | flushPending
  /-- Posted for each response. -/
  | eraseCall (id : UInt32)

/-- What can leave the read handler as an exception. -/
inductive ReadFailure where
  | typeError
  | alreadySatisfied
  deriving DecidableEq

/-- The exception that ended the process, by the handler it left. -/
inductive Escape where
  | connect
  | read (failure : ReadFailure)
  | write
  deriving DecidableEq

/-- `Client::impl`, the calls in the hands of their threads, and the
asynchronous operations in progress. -/
structure State (Buf : Type) where
  callIdx : Int32
  ongoingCalls : Int32 → Option Entry
  isConnected : Bool
  state : ConnectionState
  pendingCalls : List Buf
  writer : AsyncWriter Buf
  strand : List (Task Buf)
  /-- The `async_connect` operations in progress. -/
  connecting : Nat
  /-- The `async_read_some` operations in progress. -/
  reading : Nat
  shared : Shared
  /-- How many entries `operator[]` has created for a response. -/
  defaults : Nat
  /-- The calls that have an index and are not posted yet. -/
  drawn : List Call
  escaped : Option Escape
  /-- Every call, in the order of the indices. -/
  issued : List Call
  /-- The calls whose strand handler has run, in order. -/
  ran : List Call
  /-- The buffers of the operations posted to the strand, in order. -/
  posted : List Buf
  /-- The buffers handed to `AsyncWriter::write`, in order. -/
  handedOver : List Buf
  /-- The responses that the read handler has decoded, in order. -/
  responses : List Response
  /-- The flush posted by the connect handler has run. -/
  flushed : Bool

namespace State

/-- The state after the constructor of `Client`, which starts connecting. -/
def initial : State Buf where
  callIdx := 0
  ongoingCalls := fun _ => none
  isConnected := false
  state := .initial
  pendingCalls := []
  writer := .initial
  strand := []
  connecting := 1
  reading := 0
  shared := fun _ => none
  defaults := 0
  drawn := []
  escaped := none
  issued := []
  ran := []
  posted := []
  handedOver := []
  responses := []
  flushed := false

/-! ## Calls and notifications -/

/-- `async_call` up to its last step: `next_call_idx`, whose counter wraps,
and the packing. -/
def drawCall (s : State Buf) (funcName : String) (args : List Object) :
    State Buf :=
  let c : Call := ⟨s.issued.length, s.callIdx + 1, funcName, args⟩
  { s with
    callIdx := s.callIdx + 1
    drawn := s.drawn ++ [c]
    issued := s.issued ++ [c] }

/-- `Client::post` of the call at position `i` of the drawn ones. -/
def postCall (s : State Buf) (i : Nat) (c : Call) : State Buf :=
  { s with
    drawn := s.drawn.eraseIdx i
    strand := s.strand ++ [.insertCall c]
    posted := s.posted ++ [c.buffer mp] }

/-- `Client::notify`. -/
def notify (s : State Buf) (funcName : String) (args : List Object) :
    State Buf :=
  let buffer := notificationBuffer mp funcName args
  { s with
    strand := s.strand ++ [.writeNotification buffer]
    posted := s.posted ++ [buffer] }

/-! ## Handlers of the strand -/

/-- `Client::impl::write`. -/
def write (s : State Buf) (item : Buf) : State Buf :=
  { s with
    writer := (s.writer.write mp item).1
    handedOver := s.handedOver ++ [item] }

/-- Write every buffer of a list in turn; what is left of the buffers stays in
the list. -/
def writeEach (writer : AsyncWriter Buf) :
    List Buf → AsyncWriter Buf × List Buf
  | [] => (writer, [])
  | item :: items =>
      let (writer, left) := writer.write mp item
      let (writer, lefts) := writeEach writer items
      (writer, left :: lefts)

/-- The loop over `pending_calls`, which the code never clears. -/
def writePending (s : State Buf) : State Buf :=
  { s with
    writer := (writeEach mp s.writer s.pendingCalls).1
    pendingCalls := (writeEach mp s.writer s.pendingCalls).2
    handedOver := s.handedOver ++ s.pendingCalls }

/-- The destruction of the promise of an entry. -/
def abandon (shared : Shared) : Option Entry → Shared
  | none => shared
  | some entry => WriteOnce.fill shared entry.promise .brokenPromise

/-- `ongoing_calls[idx] = std::make_pair(func_name, std::move(*p))`.  The
assignment destroys the promise of an entry that was there.  The promise of an
entry that `operator[]` creates here is gone at once and nobody holds its
future, so it is left out. -/
def enterCall (s : State Buf) (c : Call) : State Buf :=
  { s with
    shared := abandon s.shared (s.ongoingCalls c.idx)
    ongoingCalls := Function.update s.ongoingCalls c.idx (some c.entry)
    ran := s.ran ++ [c] }

/-- The handler posted by `Client::post` of a call. -/
def insertCall (s : State Buf) (c : Call) : State Buf :=
  let s := s.enterCall c
  -- every later call writes the whole list again
  if s.isConnected then (s.writePending mp).write mp (c.buffer mp)
  else { s with pendingCalls := s.pendingCalls ++ [c.buffer mp] }

/-- The handler posted by the connect handler. -/
def flushPending (s : State Buf) : State Buf :=
  { s.writePending mp with flushed := true }

/-- `ongoing_calls.erase(id)`; the key is the `uint32_t` id as an `int`. -/
def eraseCall (s : State Buf) (id : UInt32) : State Buf :=
  { s with
    shared := abandon s.shared (s.ongoingCalls id.toInt32)
    ongoingCalls := Function.update s.ongoingCalls id.toInt32 none }

/-- Run one handler of the strand. -/
def runTask (s : State Buf) : Task Buf → State Buf
  | .insertCall c => s.insertCall mp c
  | .writeNotification buffer => s.write mp buffer
  | .flushPending => s.flushPending mp
  | .eraseCall id => s.eraseCall id

/-! ## Connecting -/

/-- The connect handler without an error. -/
def connected (s : State Buf) : State Buf :=
  { s with
    connecting := s.connecting - 1
    isConnected := true
    state := .connected
    strand := s.strand ++ [.flushPending]
    reading := s.reading + 1 }

/-- The connect handler with an error after which `reconnectable` declines. -/
def refused (s : State Buf) : State Buf :=
  { s with
    connecting := s.connecting - 1
    state := .disconnected
    escaped := some .connect }

/-! ## Reading -/

/-- `ongoing_calls[id]`, which creates an entry where there is none. -/
def currentCall (s : State Buf) (key : Int32) : State Buf × Entry :=
  match s.ongoingCalls key with
  | some entry => (s, entry)
  | none =>
      let entry : Entry := ⟨"", .default s.defaults⟩
      ({ s with
          ongoingCalls := Function.update s.ongoingCalls key (some entry)
          defaults := s.defaults + 1 }, entry)

/-- What the read handler puts into the promise of an entry. -/
def outcomeOf (response : Response) (funcName : String) : Outcome :=
  match response.error with
  | some error => .rpcError "rpc::RpcError during call" funcName error
  | none => .value (response.result.getD .nil)

/-- The `try` statement of the read handler: `set_value`, or a thrown
`RpcError`; whatever is thrown goes to `set_exception`.  `none` when that
throws as well. -/
def satisfy (shared : Shared) (entry : Entry) (response : Response) :
    Option Shared :=
  match response.error with
  | some _ =>
      WriteOnce.put shared entry.promise (outcomeOf response entry.funcName)
  | none =>
      match WriteOnce.put shared entry.promise
        (outcomeOf response entry.funcName) with
      | some shared => some shared
      -- `set_value` has thrown, and its exception goes to the same promise
      | none => WriteOnce.put shared entry.promise .alreadySatisfied

/-- One round of the loop of the read handler. -/
def handleResponse (s : State Buf) (obj : Object) : State Buf :=
  match Response.ofHandle mp obj with
  | none => { s with escaped := some (.read .typeError) }
  | some response =>
      -- the `uint32_t` id becomes the `int` key
      let (s, entry) := s.currentCall response.id.toInt32
      let s := { s with responses := s.responses ++ [response] }
      match satisfy s.shared entry response with
      | some shared =>
          { s with
            shared := shared
            strand := s.strand ++ [.eraseCall response.id] }
      | none => { s with escaped := some (.read .alreadySatisfied) }

/-- The loop of the read handler over the objects that a chunk completes. -/
def handleResponses (s : State Buf) : List Object → State Buf
  | [] => s
  | obj :: objs =>
      let s := s.handleResponse mp obj
      -- an exception leaves the loop, and the rest of the chunk is not read
      if s.escaped.isSome then s else handleResponses s objs

/-- The read handler.  On success it reads on, unless an exception has
escaped; no error code starts another read. -/
def readDone (s : State Buf) (objs : List Object) : ErrorCode → State Buf
  | .success =>
      let s := { s with reading := s.reading - 1 }.handleResponses mp objs
      if s.escaped.isSome then s else { s with reading := s.reading + 1 }
  | .eof => { s with reading := s.reading - 1, state := .disconnected }
  | .connectionReset =>
      { s with reading := s.reading - 1, state := .disconnected }
  | _ => { s with reading := s.reading - 1 }

/-- The completion of the `i`-th `async_write` of the writer. -/
def writeDone (s : State Buf) (i : Nat) (ec : ErrorCode) : State Buf :=
  let completed := (s.writer.taken i).onWritten mp ec
  { s with
    writer := completed.1
    escaped := if completed.2 then some .write else s.escaped }

end State

/-! ## The transition system -/

/-- What can happen next: a thread draws an index, posts a drawn call or
notifies, the strand runs its first handler, or an asynchronous operation
completes.  `connectFailed` carries the answer of `reconnectable`. -/
inductive Event where
  | draw (funcName : String) (args : List Object)
  | post (i : Nat)
  | notify (funcName : String) (args : List Object)
  | runStrand
  | connectDone
  | connectFailed (again : Bool)
  | readDone (ec : ErrorCode) (objs : List Object)
  | writeDone (i : Nat) (ec : ErrorCode)

/-- The step of a process that has not ended. -/
def liveStep (s : State Buf) : Event → Option (State Buf)
  | .draw funcName args => some (s.drawCall funcName args)
  | .post i => s.drawn[i]?.map (s.postCall mp i)
  | .notify funcName args => some (s.notify mp funcName args)
  | .runStrand =>
      match s.strand with
      | [] => none
      | task :: rest => some ({ s with strand := rest }.runTask mp task)
  | .connectDone => if 0 < s.connecting then some s.connected else none
  | .connectFailed again =>
      if 0 < s.connecting then some (if again then s else s.refused) else none
  | .readDone ec objs =>
      if 0 < s.reading then some (s.readDone mp objs ec) else none
  | .writeDone i ec =>
      if i < s.writer.outstanding.length then some (s.writeDone mp i ec)
      else none

/-- The step of the client; nothing follows an escaped exception. -/
def step (s : State Buf) (e : Event) : Option (State Buf) :=
  if s.escaped.isSome then none else liveStep mp s e

end Client
end RpcLib
