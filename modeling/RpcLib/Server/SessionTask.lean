import RpcLib.Server.DispatchSpec

/-!
# The dispatch task of a session

The task that `ServerSession::do_read` posts for every decoded message: reset
the thread-local objects, dispatch, and decide from what the handler left
behind what to post to the write strand.

* `dispatchTask_replies`: a message causes exactly one write, with its own id,
  when it is a request and responses are enabled at the end, and none
  otherwise, whatever earlier dispatches left on the thread.
* `outcomePrecedence_iff`: the frame of a request carries the handler's
  outcome as the session's comments promise, except after `respond(v)`.
-/

namespace RpcLib
namespace Server

open Protocol

variable {ω V Buf : Type} (mp : MsgPack Buf)

/-- What the dispatch task reads of its `ServerSession`. -/
structure ServerSession (ω V : Type) where
  /-- The session's address, which is its id. -/
  id : SessionId
  disp : Dispatcher ω V
  suppressExceptions : Bool

/-- A handler posted to the write strand by the dispatch task. -/
inductive Posted where
  /-- `write(resp.data())`. -/
  | write (resp : Response)
  /-- `close()`. -/
  | close
  /-- `parent_->close_sessions()`. -/
  | closeSessions

namespace ServerSession

/-- The thread-local objects are reset before a dispatch. -/
def prepare (session : ServerSession ω V) (w : Worker ω V) : Worker ω V :=
  { w with
    thisHandler := w.thisHandler.clear
    thisSession := { exit := false, id := session.id }
    thisServer := { stopping := false } }

/-- The error or special result set in the handler takes precedence over what
the dispatch returned. -/
def answer (handler : ThisHandler) (resp : Response) : Response :=
  if handler.error.isNil = false then resp.captureError handler.error
  else if handler.resp.isNil = false then resp.captureResult handler.resp
  else resp

/-- The precedence ladder at the end of the task. -/
def posts (w : Worker ω V) (resp : Response) : List Posted :=
  if w.thisHandler.respEnabled = false then []
  else
    let resp := answer w.thisHandler resp
    (if resp.empty then [] else [.write resp]) ++
      (if w.thisSession.exit then [.close] else []) ++
      (if w.thisServer.stopping then [.closeSessions] else [])

/-- The task posted to the `io_context` for a decoded message. -/
def dispatchTask (session : ServerSession ω V) (msgObj : Object) :
    DispatchM ω V (List Posted) := do
  DispatchM.modifyWorker session.prepare
  let resp ← session.disp.dispatch mp msgObj session.suppressExceptions
  let w ← DispatchM.getWorker
  return posts w resp

/-- The task is the dispatch from a prepared thread, followed by the ladder. -/
theorem dispatchTask_exec (session : ServerSession ω V) (msgObj : Object)
    (w : Worker ω V) :
    (session.dispatchTask mp msgObj).exec w =
      match (session.disp.dispatch mp msgObj session.suppressExceptions).exec
        (session.prepare w) with
      | (.ok resp, w') => (.ok (posts w' resp), w')
      | (.error e, w') => (.error e, w') := by
  unfold dispatchTask
  rw [DispatchM.exec_bind, DispatchM.exec_modifyWorker]
  show DispatchM.exec
    (session.disp.dispatch mp msgObj session.suppressExceptions >>= _)
    (session.prepare w) = _
  rw [DispatchM.exec_bind]
  rcases (session.disp.dispatch mp msgObj session.suppressExceptions).exec
    (session.prepare w) with ⟨e | resp, w'⟩
  · rfl
  · rfl

/-- The ids of the frames among the posted handlers. -/
def replyIds (posted : List Posted) : List UInt32 :=
  posted.filterMap fun
    | .write resp => some resp.id
    | _ => none

/-- The frames among the posted handlers. -/
def replyFrames (posted : List Posted) : List Object :=
  posted.filterMap fun
    | .write resp => some resp.frame
    | _ => none

@[simp] theorem answer_id (handler : ThisHandler) (resp : Response) :
    (answer handler resp).id = resp.id := by
  unfold answer
  split
  · rfl
  · split <;> rfl

/-- `capture_error` and `capture_result` do not make an empty response one
that is sent, nor the other way round. -/
@[simp] theorem answer_empty (handler : ThisHandler) (resp : Response) :
    (answer handler resp).empty = resp.empty := by
  unfold answer
  split
  · rfl
  · split <;> rfl

theorem replyIds_posts (w : Worker ω V) (resp : Response) :
    replyIds (posts w resp) =
      if w.thisHandler.respEnabled = true ∧ resp.empty = false then [resp.id]
      else [] := by
  unfold posts replyIds
  cases w.thisHandler.respEnabled <;> cases hempty : resp.empty <;>
    cases w.thisSession.exit <;> cases w.thisServer.stopping <;>
    simp [hempty]

theorem replyFrames_posts (w : Worker ω V) (resp : Response) :
    replyFrames (posts w resp) =
      if w.thisHandler.respEnabled = true ∧ resp.empty = false then
        [(answer w.thisHandler resp).frame]
      else [] := by
  unfold posts replyFrames
  cases w.thisHandler.respEnabled <;> cases hempty : resp.empty <;>
    cases w.thisSession.exit <;> cases w.thisServer.stopping <;>
    simp [hempty]

/-! ## One reply to a request, none to anything else -/

/-- The decoded messages that are arrays, with the id of those that are
requests: a request, a notification, or an array of another size. -/
inductive Message (mp : MsgPack Buf) : Object → Option Int32 → Prop
  | request {code id name args : Object} {requestId : Int32}
      (hcode : (mp.int8 code).isSome) (hid : mp.int32 id = some requestId)
      (hname : (mp.string name).isSome) :
      Message mp (.array [code, id, name, args]) (some requestId)
  | notification {code name args : Object} (hcode : (mp.int8 code).isSome)
      (hname : (mp.string name).isSome) :
      Message mp (.array [code, name, args]) none
  | otherSize {elements : List Object} (hthree : elements.length ≠ 3)
      (hfour : elements.length ≠ 4) : Message mp (.array elements) none

/-- The ids of the frames that a message is due. -/
def dueReplies : Option Int32 → Bool → List UInt32
  | some requestId, true => [requestId.toUInt32]
  | _, _ => []

/-- A dispatch of a message returns, and the response is empty unless the
message is a request, whose id it then carries. -/
theorem dispatch_message {msg : Object} {request : Option Int32}
    (hmsg : Message mp msg request) (d : Dispatcher ω V) (w : Worker ω V) :
    ∃ resp w', (d.dispatch mp msg true).exec w = (.ok resp, w') ∧
      match request with
      | some requestId => resp.id = requestId.toUInt32 ∧ resp.empty = false
      | none => resp.empty = true := by
  cases hmsg with
  | @request code id name args requestId hcode hid hname =>
      obtain ⟨code', hcode'⟩ := Option.isSome_iff_exists.mp hcode
      obtain ⟨name', hname'⟩ := Option.isSome_iff_exists.mp hname
      have htuple : mp.callTuple (.array [code, id, name, args]) =
          some (code', requestId, name', args) := by
        simp [hcode', hid, hname']
      have hsize : mp.arraySize (.array [code, id, name, args]) = 4 := by simp
      rw [Dispatcher.dispatch_of_size_four mp hsize]
      exact Dispatcher.dispatchCall_answers mp htuple w
  | @notification code name args hcode hname =>
      obtain ⟨code', hcode'⟩ := Option.isSome_iff_exists.mp hcode
      obtain ⟨name', hname'⟩ := Option.isSome_iff_exists.mp hname
      have htuple : mp.notificationTuple (.array [code, name, args]) =
          some (code', name', args) := by
        simp [hcode', hname']
      have hsize : mp.arraySize (.array [code, name, args]) = 3 := by simp
      rw [Dispatcher.dispatch_of_size_three mp hsize]
      obtain ⟨w', hexec⟩ :=
        Dispatcher.dispatchNotification_returns (d := d) mp htuple w
      exact ⟨_, w', hexec, rfl⟩
  | @otherSize elements hthree hfour =>
      exact ⟨_, w, Dispatcher.dispatch_exec_of_other_size mp
        (by simpa using hthree) (by simpa using hfour) true w, rfl⟩

/-- The session task posts exactly one write, with the id of the message, when
the message is a request and responses are enabled at the end, and no write in
every other case.  What earlier dispatches left in the thread-local objects
has no effect on the task. -/
theorem dispatchTask_replies {msg : Object} {request : Option Int32}
    (hmsg : Message mp msg request) (session : ServerSession ω V)
    (hsuppress : session.suppressExceptions = true) (w : Worker ω V) :
    (∃ posted w', (session.dispatchTask mp msg).exec w = (.ok posted, w') ∧
      replyIds posted = dueReplies request w'.thisHandler.respEnabled) ∧
    ∀ handler thisSession server,
      (session.dispatchTask mp msg).exec
        { w with
          thisHandler := handler
          thisSession := thisSession
          thisServer := server } = (session.dispatchTask mp msg).exec w := by
  constructor
  · obtain ⟨resp, w', hexec, hresp⟩ :=
      dispatch_message mp hmsg session.disp (session.prepare w)
    refine ⟨posts w' resp, w', ?_, ?_⟩
    · rw [dispatchTask_exec, hsuppress, hexec]
    · rw [replyIds_posts]
      cases request with
      | none => simp_all [dueReplies]
      | some requestId =>
          obtain ⟨hid, hempty⟩ := hresp
          cases henabled : w'.thisHandler.respEnabled <;>
            simp [dueReplies, hid, hempty]
  · intro handler thisSession server
    rw [dispatchTask_exec, dispatchTask_exec]
    rfl

/-- A functor without parameters and result whose calls all end the same way. -/
def constantFunctor (handlerRun : HandlerRun) : Functor Unit Unit :=
  ⟨[], true, fun _ _ _ => ((), handlerRun)⟩

/-- A session with one such functor, bound to the name `f`. -/
def constantSession (handlerRun : HandlerRun) : ServerSession Unit Unit :=
  ⟨1, ⟨AList.singleton "f" (constantFunctor handlerRun)⟩, true⟩

/-- A worker thread on which an earlier handler set an error, disabled the
response and asked for a stop. -/
def usedWorker : Worker Unit Unit :=
  ⟨(), ⟨.str "old", .nil, false⟩, ⟨true, 9⟩, ⟨true⟩, []⟩

/-- A notification whose handler calls `respond` is not answered, on a thread
that an earlier handler left in disorder. -/
theorem dispatchTask_replies_responding_notification :
    ∃ posted w',
      ((constantSession ⟨[], .responded (.str "x")⟩).dispatchTask .reference
        (.array [.ofInt8 2, .str "f", .array []])).exec usedWorker =
          (.ok posted, w') ∧
      replyIds posted = [] := by
  have hmsg : Message .reference
      (.array [.ofInt8 2, .str "f", .array []]) none := .notification rfl rfl
  obtain ⟨⟨posted, w', hexec, hreplies⟩, -⟩ :=
    dispatchTask_replies .reference hmsg
      (constantSession ⟨[], .responded (.str "x")⟩) rfl usedWorker
  exact ⟨posted, w', hexec, hreplies⟩

/-! ## The precedence of a handler's outcome -/

/-- The handler let no call of `respond` or `respond_error` pass before it
ended. -/
def CalledNeither (handlerRun : HandlerRun) : Prop :=
  ∀ action ∈ handlerRun.actions, ∀ v,
    action ≠ .caughtRespond v ∧ action ≠ .caughtRespondError v

/-- The state in which the handler that `func` runs starts. -/
def handlerStart (session : ServerSession ω V) (func : Functor ω V)
    (name : String) (vals : List V) (w : Worker ω V) : Worker ω V :=
  { session.prepare w with
    app := (func.body w.app session.id vals).1
    invocations := w.invocations ++ [(name, vals)] }

/-- The run of the handler that `func` describes in this session. -/
def handlerRun (session : ServerSession ω V) (func : Functor ω V)
    (vals : List V) (w : Worker ω V) : HandlerRun :=
  (func.body w.app session.id vals).2

theorem invoke_prepared (session : ServerSession ω V) (func : Functor ω V)
    (name : String) (vals : List V) (w : Worker ω V) :
    (func.invoke name vals).exec (session.prepare w) =
      (session.handlerRun func vals w).perform
        (session.handlerStart func name vals w) := rfl

/-- The frames that the session posts for a message. -/
def sentFrames (session : ServerSession ω V) (msg : Object)
    (w : Worker ω V) : List Object :=
  match ((session.dispatchTask mp msg).exec w).1 with
  | .ok posted => replyFrames posted
  | .error _ => []

/-- What the comments of the session task promise for the frame of a request:
the error set in the handler, else the special result, else what it
returned. -/
structure OutcomePrecedence (session : ServerSession ω V) (msg : Object)
    (id : UInt32) (func : Functor ω V) (vals : List V) (w : Worker ω V) :
    Prop where
  onRespondedError : ∀ v,
    (session.handlerRun func vals w).outcome = .respondedError v →
    v ≠ .nil →
    session.sentFrames mp msg w =
      [.array [.ofUInt32 1, .ofUInt32 id, v, .nil]]
  onResponded : ∀ v,
    (session.handlerRun func vals w).outcome = .responded v → v ≠ .nil →
    session.sentFrames mp msg w =
      [.array [.ofUInt32 1, .ofUInt32 id, .nil, v]] ∧
    ∃ frame ∈ session.sentFrames mp msg w,
      Response.ofHandle mp frame = some ⟨id, none, some v, false⟩
  onReturned : ∀ r,
    (session.handlerRun func vals w).outcome = .returned r →
    CalledNeither (session.handlerRun func vals w) →
    session.sentFrames mp msg w =
      [.array [.ofUInt32 1, .ofUInt32 id, .nil, func.packResult r]]

/-- Without a caught `respond` nothing is stored in the handler object. -/
theorem actions_store_nothing {actions : List HandlerAction}
    (hneither : ∀ action ∈ actions, ∀ v,
      action ≠ .caughtRespond v ∧ action ≠ .caughtRespondError v)
    {w : Worker ω V} (herror : w.thisHandler.error = .nil)
    (hresp : w.thisHandler.resp = .nil) :
    (actions.foldl HandlerAction.perform w).thisHandler.error = .nil ∧
      (actions.foldl HandlerAction.perform w).thisHandler.resp = .nil := by
  induction actions generalizing w with
  | nil => exact ⟨herror, hresp⟩
  | cons action actions ih =>
      have hhead := hneither action List.mem_cons_self
      have htail : ∀ a ∈ actions, ∀ v,
          a ≠ .caughtRespond v ∧ a ≠ .caughtRespondError v :=
        fun a ha => hneither a (List.mem_cons_of_mem _ ha)
      rw [List.foldl_cons]
      apply ih htail
      · cases action with
        | clear => rfl
        | caughtRespondError v => exact absurd rfl (hhead v).2
        | _ => exact herror
      · cases action with
        | clear => rfl
        | caughtRespond v => exact absurd rfl (hhead v).1
        | _ => exact hresp

section Precedence

variable {session : ServerSession ω V} {func : Functor ω V}
  {code id args : Object} {code' : Int8} {id' : Int32} {name : String}
  {vals : List V} {w : Worker ω V}

/-- The task for a request whose handler runs, from what the handler's run
makes of the worker thread. -/
theorem dispatchTask_exec_of_run (hcode : mp.int8 code = some code')
    (hid : mp.int32 id = some id')
    (hbound : session.disp.funcs.lookup name = some func)
    (hargs : func.readArgs mp name args = .ok vals) :
    (session.dispatchTask mp (.array [code, id, .str name, args])).exec w =
      match (session.handlerRun func vals w).perform
        (session.handlerStart func name vals w) with
      | (.ok r, w') =>
          (.ok (posts w' (.makeResultHandle id'.toUInt32
            (some (func.packResult r)))), w')
      | (.error e, w') =>
          match Dispatcher.callFailure session.suppressExceptions
            id'.toUInt32 name (mp.arraySize args) 4 e with
          | .ok resp => (.ok (posts w' resp), w')
          | .error e => (.error e, w') := by
  have htuple : mp.callTuple (.array [code, id, .str name, args]) =
      some (code', id', name, args) := by
    simp [hcode, hid]
  have hsize : mp.arraySize (.array [code, id, .str name, args]) = 4 := by
    simp
  rw [dispatchTask_exec, Dispatcher.dispatch_of_size_four mp hsize,
    Dispatcher.dispatchCall_exec_bound mp htuple hbound,
    Functor.adaptor_exec, hargs]
  unfold Functor.invokeAndPack
  simp only [invoke_prepared, hsize]
  rcases (session.handlerRun func vals w).perform
    (session.handlerStart func name vals w) with ⟨e | r, w'⟩
  · dsimp only
    rcases Dispatcher.callFailure session.suppressExceptions id'.toUInt32 name
      (mp.arraySize args) 4 e with _ | _ <;> rfl
  · rfl

/-- The frames of a task that ends normally with responses enabled and a
response to send. -/
theorem sentFrames_of_exec {msg : Object} {resp : Response}
    {w' : Worker ω V}
    (hexec : (session.dispatchTask mp msg).exec w = (.ok (posts w' resp), w'))
    (henabled : ((session.dispatchTask mp msg).exec w).2.thisHandler.respEnabled
      = true)
    (hsent : resp.empty = false) :
    session.sentFrames mp msg w = [(answer w'.thisHandler resp).frame] := by
  have hresponds : w'.thisHandler.respEnabled = true := by
    rw [hexec] at henabled
    exact henabled
  unfold sentFrames
  rw [hexec]
  simp [replyFrames_posts, hresponds, hsent]

/-- The error set in the handler replaces the error of the response. -/
theorem answer_of_error {handler : ThisHandler} (resp : Response)
    (herror : handler.error ≠ .nil) :
    answer handler resp = resp.captureError handler.error := by
  unfold answer
  rw [if_pos ((Object.isNil_eq_false_iff _).mpr herror)]

/-- An error response stays one: the special result only joins the error. -/
theorem answer_makeError_error (handler : ThisHandler) (id : UInt32)
    (text : String) :
    (answer handler (.makeError id (.str text))).error.getD .nil ≠ .nil := by
  unfold answer
  split
  · rename_i herror
    simpa [Object.isNil_eq_false_iff] using herror
  · split <;> simp

/-- The three promises of the session task hold for a request whose handler
runs, with responses enabled at the end, exactly when the handler does not end
by `respond` with an object that is not nil. -/
theorem outcomePrecedence_iff (hcode : mp.int8 code = some code')
    (hid : mp.int32 id = some id')
    (hbound : session.disp.funcs.lookup name = some func)
    (hargs : func.readArgs mp name args = .ok vals)
    (henabled : ((session.dispatchTask mp
      (.array [code, id, .str name, args])).exec w).2.thisHandler.respEnabled
        = true) :
    session.OutcomePrecedence mp (.array [code, id, .str name, args])
      id'.toUInt32 func vals w ↔
    ∀ v, (session.handlerRun func vals w).outcome = .responded v →
      v = .nil := by
  have hexec := dispatchTask_exec_of_run mp (w := w) hcode hid hbound hargs
  unfold HandlerRun.perform at hexec
  constructor
  · intro hprecedence v houtcome
    by_contra hne
    rw [houtcome] at hexec
    -- the swallowed exception leaves the not-found error in the response
    have hframes := sentFrames_of_exec mp hexec henabled rfl
    rw [(hprecedence.onResponded v houtcome hne).1] at hframes
    have herror := answer_makeError_error
      { (List.foldl HandlerAction.perform
          (session.handlerStart func name vals w)
          (session.handlerRun func vals w).actions).thisHandler with
        resp := v } id'.toUInt32
      ("rpclib: server could not find function '" ++ name ++
        "' wtith argument count " ++ toString 4 ++ ".")
    simp only [List.cons.injEq, Response.frame, Object.array.injEq] at hframes
    exact herror hframes.1.2.2.1.symm
  · intro hnot
    refine ⟨?_, ?_, ?_⟩
    · intro v houtcome hne
      rw [houtcome] at hexec
      -- `capture_error` replaces the not-found error
      rw [sentFrames_of_exec mp hexec henabled rfl,
        answer_of_error _ (by exact hne)]
      rfl
    · intro v houtcome hne
      exact absurd (hnot v houtcome) hne
    · intro r houtcome hneither
      rw [houtcome] at hexec
      -- neither special object is set, so the response goes out as it is
      have hstored := actions_store_nothing hneither
        (w := session.handlerStart func name vals w) rfl rfl
      rw [sentFrames_of_exec mp hexec henabled rfl]
      simp [answer, hstored, Response.frame, Response.makeResultHandle,
        Response.init]

end Precedence

/-- The session sends a handler's `respond("x")` together with the not-found
error, and a client decodes an error. -/
theorem respond_is_sent_as_error :
    ¬ (constantSession ⟨[], .responded (.str "x")⟩).OutcomePrecedence
        .reference (.array [.ofInt8 0, .ofInt32 1, .str "f", .array []]) 1
        (constantFunctor ⟨[], .responded (.str "x")⟩) [] usedWorker ∧
      (constantSession ⟨[], .responded (.str "x")⟩).sentFrames .reference
        (.array [.ofInt8 0, .ofInt32 1, .str "f", .array []]) usedWorker =
        [.array [.ofUInt32 1, .ofUInt32 1, .str ("rpclib: server could not " ++
          "find function 'f' wtith argument count 4."), .str "x"]] := by
  have hframes : (constantSession ⟨[], .responded (.str "x")⟩).sentFrames
      .reference (.array [.ofInt8 0, .ofInt32 1, .str "f", .array []])
      usedWorker =
        [.array [.ofUInt32 1, .ofUInt32 1, .str ("rpclib: server could not " ++
          "find function 'f' wtith argument count 4."), .str "x"]] := by
    rfl
  refine ⟨fun hprecedence => ?_, hframes⟩
  have hpromised := (hprecedence.onResponded (.str "x") rfl (by simp)).1
  rw [hframes] at hpromised
  simp at hpromised

/-- A handler that ends by `respond_error("no")` gets the frame it asked
for. -/
theorem outcomePrecedence_iff_respond_error :
    (constantSession ⟨[.stop], .respondedError (.str "no")⟩).OutcomePrecedence
      .reference (.array [.ofInt8 0, .ofInt32 1, .str "f", .array []]) 1
      (constantFunctor ⟨[.stop], .respondedError (.str "no")⟩) []
      usedWorker ↔
    ∀ v, Outcome.respondedError (.str "no") = .responded v → v = .nil :=
  outcomePrecedence_iff .reference rfl rfl rfl rfl rfl

end ServerSession
end Server
end RpcLib
