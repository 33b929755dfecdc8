import RpcLib.Client.CallTable
import RpcLib.Server.ArgumentCheck

/-!
# What a call comes to, end to end

`roundTrip` puts the two sides together for one call: the buffer that
`async_call` packs is unpacked and dispatched with exceptions suppressed, the
response is packed by `Response::data`, and the read handler of the client
handles what it unpacks.  The session in between is left out: the results are
about handlers that leave `this_handler()` alone.

`call_semantics`: the promise of the call, and no other, gets the result of
the functor, or an `RpcError` with the name of the call when no functor ran or
it did not return.
-/

namespace RpcLib
namespace System

open Protocol Server Client

variable {ω V Buf : Type} (mp : MsgPack Buf)

/-- One call through server and client.  `none` would mean that a buffer does
not unpack or that an exception leaves the dispatcher. -/
def roundTrip (d : Dispatcher ω V) (c : Call) (w : Worker ω V)
    (s : State Buf) : Option (State Buf × Worker ω V) :=
  (mp.unpack (c.buffer mp)).bind fun msg =>
    match (d.dispatch mp msg true).exec w with
    | (.ok resp, w') =>
        (mp.unpack (resp.data mp)).map fun obj => (s.handleResponse mp obj, w')
    | (.error _, _) => none

/-! ## The two sides -/

/-- The server reads the message of a call as a call with the same index, name
and arguments. -/
theorem callTuple_message (c : Call) :
    mp.callTuple c.message =
      some (RequestType.call.value, c.idx, c.funcName, .array c.args) := by
  simp [Call.message]

theorem dispatch_message_exec {d : Dispatcher ω V} {c : Call}
    (w : Worker ω V) :
    (d.dispatch mp c.message true).exec w =
      (d.dispatchCall mp c.message true).exec w := by
  have hsize : mp.arraySize c.message = 4 := by simp [Call.message]
  rw [Dispatcher.dispatch_of_size_four mp hsize]

/-- What the client makes of a response: the outcome for the promise. -/
def outcomeOfResponse (resp : Response) (funcName : String) :
    Client.Outcome :=
  State.outcomeOf { Response.init with
    id := resp.id
    error := if (resp.error.getD .nil).isNil then none
      else some (resp.error.getD .nil)
    result := some (resp.result.getD .nil) } funcName

/-- A response with the index of a waiting call satisfies the promise of that
call and touches no other promise. -/
theorem roundTrip_of_response {d : Dispatcher ω V} {c : Call}
    {w w' : Worker ω V} {s : State Buf} {resp : Response}
    (hdispatch : (d.dispatch mp c.message true).exec w = (.ok resp, w'))
    (hid : resp.id = c.idx.toUInt32)
    (hentry : s.ongoingCalls c.idx = some c.entry)
    (hempty : s.shared (.call c.number) = none) :
    ∃ s', roundTrip mp d c w s = some (s', w') ∧
      s'.escaped = s.escaped ∧
      (∀ p, p ≠ .call c.number → s'.shared p = s.shared p) ∧
      s'.shared (.call c.number) =
        some (outcomeOfResponse resp c.funcName) := by
  have hunpack : mp.unpack (c.buffer mp) = some c.message := by
    simp [Call.buffer]
  obtain ⟨obj, hobj, hdecoded⟩ :=
    Option.bind_eq_some_iff.mp (Response.ofHandle_data mp resp)
  have hkey : resp.id.toInt32 = c.idx := by
    rw [hid, Int32.toInt32_toUInt32]
  have hcurrent : s.currentCall resp.id.toInt32 = (s, c.entry) := by
    unfold State.currentCall
    rw [hkey, hentry]
  have hhandled := handleResponse_of_empty mp hdecoded
    (s := s) (by rw [hcurrent]; exact hempty)
  rw [hcurrent] at hhandled
  refine ⟨s.handleResponse mp obj, ?_, ?_, ?_, ?_⟩
  · unfold roundTrip
    simp only [hunpack, Option.bind_some, hdispatch, hobj, Option.map_some]
  · rw [hhandled]
    rfl
  · intro p hp
    rw [hhandled]
    exact Function.update_of_ne hp _ _
  · rw [hhandled]
    exact Function.update_self ..

/-! ## The three ends of a call -/

/-- The promise of the call holds an `RpcError` with the name of the call and
an error that is not nil. -/
def Failed (s : State Buf) (c : Call) : Prop :=
  ∃ what error, s.shared (.call c.number) =
    some (.rpcError what c.funcName error) ∧ error ≠ .nil

/-- An error response with a text is an `RpcError` for the client. -/
theorem failed_of_makeError {s : State Buf} {c : Call} {id : UInt32}
    {text : String}
    (hshared : s.shared (.call c.number) =
      some (outcomeOfResponse (.makeError id (.str text)) c.funcName)) :
    Failed s c :=
  ⟨_, .str text, by simpa [outcomeOfResponse, State.outcomeOf] using hshared,
    by simp⟩

/-- The dispatch of a call whose functor runs and returns. -/
theorem dispatch_of_returned {d : Dispatcher ω V} {c : Call}
    {func : Functor ω V} {vals : List V} {r : Object} {w : Worker ω V}
    (hbound : d.funcs.lookup c.funcName = some func)
    (hargs : func.readArgs mp c.funcName (.array c.args) = .ok vals)
    (hreturned : (func.body w.app w.thisSession.id vals).2.outcome =
      .returned r) :
    ∃ w', (d.dispatch mp c.message true).exec w =
        (.ok (.makeResultHandle c.idx.toUInt32 (some (func.packResult r))),
          w') ∧
      w'.invocations = w.invocations ++ [(c.funcName, vals)] := by
  have hframe := actions_frame (func.body w.app w.thisSession.id vals).2.actions
    { w with
      app := (func.body w.app w.thisSession.id vals).1
      invocations := w.invocations ++ [(c.funcName, vals)] }
  refine ⟨_, ?_, hframe.2⟩
  rw [dispatch_message_exec,
    Dispatcher.dispatchCall_exec_bound mp (callTuple_message mp c) hbound,
    Functor.adaptor_exec, hargs]
  simp only [Functor.invokeAndPack, Functor.exec_invoke,
    perform_of_returned hreturned]

/-- The dispatch of a call whose adaptor throws before the functor runs. -/
theorem dispatch_of_unread {d : Dispatcher ω V} {c : Call}
    {func : Functor ω V} {e : Exn} (w : Worker ω V)
    (hbound : d.funcs.lookup c.funcName = some func)
    (hargs : func.readArgs mp c.funcName (.array c.args) = .error e) :
    ∃ text, (d.dispatch mp c.message true).exec w =
      (.ok (.makeError c.idx.toUInt32 (.str text)), w) := by
  obtain ⟨text, hfailure⟩ := Dispatcher.callFailure_suppressed
    c.idx.toUInt32 c.funcName (mp.arraySize (.array c.args))
    (mp.arraySize c.message) e
  refine ⟨text, ?_⟩
  rw [dispatch_message_exec,
    Dispatcher.dispatchCall_exec_bound mp (callTuple_message mp c) hbound,
    Functor.adaptor_exec, hargs]
  simp only [hfailure]

/-- The dispatch of a call whose functor throws. -/
theorem dispatch_of_threw {d : Dispatcher ω V} {c : Call}
    {func : Functor ω V} {vals : List V} {e : Exn} {w : Worker ω V}
    (hbound : d.funcs.lookup c.funcName = some func)
    (hargs : func.readArgs mp c.funcName (.array c.args) = .ok vals)
    (hthrew : (func.body w.app w.thisSession.id vals).2.outcome =
      .threw e) :
    ∃ text w', (d.dispatch mp c.message true).exec w =
      (.ok (.makeError c.idx.toUInt32 (.str text)), w') := by
  obtain ⟨text, hfailure⟩ := Dispatcher.callFailure_suppressed
    c.idx.toUInt32 c.funcName (mp.arraySize (.array c.args))
    (mp.arraySize c.message) e
  refine ⟨text, (func.body w.app w.thisSession.id vals).2.actions.foldl
    HandlerAction.perform { w with
      app := (func.body w.app w.thisSession.id vals).1
      invocations := w.invocations ++ [(c.funcName, vals)] }, ?_⟩
  rw [dispatch_message_exec,
    Dispatcher.dispatchCall_exec_bound mp (callTuple_message mp c) hbound,
    Functor.adaptor_exec, hargs]
  simp only [Functor.invokeAndPack, Functor.exec_invoke,
    perform_of_threw hthrew, hfailure]

/-- The dispatch of a call to an unbound name. -/
theorem dispatch_of_unbound {d : Dispatcher ω V} {c : Call} (w : Worker ω V)
    (hunbound : d.funcs.lookup c.funcName = none) :
    ∃ text, (d.dispatch mp c.message true).exec w =
      (.ok (.makeError c.idx.toUInt32 (.str text)), w) :=
  ⟨_, by
    rw [dispatch_message_exec]
    exact Dispatcher.dispatchCall_exec_unbound mp (callTuple_message mp c)
      hunbound true w⟩

/-- A result response is the value for the client. -/
theorem outcomeOfResponse_makeResultHandle (id : UInt32) (result : Object)
    (funcName : String) :
    outcomeOfResponse (.makeResultHandle id (some result)) funcName =
      .value result := by
  simp [outcomeOfResponse, State.outcomeOf]

/-- Server and client together, for every call whose entry waits in the
table.  The call always comes back and only its own promise is touched.  When
the functor takes the arguments and returns, it has run once and its result is
the value of the promise; when the name is unbound or the number of arguments
is wrong, nothing has run and the promise holds an `RpcError`; and it holds
one when an argument does not convert or the functor throws. -/
theorem call_semantics (d : Dispatcher ω V) (c : Call) (w : Worker ω V)
    {s : State Buf} (hentry : s.ongoingCalls c.idx = some c.entry)
    (hempty : s.shared (.call c.number) = none) :
    ∃ s' w', roundTrip mp d c w s = some (s', w') ∧
      s'.escaped = s.escaped ∧
      (∀ p, p ≠ .call c.number → s'.shared p = s.shared p) ∧
      (∀ func vals r, d.funcs.lookup c.funcName = some func →
        c.args.length = func.params.length →
        func.convertArgs (.array c.args) = .ok vals →
        (func.body w.app w.thisSession.id vals).2.outcome = .returned r →
        w'.invocations = w.invocations ++ [(c.funcName, vals)] ∧
        s'.shared (.call c.number) = some (.value (func.packResult r))) ∧
      ((∀ func, d.funcs.lookup c.funcName = some func →
          c.args.length ≠ func.params.length) →
        w'.invocations = w.invocations ∧ Failed s' c) ∧
      (∀ func, d.funcs.lookup c.funcName = some func →
        c.args.length = func.params.length →
        ((∃ e, func.convertArgs (.array c.args) = .error e) ∨
          ∃ vals e, func.convertArgs (.array c.args) = .ok vals ∧
            (func.body w.app w.thisSession.id vals).2.outcome = .threw e) →
        Failed s' c) := by
  obtain ⟨resp, w', hcall, hid, -⟩ :=
    Dispatcher.dispatchCall_answers (d := d) mp (callTuple_message mp c) w
  have hdispatch : (d.dispatch mp c.message true).exec w = (.ok resp, w') :=
    (dispatch_message_exec mp w).trans hcall
  obtain ⟨s', hround, hescaped, hothers, hshared⟩ :=
    roundTrip_of_response mp hdispatch hid hentry hempty
  have hfailed : ∀ {text : String} {w'' : Worker ω V},
      (d.dispatch mp c.message true).exec w =
        (.ok (.makeError c.idx.toUInt32 (.str text)), w'') →
      w'' = w' ∧ Failed s' c := by
    intro text w'' herror
    rw [hdispatch] at herror
    obtain ⟨hresp, rfl⟩ := Prod.mk.inj herror
    obtain rfl := Except.ok.inj hresp
    exact ⟨rfl, failed_of_makeError hshared⟩
  refine ⟨s', w', hround, hescaped, hothers, ?_, ?_, ?_⟩
  · intro func vals r hbound harity hconvert hreturned
    have hargs :=
      (Functor.readArgs_array mp harity c.funcName).trans hconvert
    obtain ⟨w'', hexec, hinvocations⟩ :=
      dispatch_of_returned mp hbound hargs hreturned
    rw [hdispatch] at hexec
    obtain ⟨hresp, rfl⟩ := Prod.mk.inj hexec
    obtain rfl := Except.ok.inj hresp
    refine ⟨hinvocations, ?_⟩
    rw [hshared, outcomeOfResponse_makeResultHandle]
  · intro hnone
    cases hlookup : d.funcs.lookup c.funcName with
    | none =>
        obtain ⟨text, hexec⟩ := dispatch_of_unbound mp w hlookup
        obtain ⟨rfl, hresult⟩ := hfailed hexec
        exact ⟨rfl, hresult⟩
    | some func =>
        obtain ⟨what, hargs⟩ := Functor.readArgs_array_of_wrong_length mp
          (hnone func hlookup) c.funcName
        obtain ⟨text, hexec⟩ := dispatch_of_unread mp w hlookup hargs
        obtain ⟨rfl, hresult⟩ := hfailed hexec
        exact ⟨rfl, hresult⟩
  · intro func hbound harity hends
    have hread := Functor.readArgs_array mp harity c.funcName
    rcases hends with ⟨e, hconvert⟩ | ⟨vals, e, hconvert, hthrew⟩
    · obtain ⟨text, hexec⟩ :=
        dispatch_of_unread mp w hbound (hread.trans hconvert)
      exact (hfailed hexec).2
    · obtain ⟨text, w'', hexec⟩ :=
        dispatch_of_threw mp hbound (hread.trans hconvert) hthrew
      exact (hfailed hexec).2

/-- A functor with one string parameter that returns its argument. -/
def echo : Server.Functor Unit Object :=
  ⟨[.ok], false, fun _ _ vals => ((), ⟨[], .returned (vals.headD .nil)⟩)⟩

/-- The call `echo("hi")` with the index -5, as it is entered. -/
theorem call_semantics_echo :
    ∃ (s' : State (Option Object)) (w' : Worker Unit Object),
      roundTrip .reference ⟨AList.singleton "echo" echo⟩
          ⟨0, -5, "echo", [.str "hi"]⟩
          ⟨(), ⟨.nil, .nil, true⟩, ⟨false, 1⟩, ⟨false⟩, []⟩
          (State.initial.enterCall ⟨0, -5, "echo", [.str "hi"]⟩) =
        some (s', w') ∧
      w'.invocations = [("echo", [.str "hi"])] ∧
      s'.shared (.call 0) = some (.value (.str "hi")) := by
  obtain ⟨s', w', hround, -, -, hreturned, -⟩ :=
    call_semantics .reference ⟨AList.singleton "echo" echo⟩
      ⟨0, -5, "echo", [.str "hi"]⟩
      ⟨(), ⟨.nil, .nil, true⟩, ⟨false, 1⟩, ⟨false⟩, []⟩
      (s := State.initial.enterCall ⟨0, -5, "echo", [.str "hi"]⟩) rfl rfl
  exact ⟨s', w', hround,
    hreturned echo [.str "hi"] (.str "hi") rfl rfl rfl rfl⟩

end System
end RpcLib
