import RpcLib.MsgPack.Object

/-!
# Handlers and the thread-local objects they act on

`this_handler()`, `this_session()` and `this_server()` are one object for each
worker thread.  A bound functor acts on them through their public functions
and ends by returning, by one of the two `respond` functions, or by throwing.

A call of a functor is described by a `HandlerRun`: the calls it makes on the
thread-local objects, in order, and how it ends.  A handler may catch what
`respond` or `respond_error` throws and go on; the stored object stays, so
these are actions as well.
-/

namespace RpcLib
namespace Server

/-- The exceptions that the server's `catch` clauses tell apart. -/
inductive Exn where
  | clientError (what : String)
  | stdException (what : String)
  | handlerError
  | handlerSepcResponse
  | other
  deriving DecidableEq, Repr

/-- `msgpack::type_error`, a `std::bad_cast`. -/
def Exn.typeError : Exn := .stdException "std::bad_cast"

/-- `session_id_t`, a `std::intptr_t`. -/
abbrev SessionId := Int

/-- A worker thread. -/
abbrev ThreadId := Nat

/-- `this_handler_t`.  A default-constructed handle holds nil. -/
structure ThisHandler where
  error : Object
  resp : Object
  respEnabled : Bool

/-- `this_session_t`. -/
structure ThisSession where
  exit : Bool
  id : SessionId

/-- `this_server_t`. -/
structure ThisServer where
  stopping : Bool

namespace ThisHandler

/-- `this_handler_t::clear`, which does not look at the old state. -/
def clear (_ : ThisHandler) : ThisHandler := ⟨.nil, .nil, true⟩

end ThisHandler

/-- The calls a handler can make on the thread-local objects and survive. -/
inductive HandlerAction where
  | enableResponse
  | disableResponse
  | clear
  | postExit
  | stop
  | cancelStop
  /-- `respond_error(v)` whose exception the handler catches itself. -/
  | caughtRespondError (v : Object)
  /-- `respond(v)` whose exception the handler catches itself. -/
  | caughtRespond (v : Object)

/-- How a handler ends. -/
inductive Outcome where
  | returned (r : Object)
  | respondedError (v : Object)
  | responded (v : Object)
  | threw (e : Exn)

/-- One call of a bound functor, as the server sees it. -/
structure HandlerRun where
  actions : List HandlerAction
  outcome : Outcome

/-- What a dispatch on one worker thread reads and writes: the state of the
application behind the functors, the thread-local objects, and the history of
the functors run with their arguments. -/
structure Worker (ω V : Type) where
  app : ω
  thisHandler : ThisHandler
  thisSession : ThisSession
  thisServer : ThisServer
  invocations : List (String × List V)

variable {ω V : Type}

/-- One action of a handler. -/
def HandlerAction.perform (w : Worker ω V) : HandlerAction → Worker ω V
  | .enableResponse =>
      { w with thisHandler := { w.thisHandler with respEnabled := true } }
  | .disableResponse =>
      { w with thisHandler := { w.thisHandler with respEnabled := false } }
  | .clear => { w with thisHandler := w.thisHandler.clear }
  | .postExit => { w with thisSession := { w.thisSession with exit := true } }
  | .stop => { w with thisServer := { w.thisServer with stopping := true } }
  | .cancelStop =>
      { w with thisServer := { w.thisServer with stopping := false } }
  | .caughtRespondError v =>
      { w with thisHandler := { w.thisHandler with error := v } }
  | .caughtRespond v =>
      { w with thisHandler := { w.thisHandler with resp := v } }

/-- How a run ends: a returned object, or an exception. -/
def Outcome.finish (w : Worker ω V) : Outcome → Except Exn Object × Worker ω V
  | .returned r => (.ok r, w)
  | .respondedError v =>
      (.error .handlerError,
        { w with thisHandler := { w.thisHandler with error := v } })
  | .responded v =>
      (.error .handlerSepcResponse,
        { w with thisHandler := { w.thisHandler with resp := v } })
  | .threw e => (.error e, w)

/-- The effect of a handler's run on its worker thread. -/
def HandlerRun.perform (run : HandlerRun) (w : Worker ω V) :
    Except Exn Object × Worker ω V :=
  run.outcome.finish (run.actions.foldl HandlerAction.perform w)

theorem perform_of_returned {run : HandlerRun} {r : Object}
    (hreturned : run.outcome = .returned r) (w : Worker ω V) :
    run.perform w = (.ok r, run.actions.foldl HandlerAction.perform w) := by
  unfold HandlerRun.perform
  rw [hreturned]
  rfl

theorem perform_of_threw {run : HandlerRun} {e : Exn}
    (hthrew : run.outcome = .threw e) (w : Worker ω V) :
    run.perform w = (.error e, run.actions.foldl HandlerAction.perform w) := by
  unfold HandlerRun.perform
  rw [hthrew]
  rfl

/-- Actions touch the thread-local objects only. -/
theorem actions_frame (actions : List HandlerAction) (w : Worker ω V) :
    (actions.foldl HandlerAction.perform w).app = w.app ∧
      (actions.foldl HandlerAction.perform w).invocations =
        w.invocations := by
  induction actions generalizing w with
  | nil => exact ⟨rfl, rfl⟩
  | cons action actions ih =>
      obtain ⟨happ, hinvocations⟩ := ih (action.perform w)
      rw [List.foldl_cons, happ, hinvocations]
      cases action <;> exact ⟨rfl, rfl⟩

/-- A handler's run leaves the application and the history alone. -/
theorem perform_frame (run : HandlerRun) (w : Worker ω V) :
    (run.perform w).2.app = w.app ∧
      (run.perform w).2.invocations = w.invocations := by
  have hactions := actions_frame run.actions w
  unfold HandlerRun.perform
  cases run.outcome <;> exact hactions

end Server
end RpcLib
