import RpcLib.Server.Acceptance

/-!
# The call path and the notification path

`dispatch_call` and `dispatch_notification` look the name up and run the
adaptor in the same way, each in a `try` statement of its own.  The lists of
their `catch` clauses differ: a call answers a `ClientError` whatever the flag
says, and a notification lets it pass with everything else when exceptions are
not suppressed.

* `paths_state`: both paths leave the worker thread in the same state.
* `pathsAgree_iff`: a notification lets nothing pass that a call answers,
  exactly when exceptions are suppressed or no client error comes up.
-/

namespace RpcLib
namespace Server
namespace Dispatcher

open Protocol

variable {ω V Buf : Type} (mp : MsgPack Buf)

/-- The message of a call. -/
def callMessage (id : Int32) (name : String) (args : Object) : Object :=
  .array [.ofInt8 0, .ofInt32 id, .str name, args]

/-- The message of a notification. -/
def notificationMessage (name : String) (args : Object) : Object :=
  .array [.ofInt8 2, .str name, args]

@[simp] theorem callTuple_callMessage (id : Int32) (name : String)
    (args : Object) :
    mp.callTuple (callMessage id name args) = some (0, id, name, args) := by
  simp [callMessage]

@[simp] theorem notificationTuple_notificationMessage (name : String)
    (args : Object) :
    mp.notificationTuple (notificationMessage name args) =
      some (2, name, args) := by
  simp [notificationMessage]

@[simp] theorem arraySize_callMessage (id : Int32) (name : String)
    (args : Object) : mp.arraySize (callMessage id name args) = 4 := by
  simp [callMessage]

@[simp] theorem arraySize_notificationMessage (name : String)
    (args : Object) : mp.arraySize (notificationMessage name args) = 3 := by
  simp [notificationMessage]

/-- Both messages address the same functor with the same arguments. -/
theorem addressee_callMessage (id : Int32) (name : String) (args : Object) :
    addressee mp (callMessage id name args) = some (name, args) := by
  simp [addressee]

theorem addressee_notificationMessage (name : String) (args : Object) :
    addressee mp (notificationMessage name args) = some (name, args) := by
  simp [addressee]

/-- The two paths leave the thread in the same state: they run the same
functor, as often and with the same arguments. -/
theorem paths_state (d : Dispatcher ω V) (id : Int32) (name : String)
    (args : Object) (suppress : Bool) (w : Worker ω V) :
    ((d.dispatch mp (notificationMessage name args) suppress).exec w).2 =
      ((d.dispatch mp (callMessage id name args) suppress).exec w).2 := by
  rw [dispatch_state_of_addressee mp
      (addressee_notificationMessage mp name args),
    dispatch_state_of_addressee mp (addressee_callMessage mp id name args)]

/-- The two paths agree: on the functor they run and its arguments, on the
state they leave, and on letting no exception pass that a call answers. -/
structure PathsAgree (d : Dispatcher ω V) (id : Int32) (name : String)
    (args : Object) (suppress : Bool) (w : Worker ω V) : Prop where
  state : ((d.dispatch mp (notificationMessage name args) suppress).exec w).2 =
    ((d.dispatch mp (callMessage id name args) suppress).exec w).2
  escapes : (∃ e, ((d.dispatch mp (notificationMessage name args)
      suppress).exec w).1 = .error e) →
    ∃ e, ((d.dispatch mp (callMessage id name args) suppress).exec w).1 =
      .error e
  clientError : ∀ what, ((d.dispatch mp (notificationMessage name args)
    suppress).exec w).1 ≠ .error (.clientError what)

/-- A client error comes up: the name is bound, and the adaptor's check or
conversion of the arguments, or the handler itself, throws one. -/
def ClientErrorArises (d : Dispatcher ω V) (name : String) (args : Object)
    (w : Worker ω V) : Prop :=
  ∃ func what, d.funcs.lookup name = some func ∧
    match func.readArgs mp name args with
    | .error e => e = .clientError what
    | .ok vals =>
        (func.body w.app w.thisSession.id vals).2.outcome =
          .threw (.clientError what)

/-- What a functor's adaptor throws is a client error in those cases only. -/
theorem clientErrorArises_iff {d : Dispatcher ω V} {name : String}
    {func : Functor ω V} (hbound : d.funcs.lookup name = some func)
    (args : Object) (w : Worker ω V) :
    ClientErrorArises mp d name args w ↔
      ∃ what, ((func.adaptor mp name args).exec w).1 =
        .error (.clientError what) := by
  have harises : ClientErrorArises mp d name args w ↔
      ∃ what, match func.readArgs mp name args with
        | .error e => e = .clientError what
        | .ok vals =>
            (func.body w.app w.thisSession.id vals).2.outcome =
              .threw (.clientError what) := by
    unfold ClientErrorArises
    simp [hbound]
  rw [harises, Functor.adaptor_exec]
  refine exists_congr fun what => ?_
  cases func.readArgs mp name args with
  | error e => simp
  | ok vals =>
      dsimp only
      unfold Functor.invokeAndPack
      rw [Functor.exec_invoke]
      unfold HandlerRun.perform
      cases (func.body w.app w.thisSession.id vals).2.outcome <;>
        simp [Outcome.finish]

/-- What a notification returns is what its `catch` clauses make of the
adaptor's result. -/
theorem dispatch_notificationMessage {d : Dispatcher ω V} {name : String}
    {func : Functor ω V} (hbound : d.funcs.lookup name = some func)
    (args : Object) (suppress : Bool) (w : Worker ω V) :
    ((d.dispatch mp (notificationMessage name args) suppress).exec w).1 =
      match ((func.adaptor mp name args).exec w).1 with
      | .ok _ => .ok .emptyResponse
      | .error e => notificationFailure suppress e := by
  rw [dispatch_of_size_three mp (arraySize_notificationMessage mp name args),
    dispatchNotification_exec_bound mp
      (notificationTuple_notificationMessage mp name args) hbound]
  rcases (func.adaptor mp name args).exec w with ⟨_ | _, w'⟩ <;> rfl

/-- So is what a call returns. -/
theorem dispatch_callMessage {d : Dispatcher ω V} {name : String}
    {func : Functor ω V} (hbound : d.funcs.lookup name = some func)
    (id : Int32) (args : Object) (suppress : Bool) (w : Worker ω V) :
    ((d.dispatch mp (callMessage id name args) suppress).exec w).1 =
      match ((func.adaptor mp name args).exec w).1 with
      | .ok res => .ok (.makeResultHandle id.toUInt32 (some res))
      | .error e =>
          callFailure suppress id.toUInt32 name (mp.arraySize args) 4 e := by
  rw [dispatch_of_size_four mp (arraySize_callMessage mp id name args),
    dispatchCall_exec_bound mp (callTuple_callMessage mp id name args) hbound,
    arraySize_callMessage]
  rcases (func.adaptor mp name args).exec w with ⟨_ | _, w'⟩ <;> rfl

/-- A notification of a name that is not bound returns. -/
theorem dispatch_notificationMessage_unbound {d : Dispatcher ω V}
    {name : String} (hunbound : d.funcs.lookup name = none) (args : Object)
    (suppress : Bool) (w : Worker ω V) :
    ((d.dispatch mp (notificationMessage name args) suppress).exec w).1 =
      .ok .emptyResponse := by
  rw [dispatch_of_size_three mp (arraySize_notificationMessage mp name args),
    dispatchNotification_exec_unbound mp
      (notificationTuple_notificationMessage mp name args) hunbound]

/-- An exception passes the clauses of a notification and not those of a call
in one case only: a client error that is not suppressed. -/
theorem failures_agree {suppress : Bool} {e : Exn}
    (hagree : suppress = true ∨ ∀ what, e ≠ .clientError what)
    (id : UInt32) (name : String) (argsSize msgSize : Nat) :
    ((∃ e', notificationFailure suppress e = .error e') →
      ∃ e', callFailure suppress id name argsSize msgSize e = .error e') ∧
    ∀ what, notificationFailure suppress e ≠ .error (.clientError what) := by
  cases suppress with
  | true => cases e <;> simp [notificationFailure]
  | false =>
      -- for all other exceptions the two lists of clauses are the same
      have hnot : ∀ what, e ≠ .clientError what := by simpa using hagree
      cases e with
      | clientError what => exact absurd rfl (hnot what)
      | _ => simp [notificationFailure, callFailure]

/-- The two paths agree exactly when exceptions are suppressed or no client
error comes up. -/
theorem pathsAgree_iff (d : Dispatcher ω V) (id : Int32) (name : String)
    (args : Object) (suppress : Bool) (w : Worker ω V) :
    PathsAgree mp d id name args suppress w ↔
      suppress = true ∨ ¬ ClientErrorArises mp d name args w := by
  cases hlookup : d.funcs.lookup name with
  | none =>
      have hreturns := dispatch_notificationMessage_unbound mp hlookup args
        suppress w
      have hnone : ¬ ClientErrorArises mp d name args w := by
        rintro ⟨func, what, hbound, -⟩
        cases hlookup.symm.trans hbound
      -- an unbound name is logged by one path and answered by the other
      refine iff_of_true ⟨paths_state mp d id name args suppress w, ?_, ?_⟩
        (Or.inr hnone)
      · rw [hreturns]
        rintro ⟨e, herror⟩
        cases herror
      · rw [hreturns]
        intro what herror
        cases herror
  | some func =>
      have hnotification := dispatch_notificationMessage mp hlookup args
        suppress w
      have hcall := dispatch_callMessage mp hlookup id args suppress w
      rw [clientErrorArises_iff mp hlookup]
      constructor
      · intro h
        by_contra hnot
        push Not at hnot
        obtain ⟨hsuppress, what, hthrows⟩ := hnot
        -- the client error passes the clause for everything else
        apply h.clientError what
        rw [hnotification, hthrows]
        simp [notificationFailure, hsuppress]
      · intro hagree
        have hboth : ((∃ e, ((d.dispatch mp (notificationMessage name args)
              suppress).exec w).1 = .error e) →
            ∃ e, ((d.dispatch mp (callMessage id name args)
              suppress).exec w).1 = .error e) ∧
            ∀ what, ((d.dispatch mp (notificationMessage name args)
              suppress).exec w).1 ≠ .error (.clientError what) := by
          rw [hnotification, hcall]
          cases hres : ((func.adaptor mp name args).exec w).1 with
          | ok res => simp
          | error e =>
              apply failures_agree
              simpa [hres] using hagree
        exact ⟨paths_state mp d id name args suppress w, hboth.1, hboth.2⟩

/-- Two arguments for a functor without parameters, while exceptions are not
suppressed: the client error escapes from the notification, and the call is
answered. -/
theorem wrong_arity_escapes_notification :
    ¬ PathsAgree .reference oneFunctor 1 "f" (.array [.nil, .nil]) false
        ServerSession.usedWorker ∧
      (∃ what, ((oneFunctor.dispatch .reference
        (notificationMessage "f" (.array [.nil, .nil])) false).exec
          ServerSession.usedWorker).1 = .error (.clientError what)) ∧
      ∃ resp, ((oneFunctor.dispatch .reference
        (callMessage 1 "f" (.array [.nil, .nil])) false).exec
          ServerSession.usedWorker).1 = .ok resp := by
  have hescapes : ∃ what, ((oneFunctor.dispatch .reference
      (notificationMessage "f" (.array [.nil, .nil])) false).exec
        ServerSession.usedWorker).1 = .error (.clientError what) := ⟨_, rfl⟩
  refine ⟨fun h => ?_, hescapes, _, rfl⟩
  obtain ⟨what, herror⟩ := hescapes
  exact h.clientError what herror

end Dispatcher
end Server
end RpcLib
