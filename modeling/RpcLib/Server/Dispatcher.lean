import Mathlib.Data.List.AList
import RpcLib.Protocol.Response
import RpcLib.Server.ThisThread

/-!
# `Dispatcher`: from a decoded message to a bound functor

`detail::Dispatcher`: the registry, the four adaptors that `bind` installs, and
`dispatch` with its two paths.  A computation on a worker thread may throw; as
in C++ an exception keeps the changes made to the state before it.

A functor is its list of parameter conversions, whether its result is `void`,
and a body that maps the state of the application, the session's id and the
converted arguments to a `HandlerRun`.  `V` is the type of converted values.
The adaptor lambdas capture the functor and its name, so the registry keeps
the functor under its name and `adaptor` picks the lambda by kind.
-/

namespace RpcLib
namespace Server

open Protocol

/-- A bound functor. -/
structure Functor (ω V : Type) where
  /-- The conversions to the decayed parameter types. -/
  params : List (Object → Except Exn V)
  returnsVoid : Bool
  body : ω → SessionId → List V → ω × HandlerRun

/-- A computation of a worker thread that may end in an exception. -/
abbrev DispatchM (ω V α : Type) := ExceptT Exn (StateM (Worker ω V)) α

variable {ω V Buf : Type} (mp : MsgPack Buf)

namespace DispatchM

variable {α β : Type}

/-- Run a computation: its result or exception, and the state it leaves. -/
def exec (x : DispatchM ω V α) (w : Worker ω V) :
    Except Exn α × Worker ω V :=
  x.run.run w

/-- A pure computation that may throw. -/
def ofExcept (x : Except Exn α) : DispatchM ω V α := ExceptT.mk (pure x)

/-- Read the state of the worker thread. -/
def getWorker : DispatchM ω V (Worker ω V) := ExceptT.mk fun w => (.ok w, w)

/-- Change the state of the worker thread. -/
def modifyWorker (f : Worker ω V → Worker ω V) : DispatchM ω V Unit :=
  ExceptT.mk fun w => (.ok (), f w)

@[simp] theorem exec_ofExcept (x : Except Exn α) (w : Worker ω V) :
    exec (ofExcept x) w = (x, w) := rfl

@[simp] theorem exec_getWorker (w : Worker ω V) :
    exec getWorker w = (.ok w, w) := rfl

@[simp] theorem exec_modifyWorker (f : Worker ω V → Worker ω V)
    (w : Worker ω V) : exec (modifyWorker f) w = (.ok (), f w) := rfl

@[simp] theorem exec_pure (a : α) (w : Worker ω V) :
    exec (pure a : DispatchM ω V α) w = (.ok a, w) := rfl

@[simp] theorem exec_throw (e : Exn) (w : Worker ω V) :
    exec (throw e : DispatchM ω V α) w = (.error e, w) := rfl

/-- Sequencing: the second part runs only after a normal end of the first. -/
theorem exec_bind (x : DispatchM ω V α) (f : α → DispatchM ω V β)
    (w : Worker ω V) :
    exec (x >>= f) w =
      match exec x w with
      | (.ok a, w') => exec (f a) w'
      | (.error e, w') => (.error e, w') := by
  show (ExceptT.bindCont f (exec x w).1).run (exec x w).2 = _
  rcases exec x w with ⟨_ | _, w'⟩ <;> rfl

/-- `try`: the handler runs in the state that the exception left. -/
theorem exec_tryCatch (x : DispatchM ω V α) (h : Exn → DispatchM ω V α)
    (w : Worker ω V) :
    exec (tryCatch x h) w =
      match exec x w with
      | (.ok a, w') => (.ok a, w')
      | (.error e, w') => exec (h e) w' := by
  unfold exec
  simp only [ExceptT.run_tryCatch, StateT.run_bind]
  rcases StateT.run x.run w with ⟨_ | _, w'⟩ <;> rfl

end DispatchM

/-! ## Adaptors -/

/-- `ClientError::code`. -/
inductive ClientErrorCode where
  | noSuchFunction
  | wrongArity
  | protocolError

def ClientErrorCode.value : ClientErrorCode → Nat
  | .noSuchFunction => 1
  | .wrongArity => 2
  | .protocolError => 4

/-- The `{:04x}` format of a 16-bit value. -/
def hex04 (n : Nat) : String :=
  let digits := Nat.toDigits 16 n
  String.ofList (List.replicate (4 - digits.length) '0' ++ digits)

/-- The exception `ClientError(c, msg)`, by its `what()`. -/
def clientError (c : ClientErrorCode) (msg : String) : Exn :=
  .clientError ("client error C" ++ hex04 c.value ++ ": " ++ msg)

/-- `Dispatcher::enforce_arg_count`. -/
def enforceArgCount (funcName : String) (found expected : Nat) :
    Except Exn Unit :=
  if found ≠ expected then
    .error (clientError .wrongArity
      ("Function '" ++ funcName ++
        " was called with an invalid number of arguments. Excepted: " ++
        toString expected ++ ", got: " ++ toString found))
  else .ok ()

namespace Functor

/-- `args.convert(args_real)`: only an array converts to a tuple, element by
element.  The adaptors have checked the number of elements. -/
def convertArgs (f : Functor ω V) : Object → Except Exn (List V)
  | .array elements => (f.params.zip elements).mapM fun (param, o) => param o
  | _ => .error .typeError

/-- Call the functor, recording the call. -/
def invoke (f : Functor ω V) (name : String) (args : List V) :
    DispatchM ω V Object :=
  ExceptT.mk fun w =>
    let (app, handlerRun) := f.body w.app w.thisSession.id args
    handlerRun.perform
      { w with app := app, invocations := w.invocations ++ [(name, args)] }

theorem exec_invoke (f : Functor ω V) (name : String) (args : List V)
    (w : Worker ω V) :
    (f.invoke name args).exec w =
      (f.body w.app w.thisSession.id args).2.perform
        { w with
          app := (f.body w.app w.thisSession.id args).1
          invocations := w.invocations ++ [(name, args)] } := rfl

/-- The lambda of `bind` for a functor without parameters.  Its count check is
the only look it takes at `args`. -/
def zeroArgAdaptor (finish : Object → Object) (f : Functor ω V)
    (name : String) (args : Object) : DispatchM ω V Object := do
  DispatchM.ofExcept (enforceArgCount name (mp.arraySize args) 0)
  let res ← f.invoke name []
  return finish res

/-- The lambda of `bind` for a functor with parameters. -/
def nonzeroArgAdaptor (finish : Object → Object) (f : Functor ω V)
    (name : String) (args : Object) : DispatchM ω V Object := do
  DispatchM.ofExcept
    (enforceArgCount name (mp.arraySize args) f.params.length)
  let argsReal ← DispatchM.ofExcept (f.convertArgs args)
  let res ← f.invoke name argsReal
  return finish res

/-- `bind` with `void_result` and `zero_arg`: the handle holds nil. -/
def voidZeroAdaptor (f : Functor ω V) := zeroArgAdaptor mp (fun _ => .nil) f

/-- `bind` with `void_result` and `nonzero_arg`. -/
def voidNonzeroAdaptor (f : Functor ω V) :=
  nonzeroArgAdaptor mp (fun _ => .nil) f

/-- `bind` with `nonvoid_result` and `zero_arg`: the handle holds the result. -/
def nonvoidZeroAdaptor (f : Functor ω V) := zeroArgAdaptor mp id f

/-- `bind` with `nonvoid_result` and `nonzero_arg`. -/
def nonvoidNonzeroAdaptor (f : Functor ω V) := nonzeroArgAdaptor mp id f

/-- The adaptor that `bind` selects by `result_kind` and `args_kind`. -/
def adaptor (f : Functor ω V) (name : String) (args : Object) :
    DispatchM ω V Object :=
  match f.returnsVoid, f.params with
  | true, [] => f.voidZeroAdaptor mp name args
  | true, _ :: _ => f.voidNonzeroAdaptor mp name args
  | false, [] => f.nonvoidZeroAdaptor mp name args
  | false, _ :: _ => f.nonvoidNonzeroAdaptor mp name args

/-- The object in the handle that an adaptor returns. -/
def packResult (f : Functor ω V) (r : Object) : Object :=
  if f.returnsVoid then .nil else r

/-- The checks and conversions an adaptor makes before it calls the functor. -/
def readArgs (f : Functor ω V) (name : String) (args : Object) :
    Except Exn (List V) :=
  match enforceArgCount name (mp.arraySize args) f.params.length with
  | .error e => .error e
  | .ok () => if f.params.isEmpty then .ok [] else f.convertArgs args

/-- Call the functor and pack what it returns. -/
def invokeAndPack (finish : Object → Object) (f : Functor ω V) (name : String)
    (w : Worker ω V) (vals : List V) : Except Exn Object × Worker ω V :=
  match (f.invoke name vals).exec w with
  | (.ok r, w') => (.ok (finish r), w')
  | (.error e, w') => (.error e, w')

theorem exec_invoke_pack (finish : Object → Object) (f : Functor ω V)
    (name : String) (vals : List V) (w : Worker ω V) :
    DispatchM.exec (do
      let res ← f.invoke name vals
      return finish res) w = f.invokeAndPack finish name w vals := by
  rw [DispatchM.exec_bind]
  unfold invokeAndPack
  rcases (f.invoke name vals).exec w with ⟨_ | _, w'⟩ <;> rfl

theorem zeroArgAdaptor_exec (finish : Object → Object) {f : Functor ω V}
    (hparams : f.params = []) (name : String) (args : Object)
    (w : Worker ω V) :
    (zeroArgAdaptor mp finish f name args).exec w =
      match f.readArgs mp name args with
      | .error e => (.error e, w)
      | .ok vals => f.invokeAndPack finish name w vals := by
  unfold zeroArgAdaptor readArgs
  rw [DispatchM.exec_bind, DispatchM.exec_ofExcept, hparams, List.length_nil]
  cases enforceArgCount name (mp.arraySize args) 0 with
  | error e => rfl
  | ok _ => exact exec_invoke_pack finish f name [] w

theorem nonzeroArgAdaptor_exec (finish : Object → Object) {f : Functor ω V}
    (hparams : f.params ≠ []) (name : String) (args : Object)
    (w : Worker ω V) :
    (nonzeroArgAdaptor mp finish f name args).exec w =
      match f.readArgs mp name args with
      | .error e => (.error e, w)
      | .ok vals => f.invokeAndPack finish name w vals := by
  have hnonempty : f.params.isEmpty = false := by simpa using hparams
  unfold nonzeroArgAdaptor readArgs
  rw [DispatchM.exec_bind, DispatchM.exec_ofExcept, hnonempty]
  cases enforceArgCount name (mp.arraySize args) f.params.length with
  | error e => rfl
  | ok _ =>
      show DispatchM.exec (DispatchM.ofExcept (f.convertArgs args) >>= _) w =
        match f.convertArgs args with
        | .error e => (.error e, w)
        | .ok vals => f.invokeAndPack finish name w vals
      rw [DispatchM.exec_bind, DispatchM.exec_ofExcept]
      cases f.convertArgs args with
      | error e => rfl
      | ok vals => exact exec_invoke_pack finish f name vals w

/-- The specification of all four adaptors: read the arguments, then call the
functor with them and pack what it returns. -/
theorem adaptor_exec (f : Functor ω V) (name : String) (args : Object)
    (w : Worker ω V) :
    (f.adaptor mp name args).exec w =
      match f.readArgs mp name args with
      | .error e => (.error e, w)
      | .ok vals => f.invokeAndPack f.packResult name w vals := by
  have hpack : f.packResult = if f.returnsVoid then fun _ => .nil else id := by
    funext r
    unfold packResult
    split <;> rfl
  unfold adaptor
  split <;> rename_i hvoid hparams
  · rw [hpack, hvoid]
    exact zeroArgAdaptor_exec mp _ hparams name args w
  · rw [hpack, hvoid]
    exact nonzeroArgAdaptor_exec mp _ (by simp [hparams]) name args w
  · rw [hpack, hvoid]
    exact zeroArgAdaptor_exec mp _ hparams name args w
  · rw [hpack, hvoid]
    exact nonzeroArgAdaptor_exec mp _ (by simp [hparams]) name args w

end Functor

/-! ## The registry and the two dispatch paths -/

/-- `detail::Dispatcher`: the functors by the names they are bound to. -/
structure Dispatcher (ω V : Type) where
  funcs : AList fun _ : String => Functor ω V

namespace Dispatcher

/-- `Dispatcher::enforce_unique_name`. -/
def enforceUniqueName (d : Dispatcher ω V) (funcName : String) :
    Except Exn Unit :=
  if funcName ∈ d.funcs then
    .error (.stdException ("Function name already bound: '" ++ funcName ++
      ". Please use unique function name."))
  else .ok ()

/-- `Dispatcher::bind`. -/
def bind (d : Dispatcher ω V) (name : String) (func : Functor ω V) :
    Except Exn (Dispatcher ω V) := do
  d.enforceUniqueName name
  return ⟨d.funcs.insert name func⟩

/-- `Dispatcher::unbind`. -/
def unbind (d : Dispatcher ω V) (name : String) : Dispatcher ω V :=
  ⟨d.funcs.erase name⟩

/-- `Dispatcher::names`. -/
def names (d : Dispatcher ω V) : List String := d.funcs.keys

/-- The `catch` clauses of `dispatch_call`.  The two clauses for the
exceptions of `respond_error` and `respond` do nothing, so control leaves the
`try` statement: `none`. -/
def catchCall (suppress : Bool) (id : UInt32) (name : String)
    (argsSize msgSize : Nat) :
    Exn → DispatchM ω V (Option Response)
  | .clientError what =>
      return some (.makeError id (.str ("rpclib: " ++ what)))
  | .stdException what =>
      if suppress then
        return some (.makeError id (.str
          ("rpclib: function '" ++ name ++ "' (called with " ++
            toString argsSize ++ " arg(s)) threw an exception. " ++
            "The exception contained this informatin: " ++ what ++ ".")))
      else throw (.stdException what)
  | .handlerError => return none
  | .handlerSepcResponse => return none
  | .other =>
      if suppress then
        return some (.makeError id (.str
          ("rpclib: function '" ++ name ++ "' (called with " ++
            toString msgSize ++ " arg(s)) threw an exception." ++
            "No further information available.")))
      else throw .other

/-- The error response after the `try` statement and for an unbound name. -/
def notFound (id : UInt32) (name : String) (msgSize : Nat) : Response :=
  .makeError id (.str
    ("rpclib: server could not find function '" ++ name ++
      "' wtith argument count " ++ toString msgSize ++ "."))

/-- `Dispatcher::dispatch_call`.  The type code of the message is decoded and
not looked at, and its id becomes the `uint32_t` of the response. -/
def dispatchCall (d : Dispatcher ω V) (msg : Object) (suppress : Bool) :
    DispatchM ω V Response :=
  match mp.callTuple msg with
  | none => throw .typeError
  | some (_, id, name, args) =>
      match d.funcs.lookup name with
      | some func => do
          let early ← tryCatch
            (do
              let res ← func.adaptor mp name args
              return some (Response.makeResultHandle id.toUInt32 (some res)))
            (catchCall suppress id.toUInt32 name (mp.arraySize args)
              (mp.arraySize msg))
          match early with
          | some resp => return resp
          | none => return notFound id.toUInt32 name (mp.arraySize msg)
      | none => return notFound id.toUInt32 name (mp.arraySize msg)

/-- The `catch` clauses of `dispatch_notification`. -/
def catchNotification (suppress : Bool) : Exn → DispatchM ω V Unit
  | .handlerError => return ()
  | .handlerSepcResponse => return ()
  | e => if suppress then return () else throw e

/-- `Dispatcher::dispatch_notification`. -/
def dispatchNotification (d : Dispatcher ω V) (msg : Object)
    (suppress : Bool) : DispatchM ω V Response :=
  match mp.notificationTuple msg with
  | none => throw .typeError
  | some (_, name, args) =>
      match d.funcs.lookup name with
      | some func => do
          tryCatch
            (do
              let _ ← func.adaptor mp name args
              return ())
            (catchNotification suppress)
          return Response.emptyResponse
      | none => return Response.emptyResponse

/-- `Dispatcher::dispatch`: the path is chosen by `via.array.size`, which is
read without a look at the type of the object. -/
def dispatch (d : Dispatcher ω V) (msg : Object) (suppress : Bool) :
    DispatchM ω V Response :=
  match mp.arraySize msg with
  | 3 => d.dispatchNotification mp msg suppress
  | 4 => d.dispatchCall mp msg suppress
  | _ => return Response.emptyResponse

end Dispatcher
end Server
end RpcLib
