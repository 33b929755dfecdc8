import RpcLib.Server.ExitRequests

/-!
# Which messages run a functor

`dispatch` chooses a path by `via.array.size` and decodes the type code of the
message with the rest of it, but compares it with nothing.  The conversion to
a tuple keeps out every object that is not an array of the right elements, so
what passes unchecked is the value of the type code.

* `runsFunctor_iff`: a dispatch runs a functor exactly when the message
  addresses one that takes its arguments.
* `shape_of_addresses`: such a message has the shape of a call or of a
  notification.
* `acceptsRequestsOnly_iff`: a functor is run by requests only, exactly when
  the messages that address one carry the type code of their length.
-/

namespace RpcLib
namespace Server
namespace Dispatcher

variable {ω V Buf : Type} (mp : MsgPack Buf)

/-- `Dispatcher::RequestType`, which the class declares and does not use. -/
inductive RequestType where
  | call
  | notification

def RequestType.value : RequestType → Int8
  | .call => 0
  | .notification => 2

/-- A call `[0, id, name, args]` with an `int32_t` id and a bound name. -/
def IsBoundCall (d : Dispatcher ω V) (msg : Object) : Prop :=
  ∃ code id name args funcName, msg = .array [code, id, name, args] ∧
    mp.int8 code = some RequestType.call.value ∧ (mp.int32 id).isSome ∧
    mp.string name = some funcName ∧ funcName ∈ d.funcs

/-- A notification `[2, name, args]` with a bound name. -/
def IsBoundNotification (d : Dispatcher ω V) (msg : Object) : Prop :=
  ∃ code name args funcName, msg = .array [code, name, args] ∧
    mp.int8 code = some RequestType.notification.value ∧
    mp.string name = some funcName ∧ funcName ∈ d.funcs

/-- A dispatch of the message runs a bound functor. -/
def RunsFunctor (d : Dispatcher ω V) (msg : Object) (suppress : Bool)
    (w : Worker ω V) : Prop :=
  ((d.dispatch mp msg suppress).exec w).2.invocations ≠ w.invocations

/-- The message converts, its name is bound, and the functor takes its
arguments. -/
def Addresses (d : Dispatcher ω V) (msg : Object) : Prop :=
  ∃ name args func vals, addressee mp msg = some (name, args) ∧
    d.funcs.lookup name = some func ∧ func.readArgs mp name args = .ok vals

/-- The type code of a message: its first element as an `int8_t`. -/
def typeCode : Object → Option Int8
  | .array (code :: _) => mp.int8 code
  | _ => none

/-- The type code is the one that the length of the message calls for. -/
def TypeCodeFits (msg : Object) : Prop :=
  (mp.arraySize msg = 4 →
    typeCode mp msg = some RequestType.call.value) ∧
  (mp.arraySize msg = 3 →
    typeCode mp msg = some RequestType.notification.value)

theorem callsOf_ne_nil_iff (d : Dispatcher ω V) (msg : Object) :
    d.callsOf mp msg ≠ [] ↔ Addresses mp d msg := by
  unfold callsOf Addresses
  constructor
  · intro hsome
    cases haddressee : addressee mp msg with
    | none => simp [haddressee] at hsome
    | some addressed =>
        obtain ⟨name, args⟩ := addressed
        cases hlookup : d.funcs.lookup name with
        | none => simp [haddressee, hlookup] at hsome
        | some func =>
            cases hargs : func.readArgs mp name args with
            | error e =>
                simp [haddressee, hlookup, hargs, Except.toOption] at hsome
            | ok vals =>
                exact ⟨name, args, func, vals, rfl, hlookup, hargs⟩
  · rintro ⟨name, args, func, vals, haddressee, hlookup, hargs⟩
    simp [haddressee, hlookup, hargs, Except.toOption]

theorem runsFunctor_iff (d : Dispatcher ω V) (msg : Object) (suppress : Bool)
    (w : Worker ω V) :
    RunsFunctor mp d msg suppress w ↔ Addresses mp d msg := by
  rw [← callsOf_ne_nil_iff]
  unfold RunsFunctor
  rw [dispatch_invocations]
  simp

/-- A message that addresses a functor is an array with the elements of a call
or of a notification; only its type code is open. -/
theorem shape_of_addresses {d : Dispatcher ω V} {msg : Object}
    (h : Addresses mp d msg) :
    (∃ code id name args funcName, msg = .array [code, id, name, args] ∧
      (mp.int8 code).isSome ∧ (mp.int32 id).isSome ∧
      mp.string name = some funcName ∧ funcName ∈ d.funcs) ∨
    ∃ code name args funcName, msg = .array [code, name, args] ∧
      (mp.int8 code).isSome ∧ mp.string name = some funcName ∧
      funcName ∈ d.funcs := by
  obtain ⟨funcName, args, func, vals, haddressee, hlookup, -⟩ := h
  have hbound : funcName ∈ d.funcs :=
    AList.lookup_isSome.mp (by simp [hlookup])
  unfold addressee at haddressee
  -- by the size alone: a notification, a call, or neither
  split at haddressee
  · rename_i hsize
    obtain ⟨⟨code', name', args'⟩, htuple, heq⟩ :=
      Option.map_eq_some_iff.mp haddressee
    obtain ⟨rfl, rfl⟩ := Prod.mk.inj heq
    obtain ⟨code, name, rfl, hcode, hname⟩ :=
      notificationTuple_eq_some mp hsize htuple
    exact Or.inr ⟨code, name, args', name', rfl, by simp [hcode], hname,
      hbound⟩
  · rename_i hsize
    obtain ⟨⟨code', id', name', args'⟩, htuple, heq⟩ :=
      Option.map_eq_some_iff.mp haddressee
    obtain ⟨rfl, rfl⟩ := Prod.mk.inj heq
    obtain ⟨code, id, name, rfl, hcode, hid, hname⟩ :=
      callTuple_eq_some mp hsize htuple
    exact Or.inl ⟨code, id, name, args', name', rfl, by simp [hcode],
      by simp [hid], hname, hbound⟩
  · cases haddressee

/-- A message runs a functor only as a call or a notification of the protocol,
exactly when its type code fits or it addresses no functor. -/
theorem acceptsRequestsOnly_iff (d : Dispatcher ω V) (msg : Object)
    (suppress : Bool) (w : Worker ω V) :
    (RunsFunctor mp d msg suppress w →
      IsBoundCall mp d msg ∨ IsBoundNotification mp d msg) ↔
      (Addresses mp d msg → TypeCodeFits mp msg) := by
  rw [runsFunctor_iff]
  refine imp_congr_right fun haddresses => ?_
  rcases shape_of_addresses mp haddresses with
    ⟨code, id, name, args, funcName, rfl, hcode, hid, hname, hbound⟩ |
    ⟨code, name, args, funcName, rfl, hcode, hname, hbound⟩
  · -- four elements: a call, if anything
    constructor
    · rintro (⟨code', id', name', args', -, hmsg, hcall, -⟩ |
        ⟨code', name', args', -, hmsg, -⟩)
      · obtain ⟨rfl, -⟩ := List.cons.inj (Object.array.inj hmsg)
        exact ⟨fun _ => hcall, by simp⟩
      · cases hmsg
    · intro hfits
      have hcall : mp.int8 code = some RequestType.call.value :=
        hfits.1 (by simp)
      exact Or.inl ⟨code, id, name, args, funcName, rfl, hcall, hid, hname,
        hbound⟩
  · -- three elements: a notification, if anything
    constructor
    · rintro (⟨code', id', name', args', -, hmsg, -⟩ |
        ⟨code', name', args', -, hmsg, hnotification, -⟩)
      · cases hmsg
      · obtain ⟨rfl, -⟩ := List.cons.inj (Object.array.inj hmsg)
        exact ⟨by simp, fun _ => hnotification⟩
    · intro hfits
      have hnotification :
          mp.int8 code = some RequestType.notification.value :=
        hfits.2 (by simp)
      exact Or.inr ⟨code, name, args, funcName, rfl, hnotification, hname,
        hbound⟩

/-- A registry in which `f` is bound, to a functor without parameters. -/
def oneFunctor : Dispatcher Unit Unit :=
  (ServerSession.constantSession ⟨[], .returned .nil⟩).disp

/-- A response frame with the error `"f"` and an empty array as its result. -/
def responseFrame : Object :=
  .array [.ofInt8 1, .ofInt32 1, .str "f", .array []]

/-- A response frame that a client sends to the server calls `f`. -/
theorem response_runs_functor :
    ¬ (RunsFunctor .reference oneFunctor responseFrame true
          ServerSession.usedWorker →
        IsBoundCall .reference oneFunctor responseFrame ∨
          IsBoundNotification .reference oneFunctor responseFrame) ∧
      ((oneFunctor.dispatch .reference responseFrame true).exec
        ServerSession.usedWorker).2.invocations = [("f", [])] := by
  have hcalled : ((oneFunctor.dispatch .reference responseFrame true).exec
      ServerSession.usedWorker).2.invocations = [("f", [])] := rfl
  refine ⟨fun h => ?_, hcalled⟩
  have hruns : RunsFunctor .reference oneFunctor responseFrame true
      ServerSession.usedWorker := by
    unfold RunsFunctor
    rw [hcalled]
    simp [ServerSession.usedWorker]
  rcases h hruns with ⟨code, id, name, args, funcName, hmsg, hcall, -⟩ |
    ⟨code, name, args, funcName, hmsg, -⟩
  · obtain ⟨rfl, -⟩ := List.cons.inj (Object.array.inj hmsg)
    cases hcall
  · cases hmsg

end Dispatcher
end Server
end RpcLib
