import RpcLib.MsgPack.Reference
import RpcLib.Server.Dispatcher

/-!
# What a dispatch returns

One equation for each of the two dispatch paths, and what their `catch`
clauses make of an exception.  With exceptions suppressed, a path whose
message has been converted always returns: a call with its own id, and with an
error text whenever the functor did not return.

The conversion of the message itself stands outside both `try` statements.
`dispatch_returns_iff` states which messages survive it.
-/

namespace RpcLib
namespace Server

open Protocol

variable {ω V Buf : Type} (mp : MsgPack Buf)

namespace Dispatcher

/-- What `dispatch_call` makes of an exception of the adaptor. -/
def callFailure (suppress : Bool) (id : UInt32) (name : String)
    (argsSize msgSize : Nat) (e : Exn) : Except Exn Response :=
  match e with
  | .clientError what => .ok (.makeError id (.str ("rpclib: " ++ what)))
  | .stdException what =>
      if suppress then
        .ok (.makeError id (.str
          ("rpclib: function '" ++ name ++ "' (called with " ++
            toString argsSize ++ " arg(s)) threw an exception. " ++
            "The exception contained this informatin: " ++ what ++ ".")))
      else .error (.stdException what)
  | .handlerError => .ok (notFound id name msgSize)
  | .handlerSepcResponse => .ok (notFound id name msgSize)
  | .other =>
      if suppress then
        .ok (.makeError id (.str
          ("rpclib: function '" ++ name ++ "' (called with " ++
            toString msgSize ++ " arg(s)) threw an exception." ++
            "No further information available.")))
      else .error .other

/-- With exceptions suppressed nothing passes the `catch` clauses. -/
theorem callFailure_suppressed (id : UInt32) (name : String)
    (argsSize msgSize : Nat) (e : Exn) :
    ∃ text, callFailure true id name argsSize msgSize e =
      .ok (.makeError id (.str text)) := by
  cases e <;> exact ⟨_, rfl⟩

/-- `dispatch_call` of a converted message whose name is bound. -/
theorem dispatchCall_exec_bound {d : Dispatcher ω V} {msg : Object}
    {code : Int8} {id : Int32} {name : String} {args : Object}
    {func : Functor ω V}
    (htuple : mp.callTuple msg = some (code, id, name, args))
    (hbound : d.funcs.lookup name = some func) (suppress : Bool)
    (w : Worker ω V) :
    (d.dispatchCall mp msg suppress).exec w =
      match (func.adaptor mp name args).exec w with
      | (.ok res, w') =>
          (.ok (.makeResultHandle id.toUInt32 (some res)), w')
      | (.error e, w') =>
          (callFailure suppress id.toUInt32 name (mp.arraySize args)
            (mp.arraySize msg) e, w') := by
  unfold dispatchCall
  simp only [htuple, hbound]
  rw [DispatchM.exec_bind, DispatchM.exec_tryCatch, DispatchM.exec_bind]
  rcases (func.adaptor mp name args).exec w with ⟨e | res, w'⟩
  · cases e <;> cases suppress <;> rfl
  · rfl

/-- `dispatch_call` of a converted message whose name is not bound. -/
theorem dispatchCall_exec_unbound {d : Dispatcher ω V} {msg : Object}
    {code : Int8} {id : Int32} {name : String} {args : Object}
    (htuple : mp.callTuple msg = some (code, id, name, args))
    (hunbound : d.funcs.lookup name = none) (suppress : Bool)
    (w : Worker ω V) :
    (d.dispatchCall mp msg suppress).exec w =
      (.ok (notFound id.toUInt32 name (mp.arraySize msg)), w) := by
  unfold dispatchCall
  simp only [htuple, hunbound]
  rfl

/-- A message that does not convert to `call_t` makes `dispatch_call` throw
before its `try` statement. -/
theorem dispatchCall_exec_unconverted {d : Dispatcher ω V} {msg : Object}
    (htuple : mp.callTuple msg = none) (suppress : Bool) (w : Worker ω V) :
    (d.dispatchCall mp msg suppress).exec w = (.error .typeError, w) := by
  unfold dispatchCall
  rw [htuple]
  rfl

/-- What `dispatch_notification` makes of an exception of the adaptor. -/
def notificationFailure (suppress : Bool) : Exn → Except Exn Response
  | .handlerError => .ok .emptyResponse
  | .handlerSepcResponse => .ok .emptyResponse
  | e => if suppress then .ok .emptyResponse else .error e

theorem dispatchNotification_exec_bound {d : Dispatcher ω V} {msg : Object}
    {code : Int8} {name : String} {args : Object} {func : Functor ω V}
    (htuple : mp.notificationTuple msg = some (code, name, args))
    (hbound : d.funcs.lookup name = some func) (suppress : Bool)
    (w : Worker ω V) :
    (d.dispatchNotification mp msg suppress).exec w =
      match (func.adaptor mp name args).exec w with
      | (.ok _, w') => (.ok .emptyResponse, w')
      | (.error e, w') => (notificationFailure suppress e, w') := by
  unfold dispatchNotification
  simp only [htuple, hbound]
  rw [DispatchM.exec_bind, DispatchM.exec_tryCatch, DispatchM.exec_bind]
  rcases (func.adaptor mp name args).exec w with ⟨e | res, w'⟩
  · cases e <;> cases suppress <;> rfl
  · rfl

theorem dispatchNotification_exec_unbound {d : Dispatcher ω V} {msg : Object}
    {code : Int8} {name : String} {args : Object}
    (htuple : mp.notificationTuple msg = some (code, name, args))
    (hunbound : d.funcs.lookup name = none) (suppress : Bool)
    (w : Worker ω V) :
    (d.dispatchNotification mp msg suppress).exec w =
      (.ok .emptyResponse, w) := by
  unfold dispatchNotification
  simp only [htuple, hunbound]
  rfl

theorem dispatchNotification_exec_unconverted {d : Dispatcher ω V}
    {msg : Object} (htuple : mp.notificationTuple msg = none)
    (suppress : Bool) (w : Worker ω V) :
    (d.dispatchNotification mp msg suppress).exec w =
      (.error .typeError, w) := by
  unfold dispatchNotification
  rw [htuple]
  rfl

/-- A converted call, with exceptions suppressed, is answered: a response with
the id of the call, not empty. -/
theorem dispatchCall_answers {d : Dispatcher ω V} {msg : Object}
    {code : Int8} {id : Int32} {name : String} {args : Object}
    (htuple : mp.callTuple msg = some (code, id, name, args))
    (w : Worker ω V) :
    ∃ resp w', (d.dispatchCall mp msg true).exec w = (.ok resp, w') ∧
      resp.id = id.toUInt32 ∧ resp.empty = false := by
  cases hlookup : d.funcs.lookup name with
  | none =>
      exact ⟨_, _, dispatchCall_exec_unbound mp htuple hlookup true w,
        by simp [notFound], by simp [notFound]⟩
  | some func =>
      rw [dispatchCall_exec_bound mp htuple hlookup]
      rcases (func.adaptor mp name args).exec w with ⟨e | res, w'⟩
      · obtain ⟨text, hfailure⟩ := callFailure_suppressed id.toUInt32 name
          (mp.arraySize args) (mp.arraySize msg) e
        refine ⟨.makeError id.toUInt32 (.str text), w', ?_, by simp, by simp⟩
        simp only [hfailure]
      · exact ⟨_, w', rfl, by simp, by simp⟩

/-- A converted notification, with exceptions suppressed, returns the empty
response. -/
theorem dispatchNotification_returns {d : Dispatcher ω V} {msg : Object}
    {code : Int8} {name : String} {args : Object}
    (htuple : mp.notificationTuple msg = some (code, name, args))
    (w : Worker ω V) :
    ∃ w', (d.dispatchNotification mp msg true).exec w =
      (.ok .emptyResponse, w') := by
  cases hlookup : d.funcs.lookup name with
  | none => exact ⟨w, dispatchNotification_exec_unbound mp htuple hlookup _ w⟩
  | some func =>
      rw [dispatchNotification_exec_bound mp htuple hlookup]
      rcases (func.adaptor mp name args).exec w with ⟨e | res, w'⟩
      · exact ⟨w', by cases e <;> rfl⟩
      · exact ⟨w', rfl⟩

theorem dispatch_of_size_three {d : Dispatcher ω V} {msg : Object}
    (hsize : mp.arraySize msg = 3) (suppress : Bool) :
    d.dispatch mp msg suppress = d.dispatchNotification mp msg suppress := by
  simp [dispatch, hsize]

theorem dispatch_of_size_four {d : Dispatcher ω V} {msg : Object}
    (hsize : mp.arraySize msg = 4) (suppress : Bool) :
    d.dispatch mp msg suppress = d.dispatchCall mp msg suppress := by
  simp [dispatch, hsize]

theorem dispatch_exec_of_other_size {d : Dispatcher ω V} {msg : Object}
    (hthree : mp.arraySize msg ≠ 3) (hfour : mp.arraySize msg ≠ 4)
    (suppress : Bool) (w : Worker ω V) :
    (d.dispatch mp msg suppress).exec w = (.ok .emptyResponse, w) := by
  unfold dispatch
  split
  · exact absurd ‹_› hthree
  · exact absurd ‹_› hfour
  · rfl

/-! ## Messages that survive the conversion -/

/-- An array `[code, id, name, args]` whose first three elements convert to
`int8_t`, `int32_t` and `std::string`. -/
def IsCall (msg : Object) : Prop :=
  ∃ code id name args, msg = .array [code, id, name, args] ∧
    (mp.int8 code).isSome ∧ (mp.int32 id).isSome ∧ (mp.string name).isSome

/-- An array `[code, name, args]` whose first two elements convert to `int8_t`
and `std::string`. -/
def IsNotification (msg : Object) : Prop :=
  ∃ code name args, msg = .array [code, name, args] ∧
    (mp.int8 code).isSome ∧ (mp.string name).isSome

theorem IsCall.exists_tuple {msg : Object} (h : IsCall mp msg) :
    ∃ code id name args, mp.callTuple msg = some (code, id, name, args) := by
  obtain ⟨code, id, name, args, rfl, hcode, hid, hname⟩ := h
  obtain ⟨code', hcode'⟩ := Option.isSome_iff_exists.mp hcode
  obtain ⟨id', hid'⟩ := Option.isSome_iff_exists.mp hid
  obtain ⟨name', hname'⟩ := Option.isSome_iff_exists.mp hname
  exact ⟨code', id', name', args, by simp [hcode', hid', hname']⟩

theorem IsNotification.exists_tuple {msg : Object}
    (h : IsNotification mp msg) :
    ∃ code name args, mp.notificationTuple msg = some (code, name, args) := by
  obtain ⟨code, name, args, rfl, hcode, hname⟩ := h
  obtain ⟨code', hcode'⟩ := Option.isSome_iff_exists.mp hcode
  obtain ⟨name', hname'⟩ := Option.isSome_iff_exists.mp hname
  exact ⟨code', name', args, by simp [hcode', hname']⟩

/-- Among the messages that `dispatch` sends down the call path only arrays
convert to `call_t`, element by element. -/
theorem callTuple_eq_some {msg : Object} (hsize : mp.arraySize msg = 4)
    {code' : Int8} {id' : Int32} {name' : String} {args : Object}
    (htuple : mp.callTuple msg = some (code', id', name', args)) :
    ∃ code id name, msg = .array [code, id, name, args] ∧
      mp.int8 code = some code' ∧ mp.int32 id = some id' ∧
      mp.string name = some name' := by
  by_cases harray : ∃ elements, msg = .array elements
  · obtain ⟨elements, rfl⟩ := harray
    rw [mp.arraySize_array] at hsize
    obtain ⟨code, id, name, args', rfl⟩ := List.length_eq_four.mp hsize
    rw [mp.callTuple_array] at htuple
    obtain ⟨c, hcode, htuple⟩ := Option.bind_eq_some_iff.mp htuple
    obtain ⟨i, hid, htuple⟩ := Option.bind_eq_some_iff.mp htuple
    obtain ⟨n, hname, htuple⟩ := Option.map_eq_some_iff.mp htuple
    cases htuple
    exact ⟨code, id, name, rfl, hcode, hid, hname⟩
  · push Not at harray
    simp [mp.callTuple_not_array msg harray] at htuple

theorem notificationTuple_eq_some {msg : Object}
    (hsize : mp.arraySize msg = 3) {code' : Int8} {name' : String}
    {args : Object}
    (htuple : mp.notificationTuple msg = some (code', name', args)) :
    ∃ code name, msg = .array [code, name, args] ∧
      mp.int8 code = some code' ∧ mp.string name = some name' := by
  by_cases harray : ∃ elements, msg = .array elements
  · obtain ⟨elements, rfl⟩ := harray
    rw [mp.arraySize_array] at hsize
    obtain ⟨code, name, args', rfl⟩ := List.length_eq_three.mp hsize
    rw [mp.notificationTuple_array] at htuple
    obtain ⟨c, hcode, htuple⟩ := Option.bind_eq_some_iff.mp htuple
    obtain ⟨n, hname, htuple⟩ := Option.map_eq_some_iff.mp htuple
    cases htuple
    exact ⟨code, name, rfl, hcode, hname⟩
  · push Not at harray
    simp [mp.notificationTuple_not_array msg harray] at htuple

theorem isCall_of_tuple {msg : Object} (hsize : mp.arraySize msg = 4)
    (hsome : (mp.callTuple msg).isSome) : IsCall mp msg := by
  obtain ⟨⟨code', id', name', args⟩, htuple⟩ :=
    Option.isSome_iff_exists.mp hsome
  obtain ⟨code, id, name, rfl, hcode, hid, hname⟩ :=
    callTuple_eq_some mp hsize htuple
  exact ⟨code, id, name, args, rfl, by simp [hcode], by simp [hid],
    by simp [hname]⟩

theorem isNotification_of_tuple {msg : Object}
    (hsize : mp.arraySize msg = 3)
    (hsome : (mp.notificationTuple msg).isSome) : IsNotification mp msg := by
  obtain ⟨⟨code', name', args⟩, htuple⟩ := Option.isSome_iff_exists.mp hsome
  obtain ⟨code, name, rfl, hcode, hname⟩ :=
    notificationTuple_eq_some mp hsize htuple
  exact ⟨code, name, args, rfl, by simp [hcode], by simp [hname]⟩

/-- `dispatch` with exceptions suppressed returns a response, and lets no
exception escape, exactly for the messages that are calls when
`via.array.size` reads four and notifications when it reads three. -/
theorem dispatch_returns_iff (d : Dispatcher ω V) (msg : Object)
    (w : Worker ω V) :
    (∃ resp, ((d.dispatch mp msg true).exec w).1 = .ok resp) ↔
      (mp.arraySize msg = 4 → IsCall mp msg) ∧
        (mp.arraySize msg = 3 → IsNotification mp msg) := by
  constructor
  · rintro ⟨resp, hresp⟩
    refine ⟨fun hfour => ?_, fun hthree => ?_⟩
    -- a failed conversion throws where no `try` statement catches it
    · apply isCall_of_tuple mp hfour
      rw [dispatch_of_size_four mp hfour] at hresp
      cases htuple : mp.callTuple msg with
      | some tuple => rfl
      | none =>
          rw [dispatchCall_exec_unconverted mp htuple] at hresp
          cases hresp
    · apply isNotification_of_tuple mp hthree
      rw [dispatch_of_size_three mp hthree] at hresp
      cases htuple : mp.notificationTuple msg with
      | some tuple => rfl
      | none =>
          rw [dispatchNotification_exec_unconverted mp htuple] at hresp
          cases hresp
  · rintro ⟨hcall, hnotification⟩
    -- behind the conversion every exception is caught
    by_cases hfour : mp.arraySize msg = 4
    · obtain ⟨code, id, name, args, htuple⟩ := (hcall hfour).exists_tuple
      obtain ⟨resp, w', hexec, -⟩ := dispatchCall_answers (d := d) mp htuple w
      exact ⟨resp, by rw [dispatch_of_size_four mp hfour, hexec]⟩
    · by_cases hthree : mp.arraySize msg = 3
      · obtain ⟨code, name, args, htuple⟩ :=
          (hnotification hthree).exists_tuple
        obtain ⟨w', hexec⟩ :=
          dispatchNotification_returns (d := d) mp htuple w
        exact ⟨_, by rw [dispatch_of_size_three mp hthree, hexec]⟩
      · exact ⟨_, by
          rw [dispatch_exec_of_other_size mp hthree hfour]⟩

/-- A call whose id is a string makes `dispatch` throw, whatever is bound and
although exceptions are suppressed. -/
theorem string_id_escapes :
    ¬ ∃ resp, ((dispatch .reference (⟨∅⟩ : Dispatcher Unit Unit)
      (.array [.ofInt8 0, .str "1", .str "f", .array []]) true).exec
        ⟨(), ⟨.nil, .nil, true⟩, ⟨false, 0⟩, ⟨false⟩, []⟩).1 =
      .ok resp := by
  rintro ⟨resp, hresp⟩
  rw [dispatch_of_size_four .reference rfl,
    dispatchCall_exec_unconverted .reference rfl] at hresp
  cases hresp

end Dispatcher
end Server
end RpcLib
