import RpcLib.Server.Sequential

/-!
# The application is what was called

The state of the application behind the functors is what the calls of the
functors have made of it, one after the other, and nothing else.

* `mem_callsOf`, `dispatch_app`: what a dispatch calls, and what that makes of
  the application.
* `Linked.split`, `Linked.replay`: the same for a list of dispatches, and for
  the dispatches before one of them.
* `Ran.responses_of_returned`: the response to a call whose functor returns and
  leaves the thread-local objects alone.
-/

namespace RpcLib
namespace Server

open Protocol

variable {ω V Buf : Type} (mp : MsgPack Buf)

namespace Dispatcher

/-- A dispatch calls what is bound to the name that the message addresses, with
the arguments that the functor reads. -/
theorem mem_callsOf {d : Dispatcher ω V} {msg : Object} {name : String}
    {vals : List V} :
    (name, vals) ∈ d.callsOf mp msg ↔
      ∃ args func, addressee mp msg = some (name, args) ∧
        d.funcs.lookup name = some func ∧
        func.readArgs mp name args = .ok vals := by
  unfold callsOf
  rw [Option.mem_toList, Option.bind_eq_some_iff]
  constructor
  · rintro ⟨⟨name', args⟩, haddressee, hcall⟩
    obtain ⟨func, hbound, hcall⟩ := Option.bind_eq_some_iff.mp hcall
    cases hread : func.readArgs mp name' args with
    | error e => simp [hread, Except.toOption] at hcall
    | ok vals' =>
        simp only [hread, Except.toOption, Option.map_some,
          Option.some.injEq, Prod.mk.injEq] at hcall
        obtain ⟨rfl, rfl⟩ := hcall
        exact ⟨args, func, haddressee, hbound, hread⟩
  · rintro ⟨args, func, haddressee, hbound, hread⟩
    exact ⟨(name, args), haddressee,
      by simp [hbound, hread, Except.toOption]⟩

/-- What the call of a functor makes of the application. -/
def afterCall (d : Dispatcher ω V) (id : SessionId) (app : ω)
    (call : String × List V) : ω :=
  match d.funcs.lookup call.1 with
  | none => app
  | some func => (func.body app id call.2).1

theorem afterCall_of_bound {d : Dispatcher ω V} {name : String}
    {func : Functor ω V} (hbound : d.funcs.lookup name = some func)
    (id : SessionId) (app : ω) (vals : List V) :
    d.afterCall id app (name, vals) = (func.body app id vals).1 := by
  unfold afterCall
  rw [hbound]

/-- A dispatch changes the application by what it calls. -/
theorem dispatch_app (d : Dispatcher ω V) (msg : Object) (suppress : Bool)
    (w : Worker ω V) :
    ((d.dispatch mp msg suppress).exec w).2.app =
      (d.callsOf mp msg).foldl (d.afterCall w.thisSession.id) w.app := by
  unfold callsOf
  cases haddressee : addressee mp msg with
  | none =>
      rw [dispatch_state_of_none mp haddressee]
      rfl
  | some addressed =>
      obtain ⟨name, args⟩ := addressed
      rw [dispatch_state_of_addressee mp haddressee, Option.bind_some]
      dsimp only
      cases hbound : d.funcs.lookup name with
      | none => rfl
      | some func =>
          dsimp only
          rw [adaptor_state, Option.bind_some]
          cases func.readArgs mp name args with
          | error e => rfl
          | ok vals =>
              dsimp only
              rw [Functor.exec_invoke, (perform_frame _ _).1]
              exact (afterCall_of_bound hbound _ _ _).symm

end Dispatcher

/-- A recorded dispatch has changed the application by what it has called. -/
theorem Ran.after_eq {session : ServerSession ω V} {d : Dispatched ω V}
    {w w' : Worker ω V} (h : Ran mp session d w w') :
    d.after = (session.disp.callsOf mp d.msg).foldl
      (session.disp.afterCall session.id) d.before := by
  have hstate : ((session.dispatchTask mp d.msg).exec w).2 = w' := by
    rcases h.result with hok | ⟨-, e, herror⟩
    · rw [hok]
    · rw [herror]
  rw [ServerSession.dispatchTask_state] at hstate
  rw [← h.after, ← hstate, Dispatcher.dispatch_app, ← h.before]
  rfl

/-- Dispatches that are linked can be cut before each of them. -/
theorem Linked.split {first last : ω} {before after : List (Dispatched ω V)}
    {d : Dispatched ω V} (h : Linked first (before ++ d :: after) last) :
    Linked first before d.before := by
  induction before generalizing first with
  | nil => exact h.1.symm
  | cons d' before ih => exact ⟨h.1, ih h.2⟩

/-- Where the functors do not look at the session, linked dispatches change the
application by the list of all calls. -/
theorem Linked.replay {apply : ω → String × List V → ω} {first last : ω}
    {ds : List (Dispatched ω V)} (h : Linked first ds last)
    (hafter : ∀ d ∈ ds, d.after = d.called.foldl apply d.before) :
    last = (ds.flatMap Dispatched.called).foldl apply first := by
  induction ds generalizing first with
  | nil => exact h.symm
  | cons d ds ih =>
      obtain ⟨hbefore, hrest⟩ := h
      rw [List.flatMap_cons, List.foldl_append, ← hbefore,
        ← hafter d List.mem_cons_self]
      exact ih hrest fun d' hd' => hafter d' (List.mem_cons_of_mem _ hd')

/-- A functor that returns and leaves the thread-local objects alone is
answered with what it returns. -/
theorem Ran.responses_of_returned {session : ServerSession ω V}
    {d : Dispatched ω V} {w w' : Worker ω V} (h : Ran mp session d w w')
    (hsize : mp.arraySize d.msg = 4) {code : Int8} {id : Int32} {name : String}
    {args : Object}
    (htuple : mp.callTuple d.msg = some (code, id, name, args))
    {func : Functor ω V} (hbound : session.disp.funcs.lookup name = some func)
    {vals : List V} (hargs : func.readArgs mp name args = .ok vals) {r : Object}
    (hreturned : (func.body d.before session.id vals).2 = ⟨[], .returned r⟩) :
    d.responses =
      [.makeResultHandle id.toUInt32 (some (func.packResult r))] := by
  have hbody : (func.body (session.prepare w).app
      (session.prepare w).thisSession.id vals).2 = ⟨[], .returned r⟩ := by
    rw [← hreturned, ← h.before]
    rfl
  have hdispatch := Dispatcher.dispatchCall_exec_bound mp htuple hbound
    session.suppressExceptions (session.prepare w)
  rw [Functor.adaptor_exec, hargs] at hdispatch
  simp only [Functor.invokeAndPack, Functor.exec_invoke, hbody,
    HandlerRun.perform, Outcome.finish, List.foldl_nil] at hdispatch
  have hresult := h.result
  rw [ServerSession.dispatchTask_exec,
    Dispatcher.dispatch_of_size_four mp hsize, hdispatch] at hresult
  rcases hresult with hok | ⟨-, e, herror⟩
  · have hposted := (Prod.mk.inj hok).1
    rw [Dispatched.responses, ← Except.ok.inj hposted, responses_posts]
    rfl
  · cases (Prod.mk.inj herror).1

end Server
end RpcLib
