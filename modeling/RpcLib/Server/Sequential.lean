import RpcLib.Server.ReplyMemory
import RpcLib.Server.SingleThread

/-!
# The server is one sequential machine

However many threads run the `io_context`, what the dispatches do is what they
would do one after the other on a thread of their own: a dispatch resets the
thread-local objects before it runs, so that it depends on the state of the
application alone.  The dispatch task with its functor is one step here.  The
program runs the tasks of several threads at the same time and without a lock,
so this is about applications whose functors are atomic.

What the thread-local objects do carry from one dispatch to another is the
zones of the replies that wait; the result is about runs that spare them.

* `Blind`: a computation that does not look at what has been called before,
  closed under sequencing and `try`.
* `ServerSession.serve`, `serveAll`: one message, and a list of them, on a
  fresh thread.
* `dispatches_sequential`: the dispatches of a run, of all sessions and
  threads, are `serveAll` of their messages, and its replies are what the
  sessions write.
-/

namespace RpcLib
namespace Server

open Protocol Transport Foundation TransitionSystem

variable {ω V Buf : Type} (mp : MsgPack Buf)

/-! ## What a dispatch does not depend on -/

/-- Two threads that differ at most in what was called before. -/
structure Alike (w v : Worker ω V) : Prop where
  app : w.app = v.app
  thisHandler : w.thisHandler = v.thisHandler
  thisSession : w.thisSession = v.thisSession
  thisServer : w.thisServer = v.thisServer

/-- The computation ends the same way on threads that are alike, and leaves
them alike. -/
def Blind {α : Type} (x : DispatchM ω V α) : Prop :=
  ∀ w v, Alike w v →
    (x.exec w).1 = (x.exec v).1 ∧ Alike (x.exec w).2 (x.exec v).2

namespace Blind

variable {α β : Type}

theorem pure (a : α) : Blind (pure a : DispatchM ω V α) :=
  fun _ _ h => ⟨rfl, h⟩

theorem throw (e : Exn) : Blind (throw e : DispatchM ω V α) :=
  fun _ _ h => ⟨rfl, h⟩

theorem ofExcept (x : Except Exn α) :
    Blind (DispatchM.ofExcept x : DispatchM ω V α) :=
  fun _ _ h => ⟨rfl, h⟩

theorem bind {x : DispatchM ω V α} {f : α → DispatchM ω V β}
    (hx : Blind x) (hf : ∀ a, Blind (f a)) : Blind (x >>= f) := by
  intro w v h
  obtain ⟨hresult, hstate⟩ := hx w v h
  rw [DispatchM.exec_bind, DispatchM.exec_bind]
  generalize x.exec w = ran at hresult hstate ⊢
  generalize x.exec v = ran' at hresult hstate ⊢
  obtain ⟨result, w'⟩ := ran
  obtain ⟨result', v'⟩ := ran'
  obtain rfl : result = result' := hresult
  cases result with
  | ok a => exact hf a w' v' hstate
  | error e => exact ⟨rfl, hstate⟩

theorem tryCatch {x : DispatchM ω V α} {handler : Exn → DispatchM ω V α}
    (hx : Blind x) (hhandler : ∀ e, Blind (handler e)) :
    Blind (tryCatch x handler) := by
  intro w v h
  obtain ⟨hresult, hstate⟩ := hx w v h
  rw [DispatchM.exec_tryCatch, DispatchM.exec_tryCatch]
  generalize x.exec w = ran at hresult hstate ⊢
  generalize x.exec v = ran' at hresult hstate ⊢
  obtain ⟨result, w'⟩ := ran
  obtain ⟨result', v'⟩ := ran'
  obtain rfl : result = result' := hresult
  cases result with
  | ok a => exact ⟨rfl, hstate⟩
  | error e => exact hhandler e w' v' hstate

end Blind

/-- An action of a handler keeps threads alike. -/
theorem Alike.perform {w v : Worker ω V} (h : Alike w v)
    (action : HandlerAction) :
    Alike (HandlerAction.perform w action)
      (HandlerAction.perform v action) := by
  obtain ⟨app, handler, session, server, called⟩ := w
  obtain ⟨app', handler', session', server', called'⟩ := v
  obtain ⟨rfl, rfl, rfl, rfl⟩ := h
  cases action <;> exact ⟨rfl, rfl, rfl, rfl⟩

theorem Alike.actions {w v : Worker ω V} (h : Alike w v)
    (actions : List HandlerAction) :
    Alike (actions.foldl HandlerAction.perform w)
      (actions.foldl HandlerAction.perform v) := by
  induction actions generalizing w v with
  | nil => exact h
  | cons action actions ih => exact ih (h.perform action)

theorem Alike.finish {w v : Worker ω V} (h : Alike w v) (outcome : Outcome) :
    (outcome.finish w).1 = (outcome.finish v).1 ∧
      Alike (outcome.finish w).2 (outcome.finish v).2 := by
  obtain ⟨app, handler, session, server, called⟩ := w
  obtain ⟨app', handler', session', server', called'⟩ := v
  obtain ⟨rfl, rfl, rfl, rfl⟩ := h
  cases outcome <;> exact ⟨rfl, rfl, rfl, rfl, rfl⟩

/-- A functor sees the application and the id of the session. -/
theorem blind_invoke (func : Functor ω V) (name : String) (vals : List V) :
    Blind (func.invoke name vals) := by
  intro w v h
  obtain ⟨app, handler, session, server, called⟩ := w
  obtain ⟨app', handler', session', server', called'⟩ := v
  obtain ⟨rfl, rfl, rfl, rfl⟩ := h
  rw [Functor.exec_invoke, Functor.exec_invoke]
  refine Alike.finish (Alike.actions ?_ _) _
  exact ⟨rfl, rfl, rfl, rfl⟩

theorem blind_adaptor (func : Functor ω V) (name : String) (args : Object) :
    Blind (func.adaptor mp name args) := by
  have hzero : ∀ finish, Blind (func.zeroArgAdaptor mp finish name args) :=
    fun finish => (Blind.ofExcept _).bind fun _ =>
      (blind_invoke func name []).bind fun _ => Blind.pure _
  have hnonzero : ∀ finish,
      Blind (func.nonzeroArgAdaptor mp finish name args) :=
    fun finish => (Blind.ofExcept _).bind fun _ =>
      (Blind.ofExcept _).bind fun vals =>
        (blind_invoke func name vals).bind fun _ => Blind.pure _
  unfold Functor.adaptor
  split
  · exact hzero _
  · exact hnonzero _
  · exact hzero _
  · exact hnonzero _

theorem blind_catchCall (suppress : Bool) (id : UInt32) (name : String)
    (argsSize msgSize : Nat) (e : Exn) :
    Blind (Dispatcher.catchCall (ω := ω) (V := V) suppress id name argsSize
      msgSize e) := by
  cases e <;> cases suppress <;>
    first
      | exact Blind.pure _
      | exact Blind.throw _

theorem blind_catchNotification (suppress : Bool) (e : Exn) :
    Blind (Dispatcher.catchNotification (ω := ω) (V := V) suppress e) := by
  cases e <;> cases suppress <;>
    first
      | exact Blind.pure _
      | exact Blind.throw _

/-- A dispatch sees the application and the id of the session. -/
theorem blind_dispatch (d : Dispatcher ω V) (msg : Object) (suppress : Bool) :
    Blind (d.dispatch mp msg suppress) := by
  unfold Dispatcher.dispatch
  split
  · unfold Dispatcher.dispatchNotification
    split
    · exact Blind.throw _
    · split
      · refine Blind.bind (Blind.tryCatch ?_ ?_) fun _ => Blind.pure _
        · exact (blind_adaptor mp _ _ _).bind fun _ => Blind.pure _
        · exact blind_catchNotification suppress
      · exact Blind.pure _
  · unfold Dispatcher.dispatchCall
    split
    · exact Blind.throw _
    · split
      · refine Blind.bind (Blind.tryCatch ?_ ?_) fun early => ?_
        · exact (blind_adaptor mp _ _ _).bind fun _ => Blind.pure _
        · exact blind_catchCall suppress _ _ _ _
        · split
          · exact Blind.pure _
          · exact Blind.pure _
      · exact Blind.pure _
  · exact Blind.pure _

/-! ## The sequential server -/

/-- A thread that has run nothing. -/
def Worker.fresh (app : ω) : Worker ω V :=
  ⟨app, ⟨.nil, .nil, true⟩, ⟨false, 0⟩, ⟨false⟩, []⟩

/-- What the message does to the application, and what is posted for it, on a
thread that has run nothing. -/
def ServerSession.serve (session : ServerSession ω V) (msg : Object)
    (app : ω) : ω × List Posted :=
  let (result, w) := (session.dispatchTask mp msg).exec (.fresh app)
  (w.app, match result with
    | .ok posted => posted
    | .error _ => [])

/-- The messages of several sessions, one after the other. -/
def serveAll (session : SessionNumber → ServerSession ω V) :
    ω → List (SessionNumber × Object) → ω × List (List Posted)
  | app, [] => (app, [])
  | app, (k, msg) :: rest =>
      let (app, posted) := (session k).serve mp msg app
      let (app, later) := serveAll session app rest
      (app, posted :: later)

/-- A recorded dispatch has done what its message does on a fresh thread. -/
theorem Ran.serve {session : ServerSession ω V} {d : Dispatched ω V}
    {w w' : Worker ω V} (h : Ran mp session d w w') :
    session.serve mp d.msg d.before = (d.after, d.posted) := by
  have hstart : Alike (session.prepare w)
      (session.prepare (.fresh d.before)) :=
    ⟨h.before, rfl, rfl, rfl⟩
  obtain ⟨hresult, hstate⟩ := blind_dispatch mp session.disp d.msg
    session.suppressExceptions _ _ hstart
  have hresult' := h.result
  unfold ServerSession.serve
  rw [ServerSession.dispatchTask_exec] at hresult' ⊢
  generalize (session.disp.dispatch mp d.msg session.suppressExceptions).exec
    (session.prepare w) = ran at hresult hstate hresult'
  generalize (session.disp.dispatch mp d.msg session.suppressExceptions).exec
    (session.prepare (.fresh d.before)) = ran' at hresult hstate ⊢
  obtain ⟨result, v⟩ := ran
  obtain ⟨result', v'⟩ := ran'
  obtain rfl : result = result' := hresult
  have happ : v.app = v'.app := hstate.app
  have hafter := h.after
  cases result with
  | ok resp =>
      have hsame : ServerSession.posts v resp = ServerSession.posts v' resp := by
        unfold ServerSession.posts
        rw [hstate.thisHandler, hstate.thisSession, hstate.thisServer]
      rcases hresult' with hok | ⟨-, e, herror⟩
      · obtain ⟨hposted, rfl⟩ := Prod.mk.inj hok
        dsimp only
        rw [← happ, hafter, ← hsame, Except.ok.inj hposted]
      · cases herror
  | error e =>
      rcases hresult' with hok | ⟨hnone, e', herror⟩
      · cases hok
      · obtain ⟨-, rfl⟩ := Prod.mk.inj herror
        dsimp only
        rw [← happ, hafter, hnone]

/-- So has a list of them that are linked by the application. -/
theorem serveAll_of_linked {session : SessionNumber → ServerSession ω V}
    {first last : ω} {ds : List (Dispatched ω V)}
    (hlinked : Linked first ds last)
    (hran : ∀ d ∈ ds, ∃ w w', Ran mp (session d.number) d w w') :
    serveAll mp session first (ds.map fun d => (d.number, d.msg)) =
      (last, ds.map Dispatched.posted) := by
  induction ds generalizing first with
  | nil => exact congrArg (·, []) hlinked
  | cons d ds ih =>
      obtain ⟨hbefore, hrest⟩ := hlinked
      obtain ⟨w, w', hd⟩ := hran d List.mem_cons_self
      have hserve := hd.serve
      rw [hbefore] at hserve
      rw [List.map_cons]
      unfold serveAll
      rw [hserve]
      dsimp only
      rw [ih hrest fun d' hd' => hran d' (List.mem_cons_of_mem _ hd')]
      rfl

variable {mp} {unpacker : Decoder Object UInt8} {disp : Dispatcher ω V}

/-- The dispatches of a server are a run of the sequential server. -/
theorem Serving.sequential {app : ω} {s : State ω V Buf}
    (h : Serving mp unpacker disp app s) :
    serveAll mp (fun k => (s.connection k).toServerSession) app
        (s.dispatched.map fun d => (d.number, d.msg)) =
      (s.app, s.dispatched.map Dispatched.posted) := by
  refine serveAll_of_linked mp h.history.linked fun d hd => ?_
  obtain ⟨w, w', hran, -⟩ := h.executed d hd
  exact ⟨w, w', hran⟩

variable (mp unpacker disp) (garbage : StoredObject → Object)

/-- In every reachable state, whatever its threads have done in between, the
dispatches of all sessions have changed the application and posted replies as
the sequential server does with their messages in this order; and what a
session has put into its `write_queue_` is among the replies to its messages,
none of them more often. -/
theorem dispatches_sequential {app : ω} {s : State ω V Buf × ReplyMemory}
    (hreach : Reachable
      (stepWithMemory garbage (serverAlone mp unpacker disp))
      (Sparing (serverAlone mp unpacker disp) unguarded)
      (.initial disp app, .initial) s) :
    serveAll mp (fun k => (s.1.connection k).toServerSession) app
        (s.1.dispatched.map fun d => (d.number, d.msg)) =
      (s.1.app, s.1.dispatched.map Dispatched.posted) ∧
    ∀ k < s.1.created, (s.1.connection k).writer.accepted.Subperm
      ((s.1.dispatchedOf k).flatMap (Dispatched.frames mp)) := by
  have hserver := (without_memory garbage (serverAlone mp unpacker disp)
    (.initial disp app, .initial) (.initial disp app) hreach).1
  have h : Serving mp unpacker disp app s.1 :=
    hserver.invariant (.initial mp unpacker disp app)
      fun _ _ _ h _ hstep => h.step mp unpacker disp hstep
  exact ⟨h.sequential, fun k hk => (h.replied k hk).sublist.subperm⟩

/-- Two sessions, each accepted by a thread of its own; the notification that
one of them was sent and the call that the other one was sent run on the same
thread, and the answer is written. -/
def countedByTwo : List Event :=
  [.acceptDone 0 .success 1, .resume 0,
    .acceptDone 1 .success 2, .resume 1,
    .readDone 0 0 .success [0x93, 2, 0xa1, 0x6e, 0x90],
    .readDone 1 1 .success [0x94, 0, 7, 0xa1, 0x67, 0x90],
    .dispatch 1 0, .dispatch 1 0, .runStrand 0 1]

theorem dispatches_sequential_counted :
    ∃ s, run (step .reference MsgPack.shortForms counting)
        (.initial counting 0) countedByTwo = some s ∧
      serveAll .reference (fun k => (s.connection k).toServerSession) 0
        [(0, countThenAsk[0]), (1, countThenAsk[1])] =
          (1, s.dispatched.map Dispatched.posted) ∧
      List.Subperm [some (.array [.positiveInteger 1, .positiveInteger 7, .nil,
        .positiveInteger 1])] ((s.dispatchedOf 1).flatMap
          (Dispatched.frames .reference)) := by
  have hends : (run (step .reference MsgPack.shortForms counting)
      (.initial counting 0) countedByTwo).map (fun s =>
        (s.app, s.dispatched.map fun d => (d.number, d.msg), s.created,
          (s.connection 1).writer.accepted)) =
      some (1, [(0, countThenAsk[0]), (1, countThenAsk[1])], 2,
        [some (.array [.positiveInteger 1, .positiveInteger 7, .nil,
          .positiveInteger 1])]) := rfl
  let part := serverAlone .reference MsgPack.shortForms counting
  have hprompt : checkRun (step .reference MsgPack.shortForms counting)
      (isPrompt part) (.initial counting 0) countedByTwo = true := rfl
  obtain ⟨s, hrun, hend⟩ := Option.map_eq_some_iff.mp hends
  simp only [Prod.mk.injEq] at hend
  obtain ⟨happ, hmsgs, hcreated, haccepted⟩ := hend
  have hguard : EachStep (step .reference MsgPack.shortForms counting)
      (fun s e => unguarded s e ∧ isPrompt part s e = true)
      (.initial counting 0) countedByTwo :=
    eachStep_of_checkRun (fun _ _ h => ⟨trivial, h⟩) hprompt
  obtain ⟨m, hreach, -⟩ := with_memory (fun _ => .nil) part
    (.initial counting 0) (.initial counting 0) (reachable_of_run hguard hrun)
  obtain ⟨hsequential, hwritten⟩ := dispatches_sequential .reference
    MsgPack.shortForms counting (fun _ => .nil) hreach
  have hone := hwritten 1 (by rw [hcreated]; omega)
  rw [haccepted] at hone
  rw [happ, hmsgs] at hsequential
  exact ⟨s, hrun, hsequential, hone⟩

end Server
end RpcLib
