import RpcLib.MsgPack.Reference
import RpcLib.MsgPack.ShortForms
import RpcLib.Server.Step

/-!
# A handler's request to stop and the acceptor

`this_server()` is one flag for each thread, and every dispatch task lowers the
flag of the thread that runs it.  The `close_sessions` handler that a stopping
task posts, and the accept handler, read the flag of whichever thread runs
them.

* `stopping_dispatchTask`: what a dispatch leaves in the flag, from the calls
  of its handler alone.
* `stopReaches_iff`: a posted `close_sessions` cancels the acceptor and no
  accept is started after it exactly when every look at the flag is taken on a
  thread whose last handler asked for the stop.
-/

namespace RpcLib
namespace Server

open Protocol Transport Foundation TransitionSystem

variable {ω V Buf : Type} (mp : MsgPack Buf) (unpacker : Decoder Object UInt8)
  (disp : Dispatcher ω V)

/-! ## The flag of a thread -/

/-- A dispatch task, also one that throws, leaves the flag as the calls of its
handler have left it. -/
theorem stopping_dispatchTask (session : ServerSession ω V) (msg : Object)
    (w : Worker ω V) :
    ((session.dispatchTask mp msg).exec w).2.thisServer.stopping = true ↔
      StopStands (session.requestsOf mp msg w) := by
  have hstopping := (session.disp.dispatch_requests mp msg
    session.suppressExceptions (session.prepare w)).2.1
  rw [ServerSession.dispatchTask_state, hstopping]
  -- the flag is down when the handler starts
  exact or_iff_left (by simp [ServerSession.prepare])

/-- The flag of every thread says whether the last handler that was dispatched
there asked for a stop and did not take it back. -/
def FlagsFollow (s : State ω V Buf) : Prop :=
  ∀ t, (s.locals t).thisServer.stopping = true ↔
    StopStands (s.lastRequests t)

theorem flagsFollow_initial (app : ω) :
    FlagsFollow (.initial disp app : State ω V Buf) := by
  intro t
  simp [State.initial, State.startAccept, ThreadLocals.initial, StopStands]

theorem FlagsFollow.step {s s' : State ω V Buf} {e : Event}
    (h : FlagsFollow s) (hstep : step mp unpacker disp s e = some s') :
    FlagsFollow s' := by
  cases (effect_of_step mp unpacker disp hstep).2 with
  | @acceptFailed t =>
      obtain ⟨_, _, hnext⟩ := s.acceptFailed_eq t
      rw [hnext]
      exact h
  | @register t k =>
      obtain ⟨_, _, hnext⟩ := s.register_eq t k
      rw [hnext]
      exact h
  | @dispatch t i k msg htask =>
      intro u
      by_cases hu : u = t
      · subst hu
        simpa [State.dispatch] using
          stopping_dispatchTask mp (s.connection k).toServerSession msg
            (s.worker u)
      · simpa [State.dispatch, hu] using h u
  | _ => exact h

/-! ## The acceptor -/

/-- Every posted `close_sessions` has cancelled the acceptor, and no accept was
started after it. -/
def StopReaches (s : State ω V Buf) : Prop :=
  ∀ before cancelled after,
    s.acceptor = before ++ .sessionsClosed true cancelled :: after →
    cancelled = true ∧ .started ∉ after

/-- A posted `close_sessions` has come to its end. -/
def StopCarriedOut (s : State ω V Buf) : Prop :=
  ∃ cancelled, .sessionsClosed true cancelled ∈ s.acceptor

/-- A look at the flag after a handler has asked for a stop is taken on a
thread whose last handler has asked for one: by the end of a posted
`close_sessions`, and by an accept handler after that. -/
def LooksWhereStopped (s : State ω V Buf) : Event → Prop
  | .resume t =>
      match s.jobs t with
      | some (.registering _) =>
          StopCarriedOut s → StopStands (s.lastRequests t)
      | some (.closing true []) => StopStands (s.lastRequests t)
      | _ => True
  | .acceptDone t ec _ =>
      ec ≠ .success → StopCarriedOut s → StopStands (s.lastRequests t)
  | _ => True

theorem stopReaches_of_same {s s' : State ω V Buf}
    (hsame : s'.acceptor = s.acceptor) : StopReaches s' ↔ StopReaches s := by
  unfold StopReaches
  rw [hsame]

/-- One more entry behind the others. -/
theorem stopReaches_snoc {s s' : State ω V Buf} {entry : AcceptorEvent}
    (hacceptor : s'.acceptor = s.acceptor ++ [entry]) :
    StopReaches s' ↔ StopReaches s ∧
      (entry = .sessionsClosed true false → False) ∧
      (entry = .started → ¬ StopCarriedOut s) := by
  unfold StopReaches StopCarriedOut
  rw [hacceptor]
  constructor
  · intro h
    refine ⟨fun before cancelled after hsplit => ?_, ?_, ?_⟩
    · have hlast := h before cancelled (after ++ [entry]) (by simp [hsplit])
      exact ⟨hlast.1, fun hstarted =>
        hlast.2 (List.mem_append_left _ hstarted)⟩
    · rintro rfl
      exact absurd (h s.acceptor false [] rfl).1 (by simp)
    · rintro rfl ⟨cancelled, hmem⟩
      obtain ⟨before, after, hsplit⟩ := List.append_of_mem hmem
      exact (h before cancelled (after ++ [.started])
        (by simp [hsplit])).2 (by simp)
  · rintro ⟨hbefore, hclosed, hstarted⟩ before cancelled after hsplit
    rcases List.eq_nil_or_concat after with rfl | ⟨after, last, rfl⟩
    · obtain ⟨-, hentry⟩ := List.append_inj' hsplit rfl
      obtain rfl := List.head_eq_of_cons_eq hentry
      refine ⟨?_, by simp⟩
      cases cancelled with
      | true => rfl
      | false => exact (hclosed rfl).elim
    · rw [List.concat_eq_append, ← List.cons_append, ← List.append_assoc]
        at hsplit
      obtain ⟨hacceptor', hentry⟩ := List.append_inj' hsplit rfl
      obtain rfl := List.head_eq_of_cons_eq hentry
      obtain ⟨hcancelled, hnone⟩ := hbefore before cancelled after hacceptor'
      refine ⟨hcancelled, fun hmem => ?_⟩
      rw [List.concat_eq_append, List.mem_append, List.mem_singleton] at hmem
      rcases hmem with hmem | hlast
      · exact hnone hmem
      · exact hstarted hlast.symm ⟨cancelled, by simp [hacceptor']⟩

/-- The end of an accept handler keeps the promise unless it starts an accept
after a stop. -/
theorem stopReaches_acceptNext {s : State ω V Buf} (hfollow : FlagsFollow s)
    (t : ThreadId) :
    StopReaches (s.acceptNext t) ↔ StopReaches s ∧
      (StopCarriedOut s → StopStands (s.lastRequests t)) := by
  unfold State.acceptNext
  rw [← hfollow t]
  by_cases hstopping : (s.locals t).thisServer.stopping = true
  · rw [if_pos hstopping]
    simp [hstopping]
  · rw [if_neg hstopping, stopReaches_snoc (s := s) rfl]
    simp [hstopping]

/-- A step keeps the promise exactly when its look at the flag, if it takes
one, is taken where a stop stands. -/
theorem stopReaches_step {s s' : State ω V Buf} {e : Event}
    (hfollow : FlagsFollow s) (hstep : step mp unpacker disp s e = some s') :
    StopReaches s' ↔ StopReaches s ∧ LooksWhereStopped s e := by
  cases (effect_of_step mp unpacker disp hstep).2 with
  | @acceptFailed t ec address hfree haccepting herror =>
      have hnext := stopReaches_acceptNext
        (s := { s with accepting := s.accepting - 1 }) hfollow t
      refine Iff.trans hnext (and_congr_right fun _ => ?_)
      show (StopCarriedOut s → StopStands (s.lastRequests t)) ↔
        (ec ≠ .success → StopCarriedOut s → StopStands (s.lastRequests t))
      exact ⟨fun h _ => h, fun h => h herror⟩
  | @register t k hjob =>
      have hnext := stopReaches_acceptNext
        (s := { s with sessions := s.sessions ++ [k] }.setJob t none)
        hfollow t
      refine Iff.trans hnext (and_congr_right fun _ => ?_)
      simp only [LooksWhereStopped, hjob]
      rfl
  | @closeNext t posted k rest hjob =>
      refine Iff.trans (stopReaches_of_same (s := s) rfl) ?_
      simp [LooksWhereStopped, hjob]
  | @closedAll t posted hjob =>
      refine Iff.trans (stopReaches_snoc (s := s) rfl) ?_
      have hflag := hfollow t
      cases posted with
      | false => simp [LooksWhereStopped, hjob]
      | true => simp [LooksWhereStopped, hjob, ← hflag]
  | _ =>
      refine Iff.trans (stopReaches_of_same (s := s) rfl) ?_
      simp [LooksWhereStopped]

/-- A stop reaches the acceptor in every state of a run exactly when the run
takes every look at the flag, once a handler has asked for a stop, on a thread
whose last handler has asked for one. -/
theorem stopReaches_iff (app : ω) (es : List Event) :
    Always (step mp unpacker disp) StopReaches
      (.initial disp app : State ω V Buf) es ↔
    EachStep (step mp unpacker disp) LooksWhereStopped
      (.initial disp app : State ω V Buf) es := by
  have hfirst : StopReaches (.initial disp app : State ω V Buf) := by
    intro before cancelled after hsplit
    have hmem : AcceptorEvent.sessionsClosed true cancelled ∈
        [AcceptorEvent.started] := by
      show _ ∈ (State.initial disp app : State ω V Buf).acceptor
      simp [hsplit]
    simp at hmem
  exact always_iff_eachStep
    (J := fun s => FlagsFollow s ∧ StopReaches s) (fun _ h => h.2)
    (fun _ _ _ h _ hlooks hstep => ⟨h.1.step mp unpacker disp hstep,
      (stopReaches_step mp unpacker disp h.1 hstep).mpr ⟨h.2, hlooks⟩⟩)
    (fun _ _ _ h _ hnot hstep hreaches => hnot
      ((stopReaches_step mp unpacker disp h.1 hstep).mp hreaches).2)
    ⟨flagsFollow_initial disp app, hfirst⟩ (eachStep_unguarded _ _ _)

/-- A server whose functor `s` calls `this_server().stop()`, and whose functor
`f` does nothing. -/
def stoppable : Dispatcher Unit Unit :=
  ⟨(AList.singleton "s" (ServerSession.constantFunctor
      ⟨[.stop], .returned .nil⟩)).insert "f"
    (ServerSession.constantFunctor ⟨[], .returned .nil⟩)⟩

/-- A client connects and sends the notifications `s` and `f` in one chunk.
The only thread dispatches both before it runs the write strand; then the
acceptor accepts the next client. -/
def stopBehindRequest : List Event :=
  [.acceptDone 0 .success 1, .resume 0,
    .readDone 0 0 .success
      [0x93, 2, 0xa1, 0x73, 0x90, 0x93, 2, 0xa1, 0x66, 0x90],
    .dispatch 0 0, .dispatch 0 0, .runStrand 0 0, .resume 0, .resume 0,
    .acceptDone 0 .success 2, .resume 0]

/-- The dispatch of the second message lowers the flag, so `close_sessions`
does not cancel the acceptor and the accept loop goes on. -/
theorem later_dispatch_loses_stop :
    (run (step .reference MsgPack.shortForms stoppable)
      (.initial stoppable ()) stopBehindRequest).map State.acceptor =
      some [.started, .started, .sessionsClosed true false, .started] ∧
    ¬ Always (step .reference MsgPack.shortForms stoppable) StopReaches
      (.initial stoppable ()) stopBehindRequest := by
  have hends : (run (step .reference MsgPack.shortForms stoppable)
      (.initial stoppable ()) stopBehindRequest).map State.acceptor =
      some [.started, .started, .sessionsClosed true false, .started] := rfl
  refine ⟨hends, fun halways => ?_⟩
  obtain ⟨s, hrun, hacceptor⟩ := Option.map_eq_some_iff.mp hends
  have hreaches := halways.of_run hrun [.started, .started] false [.started]
    hacceptor
  exact absurd hreaches.1 (by simp)

end Server
end RpcLib
