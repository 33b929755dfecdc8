import RpcLib.Server.SessionTask

/-!
# Requests to exit the session and to stop the server

A handler asks for the end of its session by `this_session().post_exit()` and
for the end of the server by `this_server().stop()`.  Both only set a flag; the
session task reads the flags behind the check that the response is enabled.

* `dispatch_requests`: what a dispatch leaves in the flags, for any message
  and registry, from the calls of the handler that it runs.
* `requestsHonoured_iff`: the posted handlers honour the requests exactly when
  a handler that made one ends with the response enabled, and has not
  cancelled its own stop.
-/

namespace RpcLib
namespace Server

open Protocol

variable {ω V Buf : Type} (mp : MsgPack Buf)

/-! ## The flags after a handler's calls -/

/-- The handler's last word on the server is `stop()`. -/
def StopStands (actions : List HandlerAction) : Prop :=
  ∃ before after, actions = before ++ .stop :: after ∧ .cancelStop ∉ after

/-- Every `disable_response()` is followed by a call that enables the response
again. -/
def RespondsAtEnd (actions : List HandlerAction) : Prop :=
  ∀ before after, actions = before ++ .disableResponse :: after →
    .enableResponse ∈ after ∨ .clear ∈ after

theorem exit_foldl (actions : List HandlerAction) (w : Worker ω V) :
    (actions.foldl HandlerAction.perform w).thisSession.exit = true ↔
      w.thisSession.exit = true ∨ .postExit ∈ actions := by
  induction actions generalizing w with
  | nil => simp
  | cons action actions ih =>
      rw [List.foldl_cons, ih]
      cases action <;> simp [HandlerAction.perform]

theorem stopStands_cons (action : HandlerAction)
    (actions : List HandlerAction) :
    StopStands (action :: actions) ↔
      StopStands actions ∨ (action = .stop ∧ .cancelStop ∉ actions) := by
  constructor
  · rintro ⟨before, after, hsplit, hnone⟩
    cases before with
    | nil =>
        obtain ⟨rfl, rfl⟩ := List.cons.inj hsplit
        exact Or.inr ⟨rfl, hnone⟩
    | cons first before =>
        obtain ⟨rfl, rfl⟩ := List.cons.inj hsplit
        exact Or.inl ⟨before, after, rfl, hnone⟩
  · rintro (⟨before, after, rfl, hnone⟩ | ⟨rfl, hnone⟩)
    · exact ⟨action :: before, after, rfl, hnone⟩
    · exact ⟨[], actions, rfl, hnone⟩

theorem stopping_foldl (actions : List HandlerAction) (w : Worker ω V) :
    (actions.foldl HandlerAction.perform w).thisServer.stopping = true ↔
      StopStands actions ∨
        (w.thisServer.stopping = true ∧ .cancelStop ∉ actions) := by
  induction actions generalizing w with
  | nil => simp [StopStands]
  | cons action actions ih =>
      rw [List.foldl_cons, ih, stopStands_cons]
      by_cases hnone : .cancelStop ∈ actions
      · simp [hnone]
      · cases action <;> simp [HandlerAction.perform, hnone]

theorem respondsAtEnd_cons (action : HandlerAction)
    (actions : List HandlerAction) :
    RespondsAtEnd (action :: actions) ↔
      RespondsAtEnd actions ∧ (action = .disableResponse →
        .enableResponse ∈ actions ∨ .clear ∈ actions) := by
  constructor
  · intro h
    refine ⟨fun before after hsplit => ?_, ?_⟩
    · exact h (action :: before) after (by rw [hsplit]; rfl)
    · rintro rfl
      exact h [] actions rfl
  · rintro ⟨htail, hhead⟩ before after hsplit
    cases before with
    | nil =>
        obtain ⟨rfl, rfl⟩ := List.cons.inj hsplit
        exact hhead rfl
    | cons first before =>
        obtain ⟨rfl, rfl⟩ := List.cons.inj hsplit
        exact htail before after rfl

/-- An enabling call is there, or the response is as it was before. -/
theorem respEnabled_foldl (actions : List HandlerAction) (w : Worker ω V) :
    (actions.foldl HandlerAction.perform w).thisHandler.respEnabled = true ↔
      RespondsAtEnd actions ∧ (w.thisHandler.respEnabled = true ∨
        .enableResponse ∈ actions ∨ .clear ∈ actions) := by
  induction actions generalizing w with
  | nil => simp [RespondsAtEnd]
  | cons action actions ih =>
      rw [List.foldl_cons, ih, respondsAtEnd_cons]
      cases action <;> simp [HandlerAction.perform, ThisHandler.clear]
      tauto

/-- The end of a run leaves the flags as the calls have left them. -/
theorem finish_flags (outcome : Outcome) (w : Worker ω V) :
    (outcome.finish w).2.thisSession = w.thisSession ∧
      (outcome.finish w).2.thisServer = w.thisServer ∧
      (outcome.finish w).2.thisHandler.respEnabled =
        w.thisHandler.respEnabled := by
  cases outcome <;> exact ⟨rfl, rfl, rfl⟩

/-! ## The handler that a dispatch runs -/

namespace Dispatcher

/-- The name and the arguments that `dispatch` reads from a message. -/
def addressee (msg : Object) : Option (String × Object) :=
  match mp.arraySize msg with
  | 3 => (mp.notificationTuple msg).map fun (_, name, args) => (name, args)
  | 4 => (mp.callTuple msg).map fun (_, _, name, args) => (name, args)
  | _ => none

/-- The run of the functor that a dispatch on the thread `w` calls, when the
name is bound and the arguments convert. -/
def runOf (d : Dispatcher ω V) (msg : Object) (w : Worker ω V) :
    Option HandlerRun :=
  (addressee mp msg).bind fun (name, args) =>
    (d.funcs.lookup name).bind fun func =>
      (func.readArgs mp name args).toOption.map fun vals =>
        (func.body w.app w.thisSession.id vals).2

/-- The calls that this functor makes on the thread-local objects. -/
def actionsOf (d : Dispatcher ω V) (msg : Object) (w : Worker ω V) :
    List HandlerAction :=
  ((d.runOf mp msg w).map HandlerRun.actions).getD []

/-- The call of a functor that a dispatch makes: the name and the converted
arguments, or no call at all. -/
def callsOf (d : Dispatcher ω V) (msg : Object) : List (String × List V) :=
  ((addressee mp msg).bind fun (name, args) =>
    (d.funcs.lookup name).bind fun func =>
      (func.readArgs mp name args).toOption.map fun vals =>
        (name, vals)).toList

/-- An adaptor leaves the thread alone, or in the state after its functor's
run. -/
theorem adaptor_state (func : Functor ω V) (name : String) (args : Object)
    (w : Worker ω V) :
    ((func.adaptor mp name args).exec w).2 =
      match func.readArgs mp name args with
      | .error _ => w
      | .ok vals => ((func.invoke name vals).exec w).2 := by
  rw [Functor.adaptor_exec]
  cases func.readArgs mp name args with
  | error e => rfl
  | ok vals =>
      show (func.invokeAndPack func.packResult name w vals).2 =
        ((func.invoke name vals).exec w).2
      unfold Functor.invokeAndPack
      rcases (func.invoke name vals).exec w with ⟨_ | _, w'⟩ <;> rfl

/-- Whatever the two paths make of the adaptor's result or exception, the
thread is as the adaptor has left it. -/
theorem dispatch_state_of_addressee {d : Dispatcher ω V} {msg : Object}
    {name : String} {args : Object}
    (haddressee : addressee mp msg = some (name, args)) (suppress : Bool)
    (w : Worker ω V) :
    ((d.dispatch mp msg suppress).exec w).2 =
      match d.funcs.lookup name with
      | none => w
      | some func => ((func.adaptor mp name args).exec w).2 := by
  unfold addressee at haddressee
  split at haddressee
  · rename_i hsize
    obtain ⟨⟨code, name', args'⟩, htuple, heq⟩ :=
      Option.map_eq_some_iff.mp haddressee
    obtain ⟨rfl, rfl⟩ := Prod.mk.inj heq
    rw [dispatch_of_size_three mp hsize]
    cases hlookup : d.funcs.lookup name' with
    | none =>
        rw [dispatchNotification_exec_unbound mp htuple hlookup]
    | some func =>
        rw [dispatchNotification_exec_bound mp htuple hlookup]
        dsimp only
        rcases (func.adaptor mp name' args').exec w with ⟨_ | _, w'⟩ <;> rfl
  · rename_i hsize
    obtain ⟨⟨code, id, name', args'⟩, htuple, heq⟩ :=
      Option.map_eq_some_iff.mp haddressee
    obtain ⟨rfl, rfl⟩ := Prod.mk.inj heq
    rw [dispatch_of_size_four mp hsize]
    cases hlookup : d.funcs.lookup name' with
    | none => rw [dispatchCall_exec_unbound mp htuple hlookup]
    | some func =>
        rw [dispatchCall_exec_bound mp htuple hlookup]
        dsimp only
        rcases (func.adaptor mp name' args').exec w with ⟨_ | _, w'⟩ <;> rfl
  · cases haddressee

/-- A message without a readable addressee leaves the thread alone. -/
theorem dispatch_state_of_none {d : Dispatcher ω V} {msg : Object}
    (hnone : addressee mp msg = none) (suppress : Bool) (w : Worker ω V) :
    ((d.dispatch mp msg suppress).exec w).2 = w := by
  unfold addressee at hnone
  split at hnone
  · rename_i hsize
    rw [dispatch_of_size_three mp hsize,
      dispatchNotification_exec_unconverted mp (by simpa using hnone)]
  · rename_i hsize
    rw [dispatch_of_size_four mp hsize,
      dispatchCall_exec_unconverted mp (by simpa using hnone)]
  · rename_i hthree hfour
    rw [dispatch_exec_of_other_size mp hthree hfour]

/-- A dispatch changes the thread by the run of one functor or not at all. -/
theorem dispatch_state (d : Dispatcher ω V) (msg : Object) (suppress : Bool)
    (w : Worker ω V) :
    match d.runOf mp msg w with
    | none => ((d.dispatch mp msg suppress).exec w).2 = w ∧
        d.callsOf mp msg = []
    | some run => ∃ v : Worker ω V, v.thisHandler = w.thisHandler ∧
        v.thisSession = w.thisSession ∧ v.thisServer = w.thisServer ∧
        v.invocations = w.invocations ++ d.callsOf mp msg ∧
        ((d.dispatch mp msg suppress).exec w).2 = (run.perform v).2 := by
  cases haddressee : addressee mp msg with
  | none =>
      have hrun : d.runOf mp msg w = none := by simp [runOf, haddressee]
      rw [hrun]
      exact ⟨dispatch_state_of_none mp haddressee suppress w,
        by simp [callsOf, haddressee]⟩
  | some addressed =>
      obtain ⟨name, args⟩ := addressed
      rw [dispatch_state_of_addressee mp haddressee]
      cases hlookup : d.funcs.lookup name with
      | none =>
          have hrun : d.runOf mp msg w = none := by
            simp [runOf, haddressee, hlookup]
          simp [hrun, callsOf, haddressee, hlookup]
      | some func =>
          dsimp only
          rw [adaptor_state]
          cases hargs : func.readArgs mp name args with
          | error e =>
              have hrun : d.runOf mp msg w = none := by
                simp [runOf, haddressee, hlookup, hargs, Except.toOption]
              simp [hrun, callsOf, haddressee, hlookup, hargs,
                Except.toOption]
          | ok vals =>
              have hrun : d.runOf mp msg w =
                  some (func.body w.app w.thisSession.id vals).2 := by
                simp [runOf, haddressee, hlookup, hargs, Except.toOption]
              have hcalls : d.callsOf mp msg = [(name, vals)] := by
                simp [callsOf, haddressee, hlookup, hargs, Except.toOption]
              rw [hrun, hcalls]
              exact ⟨{ w with
                app := (func.body w.app w.thisSession.id vals).1
                invocations := w.invocations ++ [(name, vals)] },
                rfl, rfl, rfl, rfl,
                congrArg Prod.snd (func.exec_invoke name vals w)⟩

/-- The flags after a dispatch are those that the calls of the handler it ran
have left. -/
theorem dispatch_requests (d : Dispatcher ω V) (msg : Object)
    (suppress : Bool) (w : Worker ω V) :
    let w' := ((d.dispatch mp msg suppress).exec w).2
    let actions := d.actionsOf mp msg w
    (w'.thisSession.exit = true ↔
      w.thisSession.exit = true ∨ .postExit ∈ actions) ∧
    (w'.thisServer.stopping = true ↔ StopStands actions ∨
      (w.thisServer.stopping = true ∧ .cancelStop ∉ actions)) ∧
    (w'.thisHandler.respEnabled = true ↔ RespondsAtEnd actions ∧
      (w.thisHandler.respEnabled = true ∨
        .enableResponse ∈ actions ∨ .clear ∈ actions)) := by
  have hstate := d.dispatch_state mp msg suppress w
  unfold actionsOf
  cases hrun : d.runOf mp msg w with
  | none =>
      rw [hrun] at hstate
      simp [hstate.1, StopStands, RespondsAtEnd]
  | some run =>
      rw [hrun] at hstate
      obtain ⟨v, hhandler, hsession, hserver, -, hstate⟩ := hstate
      obtain ⟨hexit, hstopping, henabled⟩ := finish_flags run.outcome
        (run.actions.foldl HandlerAction.perform v)
      dsimp only [Option.map_some, Option.getD_some]
      rw [hstate, ← hhandler, ← hsession, ← hserver]
      unfold HandlerRun.perform
      rw [hexit, hstopping, henabled]
      exact ⟨exit_foldl _ _, stopping_foldl _ _, respEnabled_foldl _ _⟩

/-- A dispatch calls the functor that the message addresses, once, and no
other. -/
theorem dispatch_invocations (d : Dispatcher ω V) (msg : Object)
    (suppress : Bool) (w : Worker ω V) :
    ((d.dispatch mp msg suppress).exec w).2.invocations =
      w.invocations ++ d.callsOf mp msg := by
  have hstate := d.dispatch_state mp msg suppress w
  cases hrun : d.runOf mp msg w with
  | none =>
      rw [hrun] at hstate
      rw [hstate.1, hstate.2, List.append_nil]
  | some run =>
      rw [hrun] at hstate
      obtain ⟨v, -, -, -, hcalls, hstate⟩ := hstate
      rw [hstate, (perform_frame run v).2, hcalls]

end Dispatcher

/-! ## The requests and the posted handlers -/

/-- The `close()` handlers among the posted ones. -/
def closes (posted : List Posted) : Nat :=
  posted.countP fun
    | .close => true
    | _ => false

/-- The `close_sessions()` handlers among the posted ones. -/
def closesOfSessions (posted : List Posted) : Nat :=
  posted.countP fun
    | .closeSessions => true
    | _ => false

/-- The posted handlers carry out what the handler's calls have asked for, and
nothing else. -/
structure RequestsHonoured (actions : List HandlerAction)
    (posted : List Posted) : Prop where
  exit : .postExit ∈ actions → closes posted = 1
  stop : .stop ∈ actions → closesOfSessions posted = 1
  noExit : .postExit ∉ actions → closes posted = 0
  noStop : .stop ∉ actions → closesOfSessions posted = 0

namespace ServerSession

theorem closes_posts (w : Worker ω V) (resp : Response) :
    closes (posts w resp) =
      if w.thisHandler.respEnabled = true ∧ w.thisSession.exit = true then 1
      else 0 := by
  unfold posts closes
  cases w.thisHandler.respEnabled <;> cases hempty : resp.empty <;>
    cases w.thisSession.exit <;> cases w.thisServer.stopping <;>
    simp [hempty]

theorem closesOfSessions_posts (w : Worker ω V) (resp : Response) :
    closesOfSessions (posts w resp) =
      if w.thisHandler.respEnabled = true ∧ w.thisServer.stopping = true then 1
      else 0 := by
  unfold posts closesOfSessions
  cases w.thisHandler.respEnabled <;> cases hempty : resp.empty <;>
    cases w.thisSession.exit <;> cases w.thisServer.stopping <;>
    simp [hempty]

/-- The calls that the handler of a message makes in this session. -/
def requestsOf (session : ServerSession ω V) (msg : Object)
    (w : Worker ω V) : List HandlerAction :=
  session.disp.actionsOf mp msg (session.prepare w)

/-- A task leaves the thread as its dispatch does. -/
theorem dispatchTask_state (session : ServerSession ω V) (msg : Object)
    (w : Worker ω V) :
    ((session.dispatchTask mp msg).exec w).2 =
      ((session.disp.dispatch mp msg session.suppressExceptions).exec
        (session.prepare w)).2 := by
  rw [dispatchTask_exec]
  rcases (session.disp.dispatch mp msg session.suppressExceptions).exec
    (session.prepare w) with ⟨_ | _, w'⟩ <;> rfl

/-- A task that returns has posted the ladder of a response, in the state that
the dispatch has left. -/
theorem dispatchTask_posted {session : ServerSession ω V} {msg : Object}
    {w w' : Worker ω V} {posted : List Posted}
    (hexec : (session.dispatchTask mp msg).exec w = (.ok posted, w')) :
    w' = ((session.disp.dispatch mp msg session.suppressExceptions).exec
        (session.prepare w)).2 ∧ ∃ resp, posted = posts w' resp := by
  rw [dispatchTask_exec] at hexec
  rcases hdispatch :
    (session.disp.dispatch mp msg session.suppressExceptions).exec
      (session.prepare w) with ⟨e | resp, v⟩
  · rw [hdispatch] at hexec
    cases hexec
  · rw [hdispatch] at hexec
    obtain ⟨hposted, rfl⟩ := Prod.mk.inj hexec
    exact ⟨rfl, resp, (Except.ok.inj hposted).symm⟩

/-- The task of a message carries out the requests of its handler, and makes
none of its own, exactly when a handler that asks for an exit or a stop ends
with the response enabled and does not take its stop back. -/
theorem requestsHonoured_iff {session : ServerSession ω V} {msg : Object}
    {w w' : Worker ω V} {posted : List Posted}
    (hexec : (session.dispatchTask mp msg).exec w = (.ok posted, w')) :
    RequestsHonoured (session.requestsOf mp msg w) posted ↔
      (.postExit ∈ session.requestsOf mp msg w →
        RespondsAtEnd (session.requestsOf mp msg w)) ∧
      (.stop ∈ session.requestsOf mp msg w →
        RespondsAtEnd (session.requestsOf mp msg w) ∧
          StopStands (session.requestsOf mp msg w)) := by
  obtain ⟨hstate, resp, rfl⟩ := dispatchTask_posted mp hexec
  have hrequests := session.disp.dispatch_requests mp msg
    session.suppressExceptions (session.prepare w)
  dsimp only at hrequests
  rw [← hstate] at hrequests
  obtain ⟨hexit, hstopping, henabled⟩ := hrequests
  -- the flags are down and the response is enabled when the handler starts
  have hexit' : w'.thisSession.exit = true ↔
      .postExit ∈ session.requestsOf mp msg w :=
    hexit.trans (or_iff_right (by simp [prepare]))
  have hstopping' : w'.thisServer.stopping = true ↔
      StopStands (session.requestsOf mp msg w) :=
    hstopping.trans (or_iff_left (by simp [prepare]))
  have henabled' : w'.thisHandler.respEnabled = true ↔
      RespondsAtEnd (session.requestsOf mp msg w) :=
    henabled.trans (and_iff_left (Or.inl rfl))
  have hstands : StopStands (session.requestsOf mp msg w) →
      .stop ∈ session.requestsOf mp msg w := by
    rintro ⟨before, after, hsplit, -⟩
    simp [hsplit]
  have hcloses := closes_posts w' resp
  have hcloseSessions := closesOfSessions_posts w' resp
  constructor
  · intro h
    refine ⟨fun hasked => ?_, fun hasked => ?_⟩
    · by_contra hnot
      have hone := h.exit hasked
      rw [hcloses, if_neg (fun hboth => hnot (henabled'.mp hboth.1))] at hone
      cases hone
    · by_contra hnot
      have hone := h.stop hasked
      rw [hcloseSessions, if_neg (fun hboth =>
        hnot ⟨henabled'.mp hboth.1, hstopping'.mp hboth.2⟩)] at hone
      cases hone
  · rintro ⟨honExit, honStop⟩
    refine ⟨fun hasked => ?_, fun hasked => ?_, fun hnot => ?_, fun hnot => ?_⟩
    · rw [hcloses, if_pos ⟨henabled'.mpr (honExit hasked),
        hexit'.mpr hasked⟩]
    · obtain ⟨hresponds, hstopped⟩ := honStop hasked
      rw [hcloseSessions, if_pos ⟨henabled'.mpr hresponds,
        hstopping'.mpr hstopped⟩]
    · rw [hcloses, if_neg (fun hboth => hnot (hexit'.mp hboth.2))]
    · rw [hcloseSessions,
        if_neg (fun hboth => hnot (hstands (hstopping'.mp hboth.2)))]

/-- A handler that disables the response and asks for both ends. -/
def silentExit : HandlerRun :=
  ⟨[.disableResponse, .postExit, .stop], .returned .nil⟩

/-- The early return for a disabled response skips the two checks behind it:
the session stays open and the server goes on. -/
theorem silent_exit_is_dropped :
    ∃ w', ((constantSession silentExit).dispatchTask .reference
        (.array [.ofInt8 0, .ofInt32 1, .str "f", .array []])).exec
          usedWorker = (.ok [], w') ∧
      (constantSession silentExit).requestsOf .reference
        (.array [.ofInt8 0, .ofInt32 1, .str "f", .array []]) usedWorker =
          [.disableResponse, .postExit, .stop] ∧
      ¬ RequestsHonoured ((constantSession silentExit).requestsOf .reference
        (.array [.ofInt8 0, .ofInt32 1, .str "f", .array []]) usedWorker)
          [] := by
  refine ⟨_, rfl, rfl, fun h => ?_⟩
  have hone : closes [] = 1 := h.exit (by
    show HandlerAction.postExit ∈ silentExit.actions
    simp [silentExit])
  cases hone

/-- A notification whose handler asks for both ends and ends by `respond`. -/
theorem requestsHonoured_iff_responding_notification :
    ∃ posted w', ((constantSession ⟨[.postExit, .stop],
        .responded (.str "x")⟩).dispatchTask .reference
          (.array [.ofInt8 2, .str "f", .array []])).exec usedWorker =
        (.ok posted, w') ∧
      (RequestsHonoured [.postExit, .stop] posted ↔
        (.postExit ∈ [HandlerAction.postExit, .stop] →
          RespondsAtEnd [.postExit, .stop]) ∧
        (.stop ∈ [HandlerAction.postExit, .stop] →
          RespondsAtEnd [.postExit, .stop] ∧
            StopStands [.postExit, .stop])) := by
  have hexec : ((constantSession ⟨[.postExit, .stop],
      .responded (.str "x")⟩).dispatchTask .reference
        (.array [.ofInt8 2, .str "f", .array []])).exec usedWorker =
      (.ok [.close, .closeSessions], _) := rfl
  exact ⟨_, _, hexec, requestsHonoured_iff .reference hexec⟩

end ServerSession
end Server
end RpcLib
