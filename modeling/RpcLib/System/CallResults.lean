import RpcLib.System.CallThreads

/-!
# What `Client::call` comes to

* `call_result`: a call returns or throws what the dispatch of this call has
  answered, and no exception comes before the time is over, as far as the clock
  can count.
* `enterCall`, `answerCall`, `leaveCall`, `Called`: a run in which one client
  makes one call.
* `answered_call_returns`: a thread whose promise is ready before its wait has
  run out gets what is in it.
-/

namespace RpcLib
namespace System
namespace Calling

open Protocol Transport Foundation TransitionSystem Server Network

variable {ι ω V Buf : Type} [DecidableEq ι] {mp : MsgPack Buf}
  {bytes : Buf → List UInt8} {unpacker : Decoder Object UInt8}
  {disp : Dispatcher ω V}

/-! ## What a call comes to -/

variable (mp) in
/-- What a thread has at the end of `call`: what the one dispatch of its own
call has answered, or an exception after the time it was told to wait. -/
structure CallResult (s : State ι ω V Buf) (c : Caller ι) : Prop where
  got : ∀ outcome, c.stage = .ended (.got outcome) →
    ∃ call ∈ (s.net.client c.client).issued, call.number = c.number ∧
      call.funcName = c.funcName ∧ ∃ d resp,
        AnsweredBy mp s.net c.client call d resp ∧
          outcome = outcomeOfResponse resp c.funcName
  timeout : ∀ what, c.stage = .ended (.timeout what) → s.Late c
  badOptionalAccess : c.stage = .ended .badOptionalAccess → s.Late c

/-- Every call that has ended in the system without the memory of the replies
has such a result. -/
theorem callResult_of_reachable {app : ω} {s : State ι ω V Buf}
    (hreach : Reachable (step mp bytes unpacker disp) Few
      (.initial disp app) s) (hlegible : Legible mp bytes unpacker s.net)
    {c : Caller ι} (hc : c ∈ s.callers) : CallResult mp s c := by
  obtain ⟨j, hj⟩ := List.getElem?_of_mem hc
  have h := (Threads.of_reachable hreach).inCall j c hj
  have hfits := h.fits
  refine ⟨fun outcome hstage => ?_, fun what hstage => ?_, fun hstage => ?_⟩
  · rw [hstage] at hfits
    obtain ⟨idx, args, hcall⟩ := h.issued
    have hsound := sound_of_reachable
      (net_of_reachable (fun _ _ hguard => hguard) hreach) hlegible
    obtain ⟨d, resp, hanswered, hvalue⟩ :=
      hsound.answered hlegible hcall hfits
    exact ⟨_, hcall, rfl, rfl, d, resp, hanswered, hvalue⟩
  · rw [hstage] at hfits
    exact hfits
  · rw [hstage] at hfits
    exact hfits

/-- Every call that has ended has such a result, if no dispatch has taken the
zone of a reply that waited. -/
theorem call_result (garbage : StoredObject → Object) {app : ω}
    {s : State ι ω V Buf × ReplyMemory}
    (hreach : Reachable
      (stepWithMemory garbage (serverPart mp bytes unpacker disp))
      (Sparing (serverPart mp bytes unpacker disp) Few)
      (.initial disp app, .initial) s)
    (hlegible : Legible mp bytes unpacker s.1.net)
    {c : Caller ι} (hc : c ∈ s.1.callers) : CallResult mp s.1 c := by
  have halone := (without_memory garbage (serverPart mp bytes unpacker disp)
    (.initial disp app, .initial) (.initial disp app) hreach).1
  exact callResult_of_reachable halone hlegible hc

/-! ## A run with one call -/

/-- One client calls `n` with a timeout. -/
def enterCall : List (Event Bool) :=
  [.timeout false 5, .net (.establish false), .net (.establish true),
    .net (.server (.acceptDone 0 .success 10)), .net (.server (.resume 0)),
    .net (.server (.acceptDone 0 .success 11)), .net (.server (.resume 0)),
    .net (.client false .connectDone), .net (.client true .connectDone),
    .net (.client false .runStrand), .net (.client true .runStrand),
    .call false "n" []]

/-- The call is posted and answered, and everything is done but what is left in
`call`. -/
def answerCall : List (Event Bool) :=
  [.proceed 0, .tick 1, .net (.client false .runStrand),
    .net (.takeUp 0 2), .net (.readUp 0 0 1), .net (.takeUp 0 4),
    .net (.client false (.writeDone 0 .success)), .net (.readUp 0 0 5),
    .net (.server (.dispatch 0 0)), .net (.server (.runStrand 0 0)),
    .net (.takeDown 0 5), .net (.server (.written 0 0 0 .success)),
    .net (.readDown 0 3), .net (.readDown 0 2),
    .net (.client false .runStrand)]

/-- The thread looks at the timeout, waits and returns. -/
def leaveCall : List (Event Bool) := [.proceed 0, .proceed 0, .proceed 0]

/-- The system of this run. -/
def calledStep (s : State Bool Nat Unit (Option Object)) (e : Event Bool) :
    Option (State Bool Nat Unit (Option Object)) :=
  step .reference countedBytes MsgPack.shortForms counting s e

/-- Its server. -/
def calledPart : Component calledStep
    (Server.step (.reference : MsgPack (Option Object)) MsgPack.shortForms
      counting) :=
  serverPart .reference countedBytes MsgPack.shortForms counting

/-- The thread that called, at a stage. -/
def called (timeoutVal : Option Int64) (stage : Stage) : Caller Bool where
  client := false
  number := 0
  funcName := "n"
  began := 0
  timeoutVal := timeoutVal
  stage := stage

/-- The states in which the thread has entered `call`, in which its promise is
ready, and in which it has returned. -/
structure Called (s s' s'' : State Bool Nat Unit (Option Object)) : Prop where
  enters : run calledStep (.initial counting 0) enterCall = some s
  answers : run calledStep s answerCall = some s'
  leaves : run calledStep s' leaveCall = some s''
  prompt : checkRun calledStep (isPrompt calledPart) (.initial counting 0)
    enterCall = true
  prompt' : checkRun calledStep (isPrompt calledPart) s
    (answerCall ++ leaveCall) = true
  issued : ∀ i, (s.net.client i).issued.length ≤ 1
  caller : s.callers = [called none .posting]
  caller' : s'.callers = [called none .reading]
  caller'' : s''.callers = [called (some 5) (.ended (.got (.value .nil)))]
  ready : (s'.net.client false).shared (.call 0) = some (.value .nil)
  legible : Legible .reference countedBytes MsgPack.shortForms s''.net

theorem called_run : ∃ s s' s'', Called s s' s'' := by
  have hends : (run calledStep (.initial counting 0) enterCall).map
      (fun s => (s.callers, decide (∀ i, (s.net.client i).issued.length ≤ 1),
        checkRun calledStep (isPrompt calledPart) s (answerCall ++ leaveCall),
        (run calledStep s answerCall).map fun s' =>
          (s'.callers, (s'.net.client false).shared (.call 0),
            (run calledStep s' leaveCall).map fun s'' =>
              (s''.callers, onlyCounted s''.net)))) =
      some ([called none .posting], true, true,
        some ([called none .reading], some (.value .nil),
          some ([called (some 5) (.ended (.got (.value .nil)))], true))) := rfl
  have hprompt : checkRun calledStep (isPrompt calledPart)
      (.initial counting 0) enterCall = true := rfl
  obtain ⟨s, henters, hend⟩ := Option.map_eq_some_iff.mp hends
  simp only [Prod.mk.injEq, decide_eq_true_eq] at hend
  obtain ⟨hcaller, hissued, hprompt', hlast⟩ := hend
  obtain ⟨s', hanswers, hend'⟩ := Option.map_eq_some_iff.mp hlast
  simp only [Prod.mk.injEq] at hend'
  obtain ⟨hcaller', hready, hlast'⟩ := hend'
  obtain ⟨s'', hleaves, hend''⟩ := Option.map_eq_some_iff.mp hlast'
  simp only [Prod.mk.injEq] at hend''
  obtain ⟨hcaller'', honly⟩ := hend''
  exact ⟨s, s', s'', henters, hanswers, hleaves, hprompt, hprompt', hissued,
    hcaller, hcaller', hcaller'', hready, counted_legible honly⟩

namespace Called

variable {s s' s'' : State Bool Nat Unit (Option Object)}

theorem run (h : Called s s' s'') :
    TransitionSystem.run calledStep s (answerCall ++ leaveCall) =
      some s'' := by
  rw [run_append, h.answers]
  exact h.leaves

/-- Every dispatch of the run finds the replies written. -/
theorem entered (h : Called s s' s'') :
    Reachable calledStep (fun s e => Few s e ∧ isPrompt calledPart s e = true)
      (.initial counting 0) s := by
  have hfew : 0 + enterCall.length < UInt32.size := by decide
  exact reachable_of_run (eachStep_and (few_of_length fun _ => hfew)
    (eachStep_of_checkRun (fun _ _ h => h) h.prompt)) h.enters

theorem left (h : Called s s' s'') :
    Reachable calledStep (fun s e => Few s e ∧ isPrompt calledPart s e = true)
      (.initial counting 0) s'' := by
  refine h.entered.trans (reachable_of_run (eachStep_and
    (few_of_length fun i => ?_)
    (eachStep_of_checkRun (fun _ _ h => h) h.prompt')) h.run)
  have hissued := h.issued i
  have hfew : 1 + (answerCall ++ leaveCall).length < UInt32.size := by decide
  omega

end Called

/-- The thread has what the dispatch of its call has answered. -/
theorem call_result_called : ∃ s : State Bool Nat Unit (Option Object),
    ∃ c ∈ s.callers, c.stage = .ended (.got (.value .nil)) ∧
      CallResult .reference s c := by
  obtain ⟨s, s', s'', h⟩ := called_run
  obtain ⟨m, hreach, -⟩ := with_memory (fun _ => .nil) calledPart
    (.initial counting 0) (.initial counting 0) h.left
  have hmem : called (some 5) (.ended (.got (.value .nil))) ∈ s''.callers :=
    h.caller'' ▸ List.mem_singleton_self _
  exact ⟨s'', _, hmem, rfl, call_result (fun _ => .nil) hreach h.legible hmem⟩

/-- A thread whose promise is ready before its wait has run out gets what is in
the promise. -/
theorem answered_call_returns {guard : State ι ω V Buf → Event ι → Prop}
    {s s' : State ι ω V Buf}
    (hreach : Reachable (step mp bytes unpacker disp) guard s s') {j : Nat}
    {c : Caller ι} (hc : s.callers[j]? = some c)
    (hthrowing : c.stage ≠ .throwing)
    (hended : ∀ result, c.stage ≠ .ended result) {outcome : Client.Outcome}
    (hready : s.promise c = some outcome) :
    ∃ c', s'.callers[j]? = some c' ∧ c'.stage ≠ .throwing ∧
      ∀ result, c'.stage = .ended result → result = .got outcome := by
  suffices h : ∃ c', s'.callers[j]? = some c' ∧
      s'.promise c' = some outcome ∧ c'.stage ≠ .throwing ∧
      ∀ result, c'.stage = .ended result → result = .got outcome by
    obtain ⟨c', hc', -, hrest⟩ := h
    exact ⟨c', hc', hrest⟩
  refine hreach.invariant (I := fun t : State ι ω V Buf =>
      ∃ c', t.callers[j]? = some c' ∧ t.promise c' = some outcome ∧
        c'.stage ≠ .throwing ∧
        ∀ result, c'.stage = .ended result → result = .got outcome)
    ⟨c, hc, hready, hthrowing, fun result h => absurd h (hended result)⟩ ?_
  rintro t e t' ⟨c, hc, hready, hthrowing, hended⟩ - hstep
  have heffect := effect_of_step mp bytes unpacker disp hstep
  have hlater := Later.of_effect heffect
  rcases caller_of_effect heffect hc with ⟨-, hkept⟩ | ⟨-, c', hc', hturn⟩
  · exact ⟨c, hkept, hlater.shared c.client (.call c.number) outcome hready,
      hthrowing, hended⟩
  obtain ⟨hclient, hnumber, -⟩ := hturn.same
  have hready' : t'.promise c' = some outcome := by
    unfold State.promise
    rw [hclient, hnumber]
    exact hlater.shared c.client (.call c.number) outcome hready
  refine ⟨c', hc', hready', ?_⟩
  rcases hturn with ⟨-, rfl⟩ | hmove
  · exact ⟨by simp, by simp⟩
  cases hmove with
  | expired hstage hclock hempty =>
      rw [hready] at hempty
      cases hempty
  | threw hstage => exact absurd hstage hthrowing
  | got hstage hgot =>
      refine ⟨by simp, fun result hresult => ?_⟩
      obtain rfl := Option.some.inj (hgot.symm.trans hready)
      exact (Stage.ended.inj hresult).symm
  | _ => exact ⟨by simp, by simp⟩

/-- The promise is ready before the thread looks at the timeout. -/
theorem answered_call_returns_called :
    ∃ s : State Bool Nat Unit (Option Object), ∃ c',
      s.callers[0]? = some c' ∧ c'.stage ≠ .throwing ∧
        ∀ result, c'.stage = .ended result → result = .got (.value .nil) := by
  obtain ⟨s, s', s'', h⟩ := called_run
  have hreach : Reachable calledStep unguarded s' s'' :=
    reachable_of_run (eachStep_unguarded _ _ _) h.leaves
  obtain ⟨c', hc', hstages⟩ := answered_call_returns (j := 0) hreach
    (c := called none .reading) (by rw [h.caller']; rfl) (by simp [called])
    (by simp [called]) h.ready
  exact ⟨s'', c', hc', hstages⟩

end Calling
end System
end RpcLib
