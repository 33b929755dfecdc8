import RpcLib.System.CallEnds
import RpcLib.System.Termination

/-!
# Without a timeout

A thread in `call` may wait for ever only if something has failed.

* `Undisturbed`, `UndisturbedRun`: an infinite run without a failure, in which
  neither the network nor a thread in `call` is forgotten.
* `SparingRun`: the same beside the memory of the server's replies.
* `every_call_ends`: in it every call ends, with a timeout or without.
-/

namespace RpcLib
namespace System
namespace Calling

open Protocol Transport Foundation TransitionSystem Server Network

variable {ι ω V Buf : Type} [DecidableEq ι] {mp : MsgPack Buf}
  {bytes : Buf → List UInt8} {unpacker : Decoder Object UInt8}
  {disp : Dispatcher ω V}

/-! ## Where nothing fails -/

/-- Neither a failure nor a request of an application. -/
def Event.isQuiet : Event ι → Bool
  | .net e => e.isProgress
  | .call _ _ _ => false
  | _ => true

omit [DecidableEq ι] in
theorem few_of_quiet {s : State ι ω V Buf} {e : Event ι}
    (hquiet : e.isQuiet = true) : Few s e := by
  cases e with
  | net e =>
      rintro i funcName args rfl
      cases hquiet
  | call => cases hquiet
  | _ => trivial

/-- What a quiet step does to the network is progress. -/
theorem net_of_quiet {s s' : State ι ω V Buf} {e : Event ι}
    (heffect : Effect mp bytes unpacker disp s e s')
    (hquiet : e.isQuiet = true) :
    s'.net = s.net ∨ ∃ e', e'.isProgress = true ∧
      Network.step mp bytes unpacker disp s.net e' = some s'.net := by
  cases heffect with
  | net hadmits hstep => exact Or.inr ⟨_, hquiet, hstep⟩
  | call hstep => cases hquiet
  | post hc hstage hdrawn hnumber hstep => exact Or.inr ⟨_, rfl, hstep⟩
  | _ => exact Or.inl rfl

theorem net_of_netStep {s s' : State ι ω V Buf} {e : Network.Event ι}
    (hstep : step mp bytes unpacker disp s (.net e) = some s') :
    Network.step mp bytes unpacker disp s.net e = some s'.net := by
  simp only [step] at hstep
  split at hstep
  · obtain ⟨net, hnet, rfl⟩ := Option.map_eq_some_iff.mp hstep
    exact hnet
  · cases hstep

/-- The next step of a thread that is about to post its call posts it. -/
theorem post_of_effect {s s' : State ι ω V Buf} {e : Event ι}
    (heffect : Effect mp bytes unpacker disp s e s') {j : Nat} {c : Caller ι}
    (hc : s.callers[j]? = some c) (hposting : c.stage = .posting)
    (hown : e.ofCaller j) :
    ∃ k, Network.step mp bytes unpacker disp s.net
      (.client c.client (.post k)) = some s'.net := by
  cases heffect with
  | @post j' k c' call net hc' hstage hdrawn hnumber hstep =>
      obtain rfl : j' = j := hown
      obtain rfl := Option.some.inj (hc'.symm.trans hc)
      exact ⟨k, hstep⟩
  | @move j' c' new e hc' hown' hmove =>
      obtain rfl := Event.ofCaller_unique hown' hown
      obtain rfl := Option.some.inj (hc'.symm.trans hc)
      cases hmove <;> rename_i hstage <;> simp [hposting] at *
  | _ => exact hown.elim

variable (mp bytes unpacker disp) in
/-- No application asks for anything more, nothing that a client needs has
failed, and neither the network nor a thread in `call` is forgotten. -/
structure Undisturbed (run : ℕ → State ι ω V Buf) (label : ℕ → Event ι)
    (i : ι) : Prop where
  quiet : ∀ n, (label n).isQuiet = true
  network : WeaklyFair run label
    (fun s => ∃ e, e.isProgress = true ∧ ∃ s',
      Calling.step mp bytes unpacker disp s (.net e) = some s')
    (fun e => ∃ e', e'.isProgress = true ∧ e = .net e')
  threads : ∀ j, WeaklyFair run label (CanMove mp bytes unpacker disp j)
    (Event.ofCaller j)
  legible : ∀ n, Legible mp bytes unpacker (run n).net
  healthy : ∀ n, Healthy mp (run n).net i

variable (mp bytes unpacker disp) in
/-- An infinite run in which this is so. -/
structure UndisturbedRun (app : ω) (run : ℕ → State ι ω V Buf)
    (label : ℕ → Event ι) (i : ι) : Prop
    extends Undisturbed mp bytes unpacker disp run label i where
  reach : Reachable (Calling.step mp bytes unpacker disp) Few
    (.initial disp app) (run 0)
  step : ∀ n, Calling.step mp bytes unpacker disp (run n) (label n) =
    some (run (n + 1))

namespace UndisturbedRun

variable {app : ω} {run : ℕ → State ι ω V Buf} {label : ℕ → Event ι} {i : ι}

theorem reach_at (h : UndisturbedRun mp bytes unpacker disp app run label i)
    (n : ℕ) : Reachable (Calling.step mp bytes unpacker disp) Few
      (.initial disp app) (run n) := by
  induction n with
  | zero => exact h.reach
  | succ n ih => exact ih.next (few_of_quiet (h.quiet n)) (h.step n)

theorem patient (h : UndisturbedRun mp bytes unpacker disp app run label i)
    (j : Nat) : Patient mp bytes unpacker disp app run label j i :=
  ⟨h.reach.mono fun _ _ _ => trivial, h.step, h.threads j,
    fun n => (h.healthy n).client⟩

/-- A run only adds. -/
theorem later (h : UndisturbedRun mp bytes unpacker disp app run label i)
    {m l : ℕ} (hml : m ≤ l) : Later (run m) (run l) := by
  induction l, hml using Nat.le_induction with
  | base => exact .refl _
  | succ l _ ih =>
      exact ih.trans
        (.of_effect (effect_of_step mp bytes unpacker disp (h.step l)))

/-- The network rests at last. -/
theorem rests [Finite ι]
    (h : UndisturbedRun mp bytes unpacker disp app run label i) :
    ∃ n, (∀ m ≥ n, (run m).net = (run n).net) ∧
      ∀ e, e.isProgress = true →
        Network.step mp bytes unpacker disp (run n).net e ≠
          some (run n).net := by
  have horderly : ∀ n, Orderly mp unpacker disp app (run n).net := fun n =>
    .of_reachable (net_of_reachable (fun _ _ hguard => hguard) (h.reach_at n))
  obtain ⟨n, hrests⟩ := rests_of_descends (fun n => (run n).net) fun n => by
    rcases net_of_quiet
      (effect_of_step mp bytes unpacker disp (h.step n)) (h.quiet n) with
      hsame | ⟨e, hprogress, hstep⟩
    · exact Or.inl hsame
    · exact Or.inr (descends_of_step (horderly n) hprogress hstep)
  refine ⟨n, hrests, fun e hprogress hself => ?_⟩
  exact Descends.irrefl _ (descends_of_step (horderly n) hprogress hself)

/-- Once it rests every thread has posted its call. -/
theorem posted (h : UndisturbedRun mp bytes unpacker disp app run label i)
    {n : ℕ} (hrests : ∀ m ≥ n, (run m).net = (run n).net)
    (hself : ∀ e, e.isProgress = true →
      Network.step mp bytes unpacker disp (run n).net e ≠ some (run n).net)
    {m : ℕ} (hm : n ≤ m) {j : Nat} {c : Caller ι}
    (hc : (run m).callers[j]? = some c)
    (halive : ((run n).net.client c.client).escaped = none) :
    c.stage ≠ .posting := by
  intro hposting
  have hother : ∀ l ≥ m, (run l).callers[j]? = some c →
      ¬ (label l).ofCaller j := by
    intro l hl hcl hown
    obtain ⟨k, hpost⟩ := post_of_effect
      (effect_of_step mp bytes unpacker disp (h.step l)) hcl hposting hown
    rw [hrests l (le_trans hm hl),
      hrests (l + 1) (Nat.le_succ_of_le (le_trans hm hl))] at hpost
    exact hself _ rfl hpost
  have hstays : ∀ l ≥ m, (run l).callers[j]? = some c := by
    intro l hl
    induction l, hl using Nat.le_induction with
    | base => exact hc
    | succ l hl ih =>
        rcases caller_of_effect
          (effect_of_step mp bytes unpacker disp (h.step l)) ih with
          ⟨-, hkept⟩ | ⟨hown, -⟩
        · exact hkept
        · exact absurd hown (hother l hl ih)
  obtain ⟨l, hl, hown⟩ := h.threads j m fun l hl => by
    refine canMove_of_unblocked ((h.patient j).threads_at l) (hstays l hl) ?_
      (by simp [hposting]) (Or.inr (by simp [hposting]))
    rw [hrests l (le_trans hm hl)]
    exact halive
  exact hother l hl (hstays l hl) hown

/-- Then there is nothing left to do in the network. -/
theorem stuck (h : UndisturbedRun mp bytes unpacker disp app run label i)
    {n : ℕ} (hrests : ∀ m ≥ n, (run m).net = (run n).net)
    (hself : ∀ e, e.isProgress = true →
      Network.step mp bytes unpacker disp (run n).net e ≠
        some (run n).net) : Stuck mp bytes unpacker disp (run n).net := by
  intro e hprogress
  by_contra hcan
  obtain ⟨net, hnet⟩ := Option.ne_none_iff_exists'.mp hcan
  have hadmits : ∀ m ≥ n, (run m).admits e = true := by
    intro m hm
    unfold State.admits
    split
    · rename_i i' k
      split
      · rename_i call hdrawn
        refine List.all_eq_true.mpr fun c hc => ?_
        obtain ⟨j, hj⟩ := List.getElem?_of_mem hc
        cases hstage : c.stage with
        | posting =>
            by_cases hi : c.client = i'
            · -- the client lives, as it can post
              have halive : ((run n).net.client c.client).escaped = none := by
                subst hi
                cases Network.effect_of_step mp bytes unpacker disp hnet with
                | client hadmits hclient =>
                    exact (Client.effect_of_step mp hclient).1
              exact absurd hstage (h.posted hrests hself hm hj halive)
            · simp [State.isPosting, hstage, hi]
        | _ => simp [State.isPosting, hstage]
      · rfl
    · rfl
  obtain ⟨m, hm, e', hprogress', hlabel⟩ := h.network n fun m hm => by
    refine ⟨e, hprogress, { run m with net := net }, ?_⟩
    simp only [Calling.step, hadmits m hm, if_true, hrests m hm, hnet,
      Option.map_some]
  have hstep := net_of_netStep (hlabel ▸ h.step m)
  rw [hrests m hm, hrests (m + 1) (Nat.le_succ_of_le hm)] at hstep
  exact hself e' hprogress' hstep

/-- Every call comes to an end. -/
theorem ends [Finite ι]
    (h : UndisturbedRun mp bytes unpacker disp app run label i) {j : Nat}
    {c : Caller ι} (hc : (run 0).callers[j]? = some c) (hi : c.client = i) :
    ∃ n c' result, (run n).callers[j]? = some c' ∧
      c'.stage = .ended result ∧ CallResult mp (run n) c' := by
  obtain ⟨n, hrests, hself⟩ := h.rests
  have hstuck := h.stuck hrests hself
  have hnet : ∀ m, Reachable (Network.step mp bytes unpacker disp) FewCalls
      (.initial disp app) (run m).net := fun m =>
    net_of_reachable (fun _ _ hguard => hguard) (h.reach_at m)
  obtain ⟨hsound, hlively⟩ := lively_of_reachable (hnet n) (h.legible n)
  have hclient := (h.patient j).caller_at hc hi
  -- the promise of the thread is ready once the network rests
  have hready : ∀ m c', (run m).callers[j]? = some c' →
      ∀ l ≥ max n m, (run l).promise c' ≠ none := by
    intro m c' hc' l hl
    obtain ⟨c'', hc'', hi''⟩ := hclient m
    obtain rfl := Option.some.inj (hc''.symm.trans hc')
    obtain ⟨idx, args, hcall⟩ :=
      (((h.patient j).threads_at m).inCall j c'' hc'').issued
    have hlast := ((h.later ((le_max_right n m).trans hl)).issued
      c''.client).subset hcall
    unfold State.promise
    rw [hrests l ((le_max_left n m).trans hl)] at hlast ⊢
    exact hstuck.answered hsound hlively (h.legible n)
      (hi'' ▸ h.healthy n) hlast
  obtain ⟨m, c', result, hc', hresult⟩ := (h.patient j).ends hc hi
    fun m c' hc' _ _ =>
      ⟨max n m, le_max_right n m, fun l hl => Or.inl (hready m c' hc' l hl)⟩
  exact ⟨m, c', result, hc', hresult, callResult_of_reachable (h.reach_at m)
    (h.legible m) (List.mem_of_getElem? hc')⟩

end UndisturbedRun

/-! ## Beside the memory of the replies -/

variable (mp bytes unpacker disp) in
/-- An infinite run beside the memory of the server's replies in which this is
so, and in which no dispatch takes the zone of a reply that waits. -/
structure SparingRun (garbage : StoredObject → Object) (app : ω)
    (run : ℕ → State ι ω V Buf × ReplyMemory) (label : ℕ → Event ι) (i : ι) :
    Prop where
  reach : Reachable
    (stepWithMemory garbage (serverPart mp bytes unpacker disp))
    (Sparing (serverPart mp bytes unpacker disp) Few)
    (.initial disp app, .initial) (run 0)
  step : ∀ n, stepWithMemory garbage (serverPart mp bytes unpacker disp)
    (run n) (label n) = some (run (n + 1))
  spares : ∀ n, Sparing (serverPart mp bytes unpacker disp) unguarded (run n)
    (label n)
  undisturbed : Undisturbed mp bytes unpacker disp (fun n => (run n).1) label i

/-- It is a run without the memory. -/
theorem SparingRun.alone {garbage : StoredObject → Object} {app : ω}
    {run : ℕ → State ι ω V Buf × ReplyMemory} {label : ℕ → Event ι} {i : ι}
    (h : SparingRun mp bytes unpacker disp garbage app run label i) :
    UndisturbedRun mp bytes unpacker disp app (fun n => (run n).1) label i := by
  obtain ⟨hreach, hheld⟩ := without_memory garbage
    (serverPart mp bytes unpacker disp) (.initial disp app, .initial)
    (.initial disp app) h.reach
  exact ⟨h.undisturbed, hreach, without_memory_forever garbage
    (serverPart mp bytes unpacker disp) hheld h.spares h.step⟩

/-- Where nothing fails every call comes to an end, with a timeout or without:
with what the dispatch of this call has answered, or with an exception after the
time it was told to wait. -/
theorem every_call_ends [Finite ι] {garbage : StoredObject → Object} {app : ω}
    {run : ℕ → State ι ω V Buf × ReplyMemory} {label : ℕ → Event ι} {i : ι}
    (h : SparingRun mp bytes unpacker disp garbage app run label i) {j : Nat}
    {c : Caller ι} (hc : (run 0).1.callers[j]? = some c) (hi : c.client = i) :
    ∃ n c' result, (run n).1.callers[j]? = some c' ∧
      c'.stage = .ended result ∧ CallResult mp (run n).1 c' :=
  h.alone.ends hc hi

/-! ### A run with one call -/

/-- Nothing has failed, the unpacker reads everything, and a dispatch finds
every reply written. -/
def isCalm (s : State Bool Nat Unit (Option Object)) (e : Event Bool) : Bool :=
  isPrompt calledPart s e && onlyCounted s.net &&
    decide (Healthy .reference s.net false)

/-- The run is calm, and at its end the network rests. -/
theorem called_rests {s s' s'' : State Bool Nat Unit (Option Object)}
    (h : Called s s' s'') :
    checkRun calledStep isCalm s (answerCall ++ leaveCall) = true ∧
      Healthy .reference s''.net false ∧
      Stuck .reference countedBytes MsgPack.shortForms counting s''.net := by
  have hends : (TransitionSystem.run calledStep (.initial counting 0)
      enterCall).map (fun s =>
        (checkRun calledStep isCalm s (answerCall ++ leaveCall),
          (TransitionSystem.run calledStep s (answerCall ++ leaveCall)).map
            fun s'' => (decide (Healthy .reference s''.net false),
              decide (Drained countedBytes s''.net)))) =
      some (true, some (true, true)) := rfl
  have hjobs : ∀ t, s''.net.server.jobs t = none := by
    intro t
    have hthis : ((TransitionSystem.run calledStep (.initial counting 0)
        enterCall).bind fun s =>
          (TransitionSystem.run calledStep s (answerCall ++ leaveCall)).map
            fun s'' => s''.net.server.jobs t) = some none := by
      cases t <;> rfl
    rw [h.enters, Option.bind_some, h.run] at hthis
    exact Option.some.inj hthis
  rw [h.enters, Option.map_some, h.run] at hends
  simp only [Option.map_some, Option.some.injEq, Prod.mk.injEq,
    decide_eq_true_eq] at hends
  obtain ⟨hcalm, hhealthy, hdrained⟩ := hends
  exact ⟨hcalm, hhealthy, hdrained.stuck hjobs⟩

/-- A thread that has just entered `call` posts its call, and has returned in
the end. -/
theorem every_call_ends_called :
    ∃ run : ℕ → State Bool Nat Unit (Option Object),
      (run 0).callers[0]? = some (called none .posting) ∧
      ∃ n c' result, (run n).callers[0]? = some c' ∧
        c'.stage = .ended result ∧ CallResult .reference (run n) c' := by
  obtain ⟨s, s', s'', hcalled⟩ := called_run
  obtain ⟨hcalm, hhealthy, hstuck⟩ := called_rests hcalled
  obtain ⟨run, label, h, hsteps⟩ := exists_elapsing hcalled.run
    (eachStep_of_checkRun (C := fun s e => isCalm s e = true)
      (fun _ _ h => h) hcalm)
  have hfirst : (run 0).callers[0]? = some (called none .posting) := by
    rw [h.first, hcalled.caller]
    rfl
  have hlast : ∀ n, ¬ n < (answerCall ++ leaveCall).length →
      label n = .tick 1 ∧ (run n).net = s''.net := fun n hn =>
    ⟨h.ticks n (Nat.le_of_not_lt hn), h.net n (Nat.le_of_not_lt hn)⟩
  have hcalmAt : ∀ n, isPrompt calledPart (run n) (label n) = true ∧
      Legible .reference countedBytes MsgPack.shortForms (run n).net ∧
      Healthy .reference (run n).net false := by
    intro n
    by_cases hn : n < (answerCall ++ leaveCall).length
    · have hthis := hsteps n hn
      simp only [isCalm, Bool.and_eq_true, decide_eq_true_eq] at hthis
      exact ⟨hthis.1.1, counted_legible hthis.1.2, hthis.2⟩
    · obtain ⟨hlabel, hnet⟩ := hlast n hn
      rw [hlabel, hnet]
      exact ⟨rfl, hcalled.legible, hhealthy⟩
  have hundisturbed : Undisturbed .reference countedBytes MsgPack.shortForms
      counting run label false := by
    refine ⟨fun n => ?_, fun n hready => ?_, fun j => h.fair ?_,
      fun n => (hcalmAt n).2.1, fun n => (hcalmAt n).2.2⟩
    · have hquiet : ∀ e ∈ (.tick 1 : Event Bool) :: (answerCall ++ leaveCall),
          e.isQuiet = true := by decide
      exact hquiet _ (h.labels n)
    · -- the network rests at last
      obtain ⟨e, hprogress, next, hstep⟩ :=
        hready _ (le_max_left n (answerCall ++ leaveCall).length)
      have hnet := net_of_netStep hstep
      rw [h.net _ (le_max_right n _), hstuck e hprogress] at hnet
      cases hnet
    · rw [hcalled.caller'']
      exact fun c hc => ⟨_, congrArg Caller.stage (List.mem_singleton.mp hc)⟩
  obtain ⟨m, hreach, hheld⟩ := with_memory (fun _ => .nil) calledPart
    (.initial counting 0) (.initial counting 0) hcalled.entered
  have hbegins : Held (calledPart.get (run 0)) m := h.first ▸ hheld
  obtain ⟨memory, hmemory, hbeside⟩ := with_memory_forever (fun _ => .nil)
    calledPart hbegins (fun n => (hcalmAt n).1) h.step
  have hfirst' : (run 0, memory 0) = (s, m) := by rw [h.first, hmemory]
  have hsparing : SparingRun .reference countedBytes MsgPack.shortForms
      counting (fun _ => .nil) 0 (fun n => (run n, memory n)) label false :=
    ⟨hfirst' ▸ hreach, fun n => (hbeside n).1, fun n => (hbeside n).2,
      hundisturbed⟩
  exact ⟨run, hfirst, every_call_ends hsparing hfirst rfl⟩

end Calling
end System
end RpcLib
