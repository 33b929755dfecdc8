import RpcLib.Client.RequestFlow

/-!
# `is_connected` and the stored connection state

Two fields say whether the client is connected.  The connect handler sets both
of them; the error branches of the read handler set one or none.

`LoopEnded` says that a connection was made and nothing is read from it any
more, which is when a read has completed with an error
(`loopEnded_iff_of_run`).  `always_flagsConsistent_iff`: the two fields agree,
and no request follows the end of the connection, exactly as long as no read
completes with an error.
-/

namespace RpcLib
namespace Client

open Protocol Transport Foundation TransitionSystem

variable {Buf : Type} (mp : MsgPack Buf)

/-! ## The phases of the connection -/

/-- No connect attempt is under way, none has failed for good, and nothing is
being read. -/
def LoopEnded (s : State Buf) : Prop :=
  s.connecting = 0 ∧ s.reading = 0 ∧ s.escaped = none

/-- The client connects once, and then has at most one read in progress. -/
structure Phases (s : State Buf) : Prop where
  attempting : s.isConnected = false →
    s.reading = 0 ∧ s.state ≠ .connected ∧ s.connecting ≤ 1 ∧
      (s.escaped = none → s.connecting = 1)
  connected : s.isConnected = true → s.connecting = 0 ∧ s.reading ≤ 1

/-- What the read handler's loop leaves of the connection. -/
theorem handleResponse_link (s : State Buf) (obj : Object) :
    (s.handleResponse mp obj).state = s.state ∧
      (s.handleResponse mp obj).connecting = s.connecting ∧
      (s.handleResponse mp obj).reading = s.reading := by
  unfold State.handleResponse
  cases Response.ofHandle mp obj with
  | none => exact ⟨rfl, rfl, rfl⟩
  | some response =>
      dsimp only
      unfold State.currentCall
      cases s.ongoingCalls response.id.toInt32 with
      | none =>
          dsimp only
          split <;> exact ⟨rfl, rfl, rfl⟩
      | some entry =>
          dsimp only
          split <;> exact ⟨rfl, rfl, rfl⟩

theorem handleResponses_link (s : State Buf) (objs : List Object) :
    (s.handleResponses mp objs).state = s.state ∧
      (s.handleResponses mp objs).connecting = s.connecting ∧
      (s.handleResponses mp objs).reading = s.reading := by
  induction objs generalizing s with
  | nil => exact ⟨rfl, rfl, rfl⟩
  | cons obj objs ih =>
      obtain ⟨hstate, hconnecting, hreading⟩ := handleResponse_link mp s obj
      unfold State.handleResponses
      dsimp only
      split
      · exact ⟨hstate, hconnecting, hreading⟩
      · obtain ⟨hstate', hconnecting', hreading'⟩ :=
          ih (s.handleResponse mp obj)
        exact ⟨hstate'.trans hstate, hconnecting'.trans hconnecting,
          hreading'.trans hreading⟩

/-- Entering a call does not touch the connection. -/
theorem insertCall_link (s : State Buf) (c : Call) :
    (s.insertCall mp c).isConnected = s.isConnected ∧
      (s.insertCall mp c).state = s.state ∧
      (s.insertCall mp c).connecting = s.connecting ∧
      (s.insertCall mp c).reading = s.reading := by
  unfold State.insertCall
  dsimp only
  split <;> exact ⟨rfl, rfl, rfl, rfl⟩

/-- A read that succeeds is followed by another one, unless an exception has
escaped. -/
theorem readDone_success_link {s : State Buf} (objs : List Object)
    (hreading : 0 < s.reading) :
    (s.readDone mp objs .success).state = s.state ∧
      (s.readDone mp objs .success).connecting = s.connecting ∧
      (s.readDone mp objs .success).reading ≤ s.reading ∧
      ((s.readDone mp objs .success).escaped = none →
        (s.readDone mp objs .success).reading = s.reading) := by
  obtain ⟨hstate, hconnecting, hread⟩ :=
    handleResponses_link mp { s with reading := s.reading - 1 } objs
  unfold State.readDone
  dsimp only
  split
  · rename_i hescaped
    refine ⟨hstate, hconnecting, ?_, fun hnone => ?_⟩
    · rw [hread]
      exact Nat.sub_le _ _
    · rw [hnone] at hescaped
      cases hescaped
  · have hback : ({ s with reading := s.reading - 1 }.handleResponses mp
        objs).reading + 1 = s.reading := by
      rw [hread]
      exact Nat.sub_add_cancel hreading
    exact ⟨hstate, hconnecting, Nat.le_of_eq hback, fun _ => hback⟩

/-- A read that fails takes the read away and touches nothing else than the
state. -/
theorem readDone_failure_link (s : State Buf) (objs : List Object)
    {ec : ErrorCode} (herror : ec ≠ .success) :
    (s.readDone mp objs ec).state =
        (if ec = .eof ∨ ec = .connectionReset then .disconnected
          else s.state) ∧
      (s.readDone mp objs ec).connecting = s.connecting ∧
      (s.readDone mp objs ec).reading = s.reading - 1 ∧
      (s.readDone mp objs ec).escaped = s.escaped := by
  cases ec with
  | success => exact absurd rfl herror
  | _ => exact ⟨rfl, rfl, rfl, rfl⟩

namespace Phases

theorem initial : Phases (State.initial : State Buf) :=
  ⟨fun _ => ⟨rfl, by simp [State.initial], Nat.le_refl 1, fun _ => rfl⟩,
    fun h => by cases h⟩

variable {mp}

/-- Steps that leave the connection alone. -/
theorem of_link {s s' : State Buf} (h : Phases s)
    (hconnected : s'.isConnected = s.isConnected)
    (hstate : s'.state = s.state) (hconnecting : s'.connecting = s.connecting)
    (hreading : s'.reading = s.reading)
    (hescaped : s'.escaped = none → s.escaped = none) : Phases s' := by
  refine ⟨fun hnot => ?_, fun hyes => ?_⟩
  · obtain ⟨hread, hnot', hbound, hattempt⟩ :=
      h.attempting (hconnected ▸ hnot)
    rw [hreading, hstate, hconnecting]
    exact ⟨hread, hnot', hbound, fun hnone => hattempt (hescaped hnone)⟩
  · rw [hconnecting, hreading]
    exact h.connected (hconnected ▸ hyes)

/-- A read is in progress on a connection. -/
theorem isConnected_of_reading {s : State Buf} (h : Phases s)
    (hreading : 0 < s.reading) : s.isConnected = true := by
  by_contra hnot
  have hnone := (h.attempting (Bool.eq_false_iff.mpr hnot)).1
  omega

theorem readDone {s : State Buf} (h : Phases s) (ec : ErrorCode)
    (objs : List Object) (hreading : 0 < s.reading) :
    Phases (s.readDone mp objs ec) := by
  have hconnected := h.isConnected_of_reading hreading
  have hsame := (ReadFrame.readDone mp s objs ec).isConnected
  obtain ⟨hnone, hbound⟩ := h.connected hconnected
  refine ⟨fun hnot => ?_, fun _ => ?_⟩
  · rw [hsame, hconnected] at hnot
    cases hnot
  · by_cases hsuccess : ec = .success
    · subst hsuccess
      obtain ⟨-, hconnecting, hread, -⟩ :=
        readDone_success_link mp objs hreading
      omega
    · obtain ⟨-, hconnecting, hread, -⟩ :=
        readDone_failure_link mp s objs hsuccess
      omega

theorem connect {s : State Buf} (h : Phases s) (hconnecting : 0 < s.connecting) :
    s.isConnected = false ∧ s.reading = 0 ∧ s.connecting = 1 := by
  have hnot : s.isConnected = false := by
    by_contra hyes
    have hnone := (h.connected (by simpa using hyes)).1
    omega
  obtain ⟨hread, -, hbound, -⟩ := h.attempting hnot
  exact ⟨hnot, hread, by omega⟩

theorem step {s s' : State Buf} {e : Event} (h : Phases s)
    (halive : s.escaped = none) (heffect : Effect mp s e s') :
    Phases s' := by
  cases heffect with
  | @insertCall c rest hstrand =>
      obtain ⟨hconnected, hstate, hconnecting, hreading⟩ :=
        insertCall_link mp { s with strand := rest } c
      exact h.of_link hconnected hstate hconnecting hreading fun _ => halive
  | connected hconnecting =>
      obtain ⟨-, hread, hone⟩ := h.connect hconnecting
      refine ⟨fun hnot => absurd hnot (by simp [State.connected]),
        fun _ => ⟨?_, ?_⟩⟩
      · show s.connecting - 1 = 0
        omega
      · show s.reading + 1 ≤ 1
        omega
  | retried hconnecting => exact h
  | refused hconnecting =>
      obtain ⟨hnot, hread, hone⟩ := h.connect hconnecting
      refine ⟨fun _ => ⟨hread, by simp [State.refused], ?_, ?_⟩,
        fun hyes => ?_⟩
      · show s.connecting - 1 ≤ 1
        omega
      · intro hnone
        cases hnone
      · cases Eq.trans (Eq.symm hnot) hyes
  | readDone ec objs hreading => exact h.readDone ec objs hreading
  | written ec houtstanding =>
      exact h.of_link rfl rfl rfl rfl fun _ => halive
  | _ => exact h.of_link rfl rfl rfl rfl id

end Phases

/-! ## The end of the read loop -/

/-- A read completes with an error. -/
def ReadError (e : Event) : Prop :=
  ∃ ec objs, e = .readDone ec objs ∧ ec ≠ .success

theorem loopEnded_congr {s s' : State Buf} (halive : s.escaped = none)
    (halive' : s'.escaped = none) (hconnecting : s'.connecting = s.connecting)
    (hreading : s'.reading = s.reading) : LoopEnded s' ↔ LoopEnded s := by
  unfold LoopEnded
  rw [halive, halive', hconnecting, hreading]

/-- In a process that goes on, the loop ends in a step exactly when a read
completes with an error. -/
theorem loopEnded_of_effect {s s' : State Buf} {e : Event} (h : Phases s)
    (halive : s.escaped = none) (heffect : Effect mp s e s')
    (halive' : s'.escaped = none) :
    LoopEnded s' ↔ LoopEnded s ∨ ReadError e := by
  have hother : (∀ ec objs, e ≠ .readDone ec objs) → ¬ ReadError e := by
    rintro hnot ⟨ec, objs, rfl, -⟩
    exact hnot ec objs rfl
  cases heffect with
  | @insertCall c rest hstrand =>
      obtain ⟨-, -, hconnecting, hreading⟩ :=
        insertCall_link mp { s with strand := rest } c
      rw [loopEnded_congr halive halive' hconnecting hreading]
      exact (or_iff_left (hother (by simp))).symm
  | connected hconnecting =>
      have hreads : ¬ LoopEnded s.connected := by
        rintro ⟨-, hnone, -⟩
        exact absurd hnone (Nat.succ_ne_zero _)
      have hattempts : ¬ LoopEnded s := by
        rintro ⟨hnone, -, -⟩
        omega
      simp [hreads, hattempts, hother]
  | refused hconnecting => cases halive'
  | readDone ec objs hreading =>
      have hconnected := h.isConnected_of_reading hreading
      obtain ⟨hnone, hbound⟩ := h.connected hconnected
      have hreads : ¬ LoopEnded s := by
        rintro ⟨-, hzero, -⟩
        omega
      by_cases hsuccess : ec = .success
      · subst hsuccess
        obtain ⟨-, -, -, hback⟩ := readDone_success_link mp objs hreading
        have hreads' : ¬ LoopEnded (s.readDone mp objs .success) := by
          rintro ⟨-, hzero, -⟩
          have hsame := hback halive'
          omega
        simp [hreads, hreads', ReadError]
      · obtain ⟨-, hconnecting, hread, -⟩ :=
          readDone_failure_link mp s objs hsuccess
        have hended : LoopEnded (s.readDone mp objs ec) :=
          ⟨by omega, by omega, halive'⟩
        simp [hended, ReadError, hsuccess]
  | _ =>
      rw [loopEnded_congr halive halive' rfl rfl]
      exact (or_iff_left (hother (by simp))).symm

/-- The loop of a live process has ended exactly when a read of its run has
completed with an error. -/
theorem loopEnded_iff_of_run {es : List Event} {s s' : State Buf}
    (h : Phases s) (hrun : run (step mp) s es = some s')
    (halive : s'.escaped = none) :
    LoopEnded s' ↔ LoopEnded s ∨ ∃ e ∈ es, ReadError e := by
  induction es generalizing s with
  | nil =>
      obtain rfl : s = s' := by simpa using hrun
      simp
  | cons e es ih =>
      rw [run_cons, Option.bind_eq_some_iff] at hrun
      obtain ⟨middle, hstep, hrest⟩ := hrun
      obtain ⟨halive₀, heffect⟩ := effect_of_step mp hstep
      have halive₁ : middle.escaped = none := by
        cases es with
        | nil =>
            obtain rfl : middle = s' := by simpa using hrest
            exact halive
        | cons e' es =>
            rw [run_cons, Option.bind_eq_some_iff] at hrest
            obtain ⟨_, hstep', -⟩ := hrest
            exact (effect_of_step mp hstep').1
      rw [ih (h.step halive₀ heffect) hrest,
        loopEnded_of_effect mp h halive₀ heffect halive₁]
      simp [or_assoc]

/-! ## The two fields -/

/-- What the two fields are for: they say the same, a lost connection shows in
the stored state, and after the loss no request is handed to the writer. -/
structure FlagsConsistent (s : State Buf) : Prop where
  mirror : s.isConnected = true ↔ s.state = .connected
  ended : LoopEnded s → s.state = .disconnected
  quiet : LoopEnded s → ∀ e s', step mp s e = some s' →
    s'.handedOver.filter (isRequest mp) = s.handedOver.filter (isRequest mp)

/-- No read completes with an error. -/
def NoReadError (_ : State Buf) (e : Event) : Prop := ¬ ReadError e

/-- The connection of a client that has seen no read error. -/
structure Linked (s : State Buf) : Prop where
  phases : Phases s
  mirror : s.isConnected = true ↔ s.state = .connected
  reads : ¬ LoopEnded s

theorem Linked.initial : Linked (State.initial : State Buf) where
  phases := .initial
  mirror := by simp [State.initial]
  reads := by simp [LoopEnded, State.initial]

theorem Linked.flagsConsistent {s : State Buf} (h : Linked s) :
    FlagsConsistent mp s :=
  ⟨h.mirror, fun hended => absurd hended h.reads,
    fun hended => absurd hended h.reads⟩

/-- A step without a read error keeps both fields together. -/
theorem mirror_of_effect {s s' : State Buf} {e : Event} (h : Linked s)
    (hnoError : NoReadError s e) (heffect : Effect mp s e s') :
    s'.isConnected = true ↔ s'.state = .connected := by
  cases heffect with
  | @insertCall c rest hstrand =>
      obtain ⟨hconnected, hstate, -⟩ :=
        insertCall_link mp { s with strand := rest } c
      rw [hconnected, hstate]
      exact h.mirror
  | connected hconnecting => simp [State.connected]
  | refused hconnecting =>
      have hnot := (h.phases.connect hconnecting).1
      simp [State.refused, hnot]
  | readDone ec objs hreading =>
      have hsuccess : ec = .success := by
        by_contra herror
        exact hnoError ⟨ec, objs, rfl, herror⟩
      subst hsuccess
      rw [(ReadFrame.readDone mp s objs .success).isConnected,
        (readDone_success_link mp objs hreading).1]
      exact h.mirror
  | _ => exact h.mirror

theorem Linked.step {s s' : State Buf} {e : Event} (h : Linked s)
    (hnoError : NoReadError s e) (hstep : step mp s e = some s') :
    Linked s' := by
  obtain ⟨halive, heffect⟩ := effect_of_step mp hstep
  refine ⟨h.phases.step halive heffect, mirror_of_effect mp h hnoError heffect,
    fun hended => ?_⟩
  have hcause := (loopEnded_of_effect mp h.phases halive heffect
    hended.2.2).mp hended
  exact hcause.elim h.reads hnoError

/-- A read error leaves `is_connected` behind, or both fields. -/
theorem not_flagsConsistent_of_error {s s' : State Buf} {e : Event}
    (h : Linked s) (herror : ¬ NoReadError s e)
    (hstep : Client.step mp s e = some s') : ¬ FlagsConsistent mp s' := by
  obtain ⟨halive, heffect⟩ := effect_of_step mp hstep
  obtain ⟨ec, objs, rfl, hfailed⟩ := not_not.mp herror
  cases heffect with
  | readDone _ _ hreading =>
      have hconnected := h.phases.isConnected_of_reading hreading
      have hsame := (ReadFrame.readDone mp s objs ec).isConnected
      obtain ⟨hstate, -, -, hescaped⟩ :=
        readDone_failure_link mp s objs hfailed
      have hended : LoopEnded (s.readDone mp objs ec) :=
        (loopEnded_of_effect mp h.phases halive (.readDone ec objs hreading)
          (hescaped.trans halive)).mpr (Or.inr ⟨ec, objs, rfl, hfailed⟩)
      intro hconsistent
      -- the state is `disconnected`, and the other field says connected
      have hmirror := hconsistent.mirror.mp (hsame.trans hconnected)
      rw [hconsistent.ended hended] at hmirror
      cases hmirror

/-- In every run the two fields agree, a lost connection shows in the state and
no request follows it exactly as long as no read completes with an error. -/
theorem always_flagsConsistent_iff (es : List Event) :
    Always (step mp) (FlagsConsistent mp) State.initial es ↔
      EachStep (step mp) NoReadError State.initial es := by
  exact always_iff_eachStep (J := Linked) (fun _ h => h.flagsConsistent mp)
    (fun _ _ _ h _ hnoError hstep => h.step mp hnoError hstep)
    (fun _ _ _ h _ herror hstep =>
      not_flagsConsistent_of_error mp h herror hstep)
    .initial (eachStep_unguarded _ _ es)

/-- The server closes the connection.  A call is posted before the read handler
runs with `eof`, and its handler on the strand runs after that.  (Once the read
handler has run and nothing else is queued, `io.run()` returns and no later
handler runs.) -/
def callAfterLoss : List Event :=
  [.connectDone, .runStrand, .draw "list" [], .post 0, .readDone .eof [],
    .runStrand]

/-- After `eof` the stored state is `disconnected` and `is_connected` is still
true, so the request of the call goes to the writer. -/
theorem call_after_loss_is_handed_over :
    ¬ Always (step .reference) (FlagsConsistent .reference) State.initial
      callAfterLoss ∧
    (run (step .reference) State.initial callAfterLoss).map
      (fun s => (s.isConnected, s.state,
        s.handedOver.filter (isRequest .reference))) =
      some (true, .disconnected,
        [some (.array [.ofInt8 0, .ofInt32 1, .str "list", .array []])]) := by
  have hends : (run (step .reference) State.initial callAfterLoss).map
      (fun s => (s.isConnected, s.state,
        s.handedOver.filter (isRequest .reference))) =
      some (true, .disconnected,
        [some (.array [.ofInt8 0, .ofInt32 1, .str "list", .array []])]) := by
    rfl
  refine ⟨fun halways => ?_, hends⟩
  obtain ⟨s, hrun, hend⟩ := Option.map_eq_some_iff.mp hends
  simp only [Prod.mk.injEq] at hend
  obtain ⟨hconnected, hstate, -⟩ := hend
  have hmirror := (halways.of_run hrun).mirror.mp hconnected
  rw [hstate] at hmirror
  cases hmirror

end Client
end RpcLib
