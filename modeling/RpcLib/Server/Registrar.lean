import RpcLib.Server.Step

/-!
# Entering and leaving the vector of sessions

A session enters `Server::impl::sessions` at the end of the accept handler,
after it was started, and leaves it by `close_sessions` or by the handler that
`ServerSession::close` posts.

* `Registrar`: a session is entered once and is in the vector at most once.
* `Closings`: a closed session has its `close_session` handler ahead of it or
  behind it.
-/

namespace RpcLib
namespace Server

open Protocol Transport Foundation TransitionSystem

variable {ω V Buf : Type} (mp : MsgPack Buf) (unpacker : Decoder Object UInt8)
  (disp : Dispatcher ω V)

/-! ## Entering the vector -/

/-- Who is in the vector, and who is about to enter it. -/
structure Registrar (s : State ω V Buf) : Prop where
  created : ∀ k ∈ s.sessions, k < s.created
  nodup : s.sessions.Nodup
  pending : ∀ t k, s.jobs t = some (.registering k) →
    k < s.created ∧ k ∉ s.sessions
  unique : ∀ t t' k, s.jobs t = some (.registering k) →
    s.jobs t' = some (.registering k) → t = t'

namespace Registrar

theorem initial (app : ω) : Registrar (.initial disp app : State ω V Buf) :=
  ⟨fun _ hk => (nomatch hk), List.nodup_nil, fun _ _ hjob => (nomatch hjob),
    fun _ _ _ hjob => (nomatch hjob)⟩

/-- Sessions leave the vector and nobody is about to enter anew. -/
theorem narrow {s s' : State ω V Buf} (h : Registrar s)
    (hsessions : s'.sessions.Sublist s.sessions)
    (hcreated : s'.created = s.created)
    (hjobs : ∀ t k, s'.jobs t = some (.registering k) →
      s.jobs t = some (.registering k)) : Registrar s' := by
  refine ⟨fun k hk => ?_, h.nodup.sublist hsessions, fun t k hjob => ?_,
    fun t t' k hjob hjob' => h.unique t t' k (hjobs t k hjob)
      (hjobs t' k hjob')⟩
  · rw [hcreated]
    exact h.created k (hsessions.subset hk)
  · obtain ⟨hk, hnot⟩ := h.pending t k (hjobs t k hjob)
    rw [hcreated]
    exact ⟨hk, fun hmem => hnot (hsessions.subset hmem)⟩

/-- A thread that goes on with something else enters no session. -/
theorem of_setJob {s : State ω V Buf} {t : ThreadId} {job : Option Job}
    (hjob : ∀ k, job ≠ some (.registering k)) {u : ThreadId}
    {k : SessionNumber}
    (hu : Function.update s.jobs t job u = some (.registering k)) :
    s.jobs u = some (.registering k) := by
  by_cases hsame : u = t
  · subst hsame
    rw [Function.update_self] at hu
    exact absurd hu (hjob k)
  · rwa [Function.update_of_ne hsame] at hu

/-- A thread that has accepted a session is about to enter it; no other thread
is, since the session is younger than theirs. -/
theorem accepted {s : State ω V Buf} (h : Registrar s) (t : ThreadId)
    (address : SessionId) : Registrar (s.accepted disp t address) := by
  have hnew : ∀ u k, (s.accepted disp t address).jobs u =
      some (.registering k) → (u = t ∧ k = s.created) ∨
        (u ≠ t ∧ k < s.created ∧ s.jobs u = some (.registering k)) := by
    intro u k hu
    by_cases hsame : u = t
    · subst hsame
      have hk : s.created = k := by simpa [State.accepted] using hu
      exact Or.inl ⟨rfl, hk.symm⟩
    · have hold : s.jobs u = some (.registering k) := by
        simpa [State.accepted, hsame] using hu
      exact Or.inr ⟨hsame, (h.pending u k hold).1, hold⟩
  refine ⟨fun k hk => Nat.lt_succ_of_lt (h.created k hk), h.nodup, ?_, ?_⟩
  · intro u k hu
    rcases hnew u k hu with ⟨-, rfl⟩ | ⟨-, hk, hold⟩
    · exact ⟨Nat.lt_succ_self _, fun hmem =>
        Nat.lt_irrefl _ (h.created _ hmem)⟩
    · exact ⟨Nat.lt_succ_of_lt hk, (h.pending u k hold).2⟩
  · intro u u' k hu hu'
    rcases hnew u k hu with ⟨rfl, hk⟩ | ⟨-, hk, hold⟩ <;>
      rcases hnew u' k hu' with ⟨rfl, hk'⟩ | ⟨-, hk', hold'⟩
    · rfl
    · exact absurd hk' (Nat.not_lt_of_le (Nat.le_of_eq hk.symm))
    · exact absurd hk (Nat.not_lt_of_le (Nat.le_of_eq hk'.symm))
    · exact h.unique u u' k hold hold'

/-- The thread enters the session and is not about to enter it any more. -/
theorem register {s : State ω V Buf} (h : Registrar s) {t : ThreadId}
    {k : SessionNumber} (hjob : s.jobs t = some (.registering k)) :
    Registrar (s.register t k) := by
  obtain ⟨_, _, hnext⟩ := s.register_eq t k
  rw [hnext]
  obtain ⟨hk, hnot⟩ := h.pending t k hjob
  refine ⟨?_, ?_, ?_, ?_⟩
  · intro k' hk'
    rcases List.mem_append.mp hk' with hold | hnew
    · exact h.created k' hold
    · obtain rfl := List.mem_singleton.mp hnew
      exact hk
  · exact List.nodup_append.mpr ⟨h.nodup, List.nodup_singleton k,
      fun a ha b hb heq => hnot (List.mem_singleton.mp hb ▸ heq ▸ ha)⟩
  · intro u k' hu
    have hold : s.jobs u = some (.registering k') := of_setJob (by simp) hu
    obtain ⟨hk', hnot'⟩ := h.pending u k' hold
    refine ⟨hk', fun hmem => ?_⟩
    rcases List.mem_append.mp hmem with hmem | hnew
    · exact hnot' hmem
    · -- the thread itself has just finished
      obtain rfl := List.mem_singleton.mp hnew
      obtain rfl := h.unique u t k' hold hjob
      simp at hu
  · intro u u' k' hu hu'
    exact h.unique u u' k' (of_setJob (by simp) hu)
      (of_setJob (by simp) hu')

theorem step {s s' : State ω V Buf} {e : Event} (h : Registrar s)
    (hstep : step mp unpacker disp s e = some s') : Registrar s' := by
  cases (effect_of_step mp unpacker disp hstep).2 with
  | accepted address => exact h.accepted disp _ address
  | @acceptFailed t =>
      obtain ⟨_, _, hnext⟩ := s.acceptFailed_eq t
      rw [hnext]
      exact h.narrow (List.Sublist.refl _) rfl (fun _ _ hjob => hjob)
  | register hjob => exact h.register hjob
  | closeNext hjob =>
      exact h.narrow (List.Sublist.refl _) rfl
        (fun _ _ hu => of_setJob (by simp) hu)
  | closedAll hjob =>
      exact h.narrow (List.Sublist.refl _) rfl
        (fun _ _ hu => of_setJob (by simp) hu)
  | closeSessionsPosted hk hstrand hfree =>
      exact h.narrow (List.nil_sublist _) rfl
        (fun _ _ hu => of_setJob (by simp) hu)
  | closeSessions hfree =>
      exact h.narrow (List.nil_sublist _) rfl
        (fun _ _ hu => of_setJob (by simp) hu)
  | closeSession hk hstrand =>
      exact h.narrow List.erase_sublist rfl (fun _ _ hjob => hjob)
  | _ => exact h.narrow (List.Sublist.refl _) rfl (fun _ _ hjob => hjob)

end Registrar

/-! ## Closing and leaving the vector -/

/-- A closed session has its `close_session` handler on the strand or has run
it, and at most one read is in progress. -/
structure ClosingOk (c : Connection ω V Buf) : Prop where
  leaves : c.writer.exit = true →
    c.unregistered = true ∨ .closeSession ∈ c.writeStrand
  reading : c.reading ≤ 1

/-- Every session is in order. -/
def Closings (s : State ω V Buf) : Prop := ∀ k, ClosingOk (s.connection k)

namespace Closings

theorem initial (app : ω) : Closings (.initial disp app : State ω V Buf) :=
  fun _ => ⟨fun hexit => (nomatch hexit), Nat.le_refl 1⟩

/-- A handler that changes one session keeps that session in order. -/
theorem set {s s' : State ω V Buf} (h : Closings s) {k : SessionNumber}
    {c : Connection ω V Buf} (hc : ClosingOk c)
    (hconnection : s'.connection = (s.setConnection k c).connection) :
    Closings s' := by
  intro k'
  rw [hconnection]
  by_cases hsame : k' = k
  · subst hsame
    rwa [State.setConnection_self]
  · rw [State.setConnection_other s hsame]
    exact h k'

/-- Before a handler runs it is taken off the strand; it is not the one that
takes the session out of the vector. -/
theorem pop {c : Connection ω V Buf} {task : StrandTask}
    {rest : List StrandTask} (hc : ClosingOk c)
    (hstrand : c.writeStrand = task :: rest) (htask : task ≠ .closeSession) :
    ClosingOk { c with writeStrand := rest } := by
  refine ⟨fun hexit => ?_, hc.reading⟩
  rcases hc.leaves hexit with hleft | hmem
  · exact Or.inl hleft
  · rw [hstrand, List.mem_cons] at hmem
    exact Or.inr (hmem.resolve_left (fun heq => htask heq.symm))

/-- A session that is closed has its `close_session` handler posted. -/
theorem closed {c : Connection ω V Buf} (hc : ClosingOk c) :
    ClosingOk { c with
      writer := c.writer.close
      writeStrand := c.writeStrand ++ [.closeSocket, .closeSession] } :=
  ⟨fun _ => Or.inr (by simp), hc.reading⟩

/-- A session with one read fewer in progress. -/
theorem endRead {c : Connection ω V Buf} (hc : ClosingOk c) :
    ClosingOk { c with reading := c.reading - 1 } :=
  ⟨hc.leaves, Nat.le_trans (Nat.sub_le _ _) hc.reading⟩

theorem step {s s' : State ω V Buf} {e : Event} (h : Closings s)
    (hstep : step mp unpacker disp s e = some s') : Closings s' := by
  cases (effect_of_step mp unpacker disp hstep).2 with
  | accepted address =>
      refine h.set (k := s.created) ?_ rfl
      exact ⟨fun hexit => (nomatch hexit), Nat.le_refl 1⟩
  | @acceptFailed t =>
      obtain ⟨_, _, hnext⟩ := s.acceptFailed_eq t
      rw [hnext]
      exact h
  | @register t k =>
      obtain ⟨_, _, hnext⟩ := s.register_eq t k
      rw [hnext]
      exact h
  | @closeNext t posted k rest => exact h.set (closed (h k)) rfl
  | @readClosed t k => exact h.set (endRead (h k)) rfl
  | @readChunk t k chunk hk hreading hopen =>
      have hended : Closings (s.endRead k) := h.set (endRead (h k)) rfl
      refine hended.set (k := k) ?_ rfl
      refine ⟨(hended k).leaves, ?_⟩
      -- the read that has ended makes room for the next one
      have hone := (h k).reading
      have hnone : ((s.endRead k).connection k).reading =
          (s.connection k).reading - 1 := by
        simp [State.endRead]
      dsimp only
      split <;> omega
  | @readLost t k =>
      have hended : Closings (s.endRead k) := h.set (endRead (h k)) rfl
      exact hended.set (closed (hended k)) rfl
  | @readFailed t k => exact h.set (endRead (h k)) rfl
  | @dispatch t i k msg htask =>
      refine h.set (k := k) ?_ rfl
      exact ⟨fun hexit => ((h k).leaves hexit).imp_right
        (List.mem_append_left _), (h k).reading⟩
  | @writeReply t k resp rest hk hstrand =>
      have hpopped : Closings (s.popStrand k rest) :=
        h.set (pop (h k) hstrand (by simp)) rfl
      refine hpopped.set (k := k) ?_ rfl
      refine ⟨fun hexit => ?_, (hpopped k).reading⟩
      rw [AsyncWriter.write_exit] at hexit
      exact (hpopped k).leaves hexit
  | @close t k rest hk hstrand =>
      have hpopped : Closings (s.popStrand k rest) :=
        h.set (pop (h k) hstrand (by simp)) rfl
      exact hpopped.set (closed (hpopped k)) rfl
  | @closeSessionsPosted t k rest hk hstrand hfree =>
      exact h.set (pop (h k) hstrand (by simp)) rfl
  | @closeSocket t k rest hk hstrand =>
      have hpopped : Closings (s.popStrand k rest) :=
        h.set (pop (h k) hstrand (by simp)) rfl
      refine hpopped.set (k := k) ?_ rfl
      exact ⟨(hpopped k).leaves, (hpopped k).reading⟩
  | @closeSession t k rest hk hstrand =>
      have hreading : ClosingOk { s.connection k with
          writeStrand := rest
          unregistered := true } := ⟨fun _ => Or.inl rfl, (h k).reading⟩
      refine h.set (k := k) hreading ?_
      simp [State.closeSession, State.popStrand, State.setConnection]
  | @written t k i ec hk houtstanding =>
      refine h.set (k := k) ?_ rfl
      refine ⟨fun hexit => ?_, (h k).reading⟩
      rw [(AsyncWriter.onWritten_frame mp _ ec).1] at hexit
      exact (h k).leaves hexit
  | acceptThrows => exact h
  | closedAll => exact h
  | closeSessions => exact h
  | suppressExceptions => exact h

end Closings

end Server
end RpcLib
