import RpcLib.Foundation.Stages
import RpcLib.Server.Answering

/-!
# The backlog of a server

What a server has to do without anything else happening: dispatch tasks,
handlers on the write strands, sessions to be closed, messages in the write
queues.  A handler may post others, but only behind its own stage.

* `Local`: a step touches one session and one thread at most.
* `Spread`: work is in finitely many places.
* `descends_of_effect`: by itself a server accepts, or works its backlog off.
-/

namespace RpcLib
namespace Server

open Protocol Transport Foundation TransitionSystem

variable {ω V Buf : Type} {mp : MsgPack Buf}
  {unpacker : Decoder Object UInt8} {disp : Dispatcher ω V}

/-- The events that the server brings about by itself and without a failure.
A read needs something to read. -/
def Event.isProgress : Event → Bool
  | .acceptDone _ ec _ => ec = .success
  | .resume _ | .dispatch _ _ | .runStrand _ _ => true
  | .written _ _ _ ec => ec = .success
  | _ => false

/-! ## One place at a time -/

/-- At most one session and one thread are touched. -/
structure Local (s s' : State ω V Buf) : Prop where
  session : ∃ k, ∀ j, j ≠ k → s'.connection j = s.connection j
  thread : ∃ t, ∀ u, u ≠ t → s'.jobs u = s.jobs u

theorem local_of_effect {s s' : State ω V Buf} {e : Event}
    (heffect : Effect mp unpacker disp s e s') : Local s s' := by
  have hsession : ∃ k : SessionNumber, ∀ j, j ≠ k →
      s.connection j = s.connection j := ⟨0, fun _ _ => rfl⟩
  have hthread : ∃ t : ThreadId, ∀ u, u ≠ t → s.jobs u = s.jobs u :=
    ⟨0, fun _ _ => rfl⟩
  cases heffect with
  | @accepted t =>
      exact ⟨⟨_, fun _ hj => s.setConnection_other hj _⟩,
        ⟨t, fun _ hu => Function.update_of_ne hu _ _⟩⟩
  | @acceptFailed t =>
      obtain ⟨_, _, hnext⟩ := s.acceptFailed_eq t
      rw [hnext]
      exact ⟨hsession, hthread⟩
  | @register t k =>
      obtain ⟨_, _, hnext⟩ := s.register_eq t k
      rw [hnext]
      exact ⟨hsession, ⟨t, fun _ hu => Function.update_of_ne hu _ _⟩⟩
  | @closeNext t posted k rest =>
      exact ⟨⟨k, fun _ hj => s.setConnection_other hj _⟩,
        ⟨t, fun _ hu => Function.update_of_ne hu _ _⟩⟩
  | @closedAll t =>
      exact ⟨hsession, ⟨t, fun _ hu => Function.update_of_ne hu _ _⟩⟩
  | @closeSessionsPosted t k =>
      exact ⟨⟨k, fun _ hj => s.setConnection_other hj _⟩,
        ⟨t, fun _ hu => Function.update_of_ne hu _ _⟩⟩
  | @closeSessions t =>
      exact ⟨hsession, ⟨t, fun _ hu => Function.update_of_ne hu _ _⟩⟩
  | readClosed | readFailed | dispatch | written =>
      exact ⟨⟨_, fun _ hj => s.setConnection_other hj _⟩, hthread⟩
  | readChunk | readLost | writeReply | close | closeSocket | closeSession =>
      exact ⟨⟨_, fun _ hj => s.setConnection_twice hj _ _⟩, hthread⟩
  | _ => exact ⟨hsession, hthread⟩

/-! ## What there is to do -/

/-- The handler closes all sessions. -/
def StrandTask.closesAll : StrandTask → Bool
  | .posted .closeSessions => true
  | _ => false

/-- How many handlers of the strand the handler stands for: `close` posts two
others. -/
def StrandTask.handlers : StrandTask → ℕ
  | .posted .close => 3
  | _ => 1

namespace Connection

/-- The handlers that close all sessions. -/
def toCloseAll (c : Connection ω V Buf) : ℕ :=
  (c.writeStrand.filter StrandTask.closesAll).length

/-- The handlers of the strand, with those that they post. -/
def toRun (c : Connection ω V Buf) : ℕ :=
  (c.writeStrand.map StrandTask.handlers).sum

def toSend (c : Connection ω V Buf) : ℕ := c.writer.writeQueue.length

end Connection

/-- How often a thread is resumed before it is free. -/
def Job.rounds : Option Job → ℕ
  | none => 0
  | some (.registering _) => 1
  | some (.closing _ rest) => rest.length + 1

namespace State

def toDispatch (s : State ω V Buf) : ℕ := s.tasks.length

noncomputable def toCloseAll (s : State ω V Buf) : ℕ :=
  total fun k => (s.connection k).toCloseAll

noncomputable def toResume (s : State ω V Buf) : ℕ :=
  total fun t => Job.rounds (s.jobs t)

noncomputable def toRun (s : State ω V Buf) : ℕ :=
  total fun k => (s.connection k).toRun

noncomputable def toSend (s : State ω V Buf) : ℕ :=
  total fun k => (s.connection k).toSend

end State

/-- The backlog, by stages. -/
noncomputable def backlog : List (State ω V Buf → ℕ) :=
  [State.toDispatch, State.toCloseAll, State.toResume, State.toRun,
    State.toSend]

/-- Work is in finitely many places. -/
structure Spread (s : State ω V Buf) : Prop where
  closeAll : Bounded fun k => (s.connection k).toCloseAll
  resume : Bounded fun t => Job.rounds (s.jobs t)
  run : Bounded fun k => (s.connection k).toRun
  send : Bounded fun k => (s.connection k).toSend

theorem Spread.initial (app : ω) :
    Spread (.initial disp app : State ω V Buf) := by
  have hnone : ∀ k : SessionNumber, 0 ≤ k →
      ((State.initial disp app : State ω V Buf).connection k).toRun = 0 :=
    fun _ _ => rfl
  exact ⟨.of_length (n := 0) fun _ _ => rfl, .of_length (n := 0) fun _ _ => rfl,
    .of_length hnone, .of_length (n := 0) fun _ _ => rfl⟩

theorem Spread.step {s s' : State ω V Buf} {e : Event} (h : Spread s)
    (heffect : Effect mp unpacker disp s e s') : Spread s' := by
  obtain ⟨⟨k, hsession⟩, ⟨t, hthread⟩⟩ := local_of_effect heffect
  exact ⟨h.closeAll.update hsession, h.resume.update hthread,
    h.run.update hsession, h.send.update hsession⟩

/-! ## Working it off -/

/-- A handler of a strand that does not close all sessions is gone for good,
with what it has posted instead. -/
theorem descends_of_handler {s s' : State ω V Buf} (hspread : Spread s)
    {k : SessionNumber} {task : StrandTask} {rest : List StrandTask}
    (posted : List StrandTask)
    (hstrand : (s.connection k).writeStrand = task :: rest)
    (hother : ∀ j, j ≠ k → s'.connection j = s.connection j)
    (hthis : (s'.connection k).writeStrand = rest ++ posted)
    (htasks : s'.tasks = s.tasks) (hjobs : s'.jobs = s.jobs)
    (hnone : posted.filter StrandTask.closesAll = [])
    (hfewer : (posted.map StrandTask.handlers).sum < task.handlers) :
    Descends backlog s s' := by
  refine .behind ?_ (.behind ?_ (.behind ?_ (.here ?_)))
  · rw [State.toDispatch, htasks]
    exact Nat.le_refl _
  · refine total_le_of_update hspread.closeAll hother ?_
    rw [Connection.toCloseAll, hthis, List.filter_append, hnone,
      List.append_nil, Connection.toCloseAll, hstrand]
    exact ((List.sublist_cons_self task rest).filter _).length_le
  · rw [State.toResume, hjobs]
    exact Nat.le_refl _
  · refine total_lt_of_update hspread.run hother ?_
    rw [Connection.toRun, hthis, List.map_append, List.sum_append,
      Connection.toRun, hstrand, List.map_cons, List.sum_cons]
    omega

/-- A thread that is resumed closes another session, or comes to the end of its
handler. -/
theorem descends_of_resume {s s' : State ω V Buf} (hspread : Spread s)
    {t : ThreadId} (htasks : s'.tasks = s.tasks)
    (hsession : ∃ k, (∀ j, j ≠ k → s'.connection j = s.connection j) ∧
      (s'.connection k).toCloseAll = (s.connection k).toCloseAll)
    (hthread : ∀ u, u ≠ t → s'.jobs u = s.jobs u)
    (hrounds : Job.rounds (s'.jobs t) < Job.rounds (s.jobs t)) :
    Descends backlog s s' := by
  obtain ⟨k, hother, hthis⟩ := hsession
  refine .behind ?_ (.behind ?_ (.here ?_))
  · rw [State.toDispatch, htasks]
    exact Nat.le_refl _
  · exact total_le_of_update hspread.closeAll hother (Nat.le_of_eq hthis)
  · exact total_lt_of_update hspread.resume hthread hrounds

/-- By itself a server accepts, or works its backlog off. -/
theorem descends_of_effect {s s' : State ω V Buf} {e : Event}
    (heffect : Effect mp unpacker disp s e s') (hprogress : e.isProgress = true)
    (hspread : Spread s)
    (hwriters : ∀ k < s.created,
      ∃ l, AsyncWriter.Ledger (s.connection k).writer l) :
    (∃ t address, e = .acceptDone t .success address ∧
      s' = s.accepted disp t address) ∨
      s'.created = s.created ∧ Descends backlog s s' := by
  cases heffect with
  | @accepted t address => exact Or.inl ⟨t, address, rfl, rfl⟩
  | acceptFailed address hfree haccepting herror =>
      exact absurd (by simpa [Event.isProgress] using hprogress) herror
  | @register t k hjob =>
      obtain ⟨_, _, hnext⟩ := s.register_eq t k
      rw [hnext]
      refine Or.inr ⟨rfl, descends_of_resume hspread (t := t) rfl
        ⟨0, fun _ _ => rfl, rfl⟩ (fun _ hu => Function.update_of_ne hu _ _) ?_⟩
      show Job.rounds (Function.update s.jobs t none t) < _
      rw [Function.update_self, hjob]
      exact Nat.one_pos
  | @closeNext t posted k rest hjob =>
      refine Or.inr ⟨rfl, descends_of_resume hspread (t := t) rfl
        ⟨k, fun _ hj => s.setConnection_other hj _, ?_⟩
        (fun _ hu => Function.update_of_ne hu _ _) ?_⟩
      · simp [Connection.toCloseAll, State.closeNext, State.close,
          State.setJob, StrandTask.closesAll]
      · have hnow : (s.closeNext t posted k rest).jobs t =
            some (.closing posted rest) := Function.update_self _ _ _
        rw [hnow, hjob]
        exact Nat.lt_succ_self _
  | @closedAll t posted hjob =>
      refine Or.inr ⟨rfl, descends_of_resume hspread (t := t) rfl
        ⟨0, fun _ _ => rfl, rfl⟩ (fun _ hu => Function.update_of_ne hu _ _) ?_⟩
      show Job.rounds (Function.update s.jobs t none t) < _
      rw [Function.update_self, hjob]
      exact Nat.one_pos
  | @dispatch t i k msg htask =>
      refine Or.inr ⟨rfl, .here ?_⟩
      obtain ⟨hi, -⟩ := List.getElem?_eq_some_iff.mp htask
      show (s.tasks.eraseIdx i).length < s.tasks.length
      rw [List.length_eraseIdx_of_lt hi]
      omega
  | writeReply hk hstrand =>
      refine Or.inr ⟨rfl, descends_of_handler hspread [] hstrand
        (fun _ hj => s.setConnection_twice hj _ _) ?_ rfl rfl rfl
        Nat.one_pos⟩
      simp [State.writeReply, State.popStrand]
  | close hk hstrand =>
      refine Or.inr ⟨rfl, descends_of_handler hspread
        [.closeSocket, .closeSession] hstrand
        (fun _ hj => s.setConnection_twice hj _ _) ?_ rfl rfl rfl
        (Nat.lt_succ_self 2)⟩
      simp [State.close, State.popStrand]
  | @closeSessionsPosted t k rest hk hstrand hfree =>
      refine Or.inr ⟨rfl, .behind (Nat.le_refl _) (.here ?_)⟩
      refine total_lt_of_update hspread.closeAll
        (fun _ hj => s.setConnection_other hj _) ?_
      have hpop : (((s.popStrand k rest).closeSessions t true).connection
          k).writeStrand = rest := by
        simp [State.closeSessions, State.setJob, State.popStrand]
      rw [Connection.toCloseAll, hpop, Connection.toCloseAll, hstrand]
      exact Nat.lt_succ_self _
  | closeSocket hk hstrand =>
      refine Or.inr ⟨rfl, descends_of_handler hspread [] hstrand
        (fun _ hj => s.setConnection_twice hj _ _) ?_ rfl rfl rfl
        Nat.one_pos⟩
      simp [State.closeSocket, State.popStrand]
  | closeSession hk hstrand =>
      refine Or.inr ⟨rfl, descends_of_handler hspread [] hstrand
        (fun _ hj => s.setConnection_twice hj _ _) ?_ rfl rfl rfl
        Nat.one_pos⟩
      simp [State.closeSession, State.popStrand]
  | @written t k i ec hk houtstanding =>
      obtain rfl : ec = .success := by simpa [Event.isProgress] using hprogress
      have hother : ∀ j, j ≠ k → (s.written mp k i .success).connection j =
          s.connection j := fun _ hj => s.setConnection_other hj _
      have hthis : (s.written mp k i .success).connection k =
          { s.connection k with
            writer := (((s.connection k).writer.taken i).onWritten mp
              .success).1 } := s.setConnection_self _ _
      refine Or.inr ⟨rfl, .behind (Nat.le_refl _) (.behind ?_
        (.behind (Nat.le_refl _) (.behind ?_ (.here ?_))))⟩
      · refine total_le_of_update hspread.closeAll hother (Nat.le_of_eq ?_)
        rw [hthis]
        rfl
      · refine total_le_of_update hspread.run hother (Nat.le_of_eq ?_)
        rw [hthis]
        rfl
      · refine total_lt_of_update hspread.send hother ?_
        obtain ⟨l, hl⟩ := hwriters k hk
        rw [hthis]
        exact AsyncWriter.written_writeQueue_lt mp hl houtstanding
  | _ => cases hprogress

end Server
end RpcLib
