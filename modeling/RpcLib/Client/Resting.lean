import RpcLib.Client.ConnectionFlags
import RpcLib.Client.Sending
import RpcLib.Foundation.Stages

/-!
# A client that has nothing left to do

* `Steady`: until it has a connection a client connects, and when it has one
  the flush is posted before anything can be forgotten.
* `Resting.started_of_issued`: a client whose threads, strand and writer rest
  has handed every call to its socket.
* `descends_of_effect`: by itself a client only works off what it has to do.
-/

namespace RpcLib
namespace Client

open Protocol Transport Foundation TransitionSystem

variable {Buf : Type} {mp : MsgPack Buf}

/-- What keeps a client going. -/
structure Steady (s : State Buf) : Prop where
  phases : Phases s
  flushing : s.isConnected = true → s.flushed = true ∨ .flushPending ∈ s.strand
  unstarted : AsyncWriter.Unstarted s.writer

namespace Steady

theorem initial : Steady (State.initial : State Buf) :=
  ⟨.initial, fun hconnected => (nomatch hconnected), fun _ => rfl⟩

/-- The strand runs another handler than the flush. -/
theorem flushing_of_pop {s : State Buf} (h : Steady s) {task : Task Buf}
    {rest : List (Task Buf)} (hstrand : s.strand = task :: rest)
    (hother : task ≠ .flushPending) (hconnected : s.isConnected = true) :
    s.flushed = true ∨ .flushPending ∈ rest := by
  refine (h.flushing hconnected).imp_right fun hmem => ?_
  rw [hstrand] at hmem
  exact (List.mem_cons.mp hmem).resolve_left (Ne.symm hother)

theorem step {s s' : State Buf} {e : Event} (h : Steady s)
    (halive : s.escaped = none) (heffect : Effect mp s e s') : Steady s' := by
  refine ⟨h.phases.step halive heffect, ?_,
    (moves_of_effect mp heffect).unstarted h.unstarted⟩
  have hpost : ∀ tasks : List (Task Buf), s.isConnected = true →
      s.flushed = true ∨ .flushPending ∈ s.strand ++ tasks := fun _ hyes =>
    (h.flushing hyes).imp_right (List.mem_append_left _)
  cases heffect with
  | draw => exact h.flushing
  | post hdrawn => exact hpost _
  | notify => exact hpost _
  | @insertCall c rest hstrand =>
      have hpop := h.flushing_of_pop hstrand (by simp)
      unfold State.insertCall
      dsimp only
      split <;> exact hpop
  | writeNotification hstrand => exact h.flushing_of_pop hstrand (by simp)
  | flushPending => exact fun _ => Or.inl rfl
  | eraseCall hstrand => exact h.flushing_of_pop hstrand (by simp)
  | connected => exact fun _ => Or.inr (by simp [State.connected])
  | retried => exact h.flushing
  | refused => exact h.flushing
  | readDone ec objs hreading =>
      have hframe := ReadFrame.readDone mp s objs ec
      obtain ⟨ids, hstrand⟩ := hframe.strand
      rw [hframe.isConnected, hframe.flushed, hstrand]
      exact hpost _
  | written => exact h.flushing

end Steady

/-- Only the connect handler makes a client connected. -/
theorem connectDone_of_connected {s s' : State Buf} {e : Event}
    (heffect : Effect mp s e s') (hbefore : s.isConnected = false)
    (hafter : s'.isConnected = true) : e = .connectDone := by
  cases heffect with
  | connected hconnecting => rfl
  | @insertCall c rest hstrand =>
      have hsame : _ = s.isConnected :=
        (insertCall_link mp { s with strand := rest } c).1
      rw [hsame, hbefore] at hafter
      cases hafter
  | readDone ec objs hreading =>
      rw [(ReadFrame.readDone mp s objs ec).isConnected, hbefore] at hafter
      cases hafter
  | _ => cases hbefore.symm.trans hafter

/-- The client is connected, and its threads, its strand and its writer have
nothing to do. -/
structure Resting (s : State Buf) : Prop where
  connected : s.isConnected = true
  drawn : s.drawn = []
  strand : s.strand = []
  queue : s.writer.writeQueue = []

/-- Then every call has been handed to the socket. -/
theorem Resting.started_of_issued {s : State Buf} (h : Resting s)
    (hsteady : Steady s) (hcorrelated : Correlated mp s) {c : Call}
    (hc : c ∈ s.issued) : c.buffer mp ∈ s.writer.started := by
  have hran : c ∈ s.ran := by
    have hplaced := hcorrelated.tracked.calls.placed
    rw [State.queued, h.drawn, h.strand] at hplaced
    exact hplaced.symm.subset hc
  have hflushed : s.flushed = true :=
    (hsteady.flushing h.connected).resolve_right (by simp [h.strand])
  have hnone := hcorrelated.requests.flushed hflushed
  have hall := hcorrelated.requests.requests
  rw [hnone, List.append_nil] at hall
  have hhanded : c.buffer mp ∈ s.handedOver := by
    have hmem : c.buffer mp ∈ s.handedOver.filter (isRequest mp) := by
      rw [hall]
      exact List.mem_map_of_mem hran
    exact List.mem_of_mem_filter hmem
  have hwriter := hcorrelated.requests.writer
  obtain ⟨l, hl⟩ := AsyncWriter.exists_ledger mp hwriter.reachable
  rw [AsyncWriter.started_eq_accepted hl h.queue, hwriter.accepted]
  exact hhanded

/-! ## What a client has to do -/

/-- The events that the client brings about by itself and without a failure. -/
def Event.isProgress : Event → Bool
  | .post _ | .runStrand | .connectDone => true
  | .writeDone _ ec => ec = .success
  | _ => false

/-- The handler may write. -/
def Task.mayWrite : Task Buf → Bool
  | .eraseCall _ => false
  | _ => true

namespace State

/-- What is to be started: the connection, and calls that are drawn. -/
def starting (s : State Buf) : ℕ := s.connecting + s.drawn.length

/-- What is to be written. -/
def writing (s : State Buf) : ℕ := (s.strand.filter Task.mayWrite).length

/-- What is to be sent. -/
def toSend (s : State Buf) : ℕ := s.writer.writeQueue.length

/-- What is to be run on the strand. -/
def toRun (s : State Buf) : ℕ := s.strand.length

end State

/-- The client works off what it has to do before its socket; an erase works
off itself, and leaves the rest alone. -/
theorem descends_of_effect {s s' : State Buf} {e : Event}
    (heffect : Effect mp s e s') (hprogress : e.isProgress = true)
    {l : FifoLedger Buf} (hl : AsyncWriter.Ledger s.writer l) :
    Descends [State.starting, State.writing, State.toSend] s s' ∨
      s'.starting = s.starting ∧ s'.writing = s.writing ∧
        s'.writer = s.writer ∧ s'.toRun < s.toRun := by
  have hpop : ∀ {task : Task Buf} {rest : List (Task Buf)},
      s.strand = task :: rest → task.mayWrite = true →
        (rest.filter Task.mayWrite).length < s.writing := by
    intro task rest hstrand hwrites
    rw [State.writing, hstrand, List.filter_cons_of_pos hwrites]
    exact Nat.lt_succ_self _
  cases heffect with
  | @post i c hdrawn =>
      refine Or.inl (.here ?_)
      obtain ⟨hi, -⟩ := List.getElem?_eq_some_iff.mp hdrawn
      show s.connecting + (s.drawn.eraseIdx i).length < _
      rw [List.length_eraseIdx_of_lt hi, State.starting]
      omega
  | connected hconnecting =>
      refine Or.inl (.here ?_)
      show s.connecting - 1 + s.drawn.length < s.connecting + s.drawn.length
      omega
  | @insertCall c rest hstrand =>
      have hentered := entered_insertCall mp { s with strand := rest } c
      obtain ⟨-, -, hconnecting, -⟩ :=
        insertCall_link mp { s with strand := rest } c
      refine Or.inl (.behind (Nat.le_of_eq ?_) (.here ?_))
      · rw [State.starting, hconnecting, hentered.drawn]
        rfl
      · rw [State.writing, hentered.strand]
        exact hpop hstrand rfl
  | writeNotification hstrand =>
      exact Or.inl (.behind (Nat.le_refl _) (.here (hpop hstrand rfl)))
  | flushPending hstrand =>
      exact Or.inl (.behind (Nat.le_refl _) (.here (hpop hstrand rfl)))
  | @eraseCall id rest hstrand =>
      refine Or.inr ⟨rfl, ?_, rfl, ?_⟩
      · rw [State.writing, State.writing, hstrand]
        rfl
      · rw [State.toRun, State.toRun, hstrand]
        exact Nat.lt_succ_self _
  | @written i ec houtstanding =>
      obtain rfl : ec = .success := by simpa [Event.isProgress] using hprogress
      refine Or.inl (.behind (Nat.le_refl _) (.behind (Nat.le_refl _) (.here ?_)))
      exact AsyncWriter.written_writeQueue_lt mp hl houtstanding
  | _ => cases hprogress

variable (mp) in
/-- A read makes work for the strand only. -/
theorem readDone_work (s : State Buf) {objs : List Object}
    (hreading : 0 < s.reading) :
    (s.readDone mp objs .success).starting = s.starting ∧
      (s.readDone mp objs .success).writing = s.writing ∧
      (s.readDone mp objs .success).writer = s.writer := by
  have hframe := ReadFrame.readDone mp s objs .success
  obtain ⟨ids, hstrand⟩ := hframe.strand
  obtain ⟨-, hconnecting, -⟩ := readDone_success_link mp objs hreading
  refine ⟨?_, ?_, hframe.writer⟩
  · rw [State.starting, hconnecting, hframe.drawn]
    rfl
  · rw [State.writing, hstrand, List.filter_append, List.filter_map]
    simp [State.writing, Function.comp_def, Task.mayWrite]

end Client
end RpcLib
