import RpcLib.Transport.AsyncWriter
import RpcLib.MsgPack.Reference

/-!
# The writer conserves its queue

`Ledger` relates a writer to a `FifoLedger`: a queue that is served one element
at a time.  Every step of the writer is a run of ledger steps
(`ledger_step`), so every reachable writer has a ledger, and the ledger's
laws are laws of the writer: what was popped followed by the queue is what was
accepted, and what was handed to `async_write` is a prefix of it.

The relation leaves open whether a started front is still being written.  A
front whose write has failed stays started, is not outstanding and blocks the
queue.
-/

namespace RpcLib
namespace Transport
namespace AsyncWriter

open Foundation TransitionSystem

variable {Buf : Type} (mp : MsgPack Buf)

/-- The writer `w` implements the ledger `l`. -/
structure Ledger (w : AsyncWriter Buf) (l : FifoLedger Buf) : Prop where
  popped : w.popped.map Prod.fst = l.finished
  queue : w.writeQueue = l.queue
  accepted : w.accepted = l.accepted
  started : w.started = l.started
  outstanding : w.outstanding = [] ∨
    (l.headStarted = true ∧ w.outstanding = l.queue.take 1)

theorem Ledger.initial : Ledger (initial : AsyncWriter Buf) .empty :=
  ⟨rfl, rfl, rfl, rfl, Or.inl rfl⟩

/-- An outstanding write is the only one, and it writes the front. -/
theorem Ledger.of_outstanding {w : AsyncWriter Buf} {l : FifoLedger Buf}
    (hl : Ledger w l) {i : Nat} (hi : i < w.outstanding.length) :
    l.headStarted = true ∧ w.outstanding.eraseIdx i = [] ∧
      ∃ item rest, w.writeQueue = item :: rest ∧ w.outstanding = [item] := by
  rcases hl.outstanding with hnone | ⟨hstarted, htake⟩
  · simp [hnone] at hi
  · obtain ⟨item, rest, hqueue⟩ :=
      List.exists_cons_of_ne_nil (l.head_exists hstarted)
    have hsingle : w.outstanding = [item] := by simp [htake, hqueue]
    obtain rfl : i = 0 := by simpa [hsingle] using hi
    exact ⟨hstarted, by simp [hsingle], item, rest,
      by simp [hl.queue, hqueue], hsingle⟩

/-- `write` is one offer, followed by a start when the queue was empty. -/
theorem Ledger.write {w : AsyncWriter Buf} {l : FifoLedger Buf}
    (hl : Ledger w l) (data : Buf) :
    ∃ l', Reachable FifoLedger.step unguarded l l' ∧
      Ledger (w.write mp data).1 l' := by
  cases hexit : w.exit with
  | true => exact ⟨l, .start, by simpa [write_of_exit mp hexit] using hl⟩
  | false =>
      obtain ⟨l₁, hoffer, hfinished₁, hqueue₁, hstarted₁, haccepted₁, hlist₁⟩ :=
        l.step_offer data
      have hreach₁ : Reachable FifoLedger.step unguarded l l₁ :=
        .single trivial hoffer
      by_cases hempty : w.writeQueue = []
      · -- the offered element is the front and is started at once
        have hidle : l₁.headStarted = false := by
          rw [hstarted₁, Bool.eq_false_iff]
          intro hbusy
          exact l.head_exists hbusy (hl.queue ▸ hempty)
        have hqueue₁' : l₁.queue = data :: [] := by
          rw [hqueue₁, ← hl.queue, hempty]
          rfl
        obtain ⟨l₂, hstart, hfinished₂, hqueue₂, hbusy₂, haccepted₂, hlist₂⟩ :=
          l₁.step_start hidle hqueue₁'
        refine ⟨l₂, hreach₁.next trivial hstart, ?_⟩
        rw [write_of_empty mp hexit hempty]
        have hnone : w.outstanding = [] := by
          rcases hl.outstanding with hnone | ⟨-, htake⟩
          · exact hnone
          · simpa [← hl.queue, hempty] using htake
        constructor
        · simp [hl.popped, hfinished₂, hfinished₁]
        · simp [hqueue₂, hqueue₁']
        · simp [hl.accepted, haccepted₂, haccepted₁]
        · simp [hl.started, hlist₂, hlist₁]
        · right
          simp [hbusy₂, hnone, hqueue₂, hqueue₁']
      · -- the element waits behind the front
        refine ⟨l₁, hreach₁, ?_⟩
        rw [write_of_occupied mp hexit hempty]
        constructor
        · simp [hl.popped, hfinished₁]
        · simp [hl.queue, hqueue₁]
        · simp [hl.accepted, haccepted₁]
        · simp [hl.started, hlist₁]
        · rcases hl.outstanding with hnone | ⟨hbusy, htake⟩
          · exact Or.inl hnone
          · refine Or.inr ⟨hstarted₁.trans hbusy, ?_⟩
            obtain ⟨item, rest, hqueue⟩ :=
              List.exists_cons_of_ne_nil (hl.queue ▸ hempty)
            simp [htake, hqueue₁, hqueue]

/-- A settled completion is one finish, followed by the start of the next
frame when there is one and the writer is open. -/
theorem Ledger.settled {w : AsyncWriter Buf} {l : FifoLedger Buf}
    (hl : Ledger w l) (ec : ErrorCode) (hbusy : l.headStarted = true)
    (hnone : w.outstanding = []) :
    ∃ l', Reachable FifoLedger.step unguarded l l' ∧
      Ledger (w.popFront ec).continueWriting l' := by
  obtain ⟨item, rest, hqueue⟩ :=
    List.exists_cons_of_ne_nil (l.head_exists hbusy)
  have hwriter : w.writeQueue = item :: rest := hl.queue.trans hqueue
  obtain ⟨l₁, hfinish, hfinished₁, hqueue₁, hidle₁, haccepted₁, hlist₁⟩ :=
    l.step_finish hbusy hqueue
  have hreach₁ : Reachable FifoLedger.step unguarded l l₁ :=
    .single trivial hfinish
  by_cases hrest : w.exit = true ∨ rest = []
  · refine ⟨l₁, hreach₁, ?_⟩
    rw [continueWriting_popFront_of_rest ec hwriter hrest]
    constructor
    · simp [hl.popped, hfinished₁]
    · simp [hqueue₁]
    · simp [hl.accepted, haccepted₁]
    · simp [hl.started, hlist₁]
    · exact Or.inl hnone
  · rw [not_or] at hrest
    obtain ⟨hopen, hmore⟩ := hrest
    obtain ⟨next, rest', rfl⟩ := List.exists_cons_of_ne_nil hmore
    obtain ⟨l₂, hstart, hfinished₂, hqueue₂, hbusy₂, haccepted₂, hlist₂⟩ :=
      l₁.step_start hidle₁ hqueue₁
    refine ⟨l₂, hreach₁.next trivial hstart, ?_⟩
    rw [continueWriting_popFront_of_next ec (by simpa using hopen) hwriter]
    constructor
    · simp [hl.popped, hfinished₂, hfinished₁]
    · simp [hqueue₂, hqueue₁]
    · simp [hl.accepted, haccepted₂, haccepted₁]
    · simp [hl.started, hlist₂, hlist₁]
    · right
      simp [hbusy₂, hnone, hqueue₂, hqueue₁]

/-- Taking an outstanding operation out leaves the ledger as it is. -/
theorem Ledger.taken {w : AsyncWriter Buf} {l : FifoLedger Buf}
    (hl : Ledger w l) {i : Nat} (hi : i < w.outstanding.length) :
    Ledger (w.taken i) l :=
  { hl with outstanding := Or.inl (hl.of_outstanding hi).2.1 }

/-- Every step of the writer is a run of ledger steps. -/
theorem ledger_step {w w' : AsyncWriter Buf} {e : Event Buf}
    {l : FifoLedger Buf} (hl : Ledger w l) (hstep : step mp w e = some w') :
    ∃ l', Reachable FifoLedger.step unguarded l l' ∧ Ledger w' l' := by
  cases effect_of_step mp hstep with
  | write data => exact hl.write mp data
  | settled hi hsettles =>
      obtain ⟨hbusy, hnone, -⟩ := hl.of_outstanding hi
      exact (hl.taken hi).settled _ hbusy hnone
  | kept hi hnot =>
      -- the front stays started although nothing writes it any more
      exact ⟨l, .start, hl.taken hi⟩
  | close => exact ⟨l, .start, { hl with }⟩
  | closeSocket hclosing => exact ⟨l, .start, { hl with }⟩

/-- Every reachable writer implements a ledger, whatever its environment
does. -/
theorem exists_ledger {guard : AsyncWriter Buf → Event Buf → Prop}
    {w : AsyncWriter Buf} (hreach : Reachable (step mp) guard initial w) :
    ∃ l, Ledger w l := by
  obtain ⟨l, -, hl⟩ := hreach.simulate Ledger.initial
    fun _ _ _ _ hl _ hstep => ledger_step mp hl hstep
  exact ⟨l, hl⟩

/-! ## Conservation -/

/-- The buffer is the packed form of a msgpack array. -/
def HoldsArray (b : Buf) : Prop := ∃ elements, mp.unpack b = some (.array elements)

/-- The callers of `write` pass buffers that hold arrays. -/
def WritesArrays (_ : AsyncWriter Buf) (e : Event Buf) : Prop :=
  ∀ data, e = .write data → HoldsArray mp data

/-- Once `exit_` is set it stays set, nothing more is handed to `async_write`
and no message is accepted. -/
theorem step_of_exit {w w' : AsyncWriter Buf} {e : Event Buf}
    (hexit : w.exit = true) (hstep : step mp w e = some w') :
    w'.exit = true ∧ w'.started = w.started ∧ w'.accepted = w.accepted := by
  cases effect_of_step mp hstep with
  | write data =>
      rw [write_of_exit mp hexit]
      exact ⟨hexit, rfl, rfl⟩
  | @settled i ec hi hsettles =>
      obtain ⟨hpopped, haccepted, hstarted⟩ := popFront_frame (w.taken i) ec
      have hexit' : ((w.taken i).popFront ec).exit = true :=
        hpopped.trans hexit
      rw [continueWriting_of_exit hexit']
      exact ⟨hexit', hstarted, haccepted⟩
  | kept hi hnot => exact ⟨hexit, rfl, rfl⟩
  | close => exact ⟨rfl, rfl, rfl⟩
  | closeSocket hclosing => exact ⟨hexit, rfl, rfl⟩

/-- Accepted messages are arrays, and a message that was popped unsent is a
notification whose write failed with `broken_pipe`. -/
structure PopsNotifications (w : AsyncWriter Buf) : Prop where
  arrays : ∀ b ∈ w.accepted, HoldsArray mp b
  unsent : ∀ b ec, (b, ec) ∈ w.popped → ec ≠ .success →
    ec = .brokenPipe ∧
      ∃ elements, mp.unpack b = some (.array elements) ∧ elements.length = 3

theorem PopsNotifications.initial :
    PopsNotifications mp (initial : AsyncWriter Buf) :=
  ⟨by simp [AsyncWriter.initial], by simp [AsyncWriter.initial]⟩

theorem PopsNotifications.write {w : AsyncWriter Buf}
    (h : PopsNotifications mp w) {data : Buf} (hdata : HoldsArray mp data) :
    PopsNotifications mp (w.write mp data).1 := by
  have hqueued : ∀ b ∈ w.accepted ++ [data], HoldsArray mp b := by
    intro b hb
    rcases List.mem_append.mp hb with hold | hnew
    · exact h.arrays b hold
    · rw [List.mem_singleton.mp hnew]
      exact hdata
  cases hexit : w.exit with
  | true => simpa [write_of_exit mp hexit] using h
  | false =>
      by_cases hempty : w.writeQueue = []
      · rw [write_of_empty mp hexit hempty]
        exact ⟨hqueued, h.unsent⟩
      · rw [write_of_occupied mp hexit hempty]
        exact ⟨hqueued, h.unsent⟩

/-- The pop of a settled completion: the front frame is an accepted message,
so a `broken_pipe` pops it only as an array of three elements. -/
theorem PopsNotifications.settled {w : AsyncWriter Buf} {l : FifoLedger Buf}
    (h : PopsNotifications mp w) (hl : Ledger w l) {ec : ErrorCode}
    (hsettles : Settles mp w ec) :
    PopsNotifications mp (w.popFront ec).continueWriting := by
  refine ⟨by simpa using h.arrays, ?_⟩
  intro b ec' hmem hfailed
  rw [(continueWriting_frame _).2.2.2] at hmem
  cases hqueue : w.writeQueue with
  | nil =>
      simp only [popFront, hqueue] at hmem
      exact h.unsent b ec' hmem hfailed
  | cons item rest =>
      simp only [popFront, hqueue, List.mem_append, List.mem_singleton,
        Prod.mk.injEq] at hmem
      rcases hmem with hold | ⟨rfl, rfl⟩
      · exact h.unsent b ec' hold hfailed
      · have haccepted : b ∈ w.accepted := by
          rw [hl.accepted, FifoLedger.accepted, ← hl.queue, hqueue]
          simp
        obtain ⟨elements, helements⟩ := h.arrays b haccepted
        cases ec' with
        | success => exact absurd rfl hfailed
        | brokenPipe =>
            obtain ⟨item', o, hhead, hunpack, hsize⟩ := hsettles
            obtain rfl : b = item' := by simpa [hqueue] using hhead
            obtain rfl : Object.array elements = o := by
              simpa [helements] using hunpack
            exact ⟨rfl, elements, helements, by simpa using hsize⟩
        | eof => exact hsettles.elim
        | connectionReset => exact hsettles.elim
        | other value => exact hsettles.elim

theorem PopsNotifications.step {w w' : AsyncWriter Buf} {e : Event Buf}
    {l : FifoLedger Buf} (h : PopsNotifications mp w) (hl : Ledger w l)
    (hguard : WritesArrays mp w e) (hstep : step mp w e = some w') :
    PopsNotifications mp w' := by
  cases effect_of_step mp hstep with
  | write data => exact h.write mp (hguard data rfl)
  | @settled i ec hi hsettles =>
      have htaken : PopsNotifications mp (w.taken i) := { h with }
      exact htaken.settled mp (hl.taken hi) hsettles
  | kept hi hnot => exact { h with }
  | close => exact { h with }
  | closeSocket hclosing => exact { h with }

theorem popsNotifications_of_reachable {w : AsyncWriter Buf}
    (hreach : Reachable (step mp) (WritesArrays mp) initial w) :
    PopsNotifications mp w := by
  have hinv := hreach.invariant
    (I := fun w => (∃ l, Ledger w l) ∧ PopsNotifications mp w)
    ⟨⟨.empty, .initial⟩, .initial mp⟩
    fun s e s' hI hguard hstep => by
      obtain ⟨⟨l, hl⟩, hpops⟩ := hI
      obtain ⟨l', -, hl'⟩ := ledger_step mp hl hstep
      exact ⟨⟨l', hl'⟩, hpops.step mp hl hguard hstep⟩
  exact hinv.2

/-- In every reachable writer whose callers pass arrays: at most one
`async_write` is outstanding and it sends the front of the queue; the popped
messages followed by the queue are the accepted messages, in order; what was
handed to `async_write` is a prefix of them; a message popped unsent is a
three-element notification that failed with `broken_pipe`; and after `exit_`
no step starts a write or accepts a message. -/
theorem queue_conserved {w : AsyncWriter Buf}
    (hreach : Reachable (step mp) (WritesArrays mp) initial w) :
    (w.outstanding.length ≤ 1 ∧
      ∀ item ∈ w.outstanding, w.writeQueue.head? = some item) ∧
    w.popped.map Prod.fst ++ w.writeQueue = w.accepted ∧
    w.started <+: w.accepted ∧
    (∀ b ec, (b, ec) ∈ w.popped → ec ≠ .success →
      ec = .brokenPipe ∧
        ∃ elements, mp.unpack b = some (.array elements) ∧
          elements.length = 3) ∧
    (w.exit = true → ∀ e w', step mp w e = some w' →
      w'.exit = true ∧ w'.started = w.started ∧
        w'.accepted = w.accepted) := by
  obtain ⟨l, hl⟩ := exists_ledger mp hreach
  refine ⟨⟨?_, ?_⟩, ?_, ?_, ?_, ?_⟩
  · rcases hl.outstanding with hnone | ⟨-, htake⟩
    · simp [hnone]
    · rw [htake]
      exact List.length_take_le 1 l.queue
  · intro item hitem
    obtain ⟨i, hi, -⟩ := List.mem_iff_getElem.mp hitem
    obtain ⟨-, -, front, rest, hqueue, hsingle⟩ := hl.of_outstanding hi
    rw [hsingle, List.mem_singleton] at hitem
    simp [hqueue, hitem]
  · rw [hl.popped, hl.queue, hl.accepted]
    rfl
  · rw [hl.started, hl.accepted]
    exact l.started_prefix_accepted
  · exact (popsNotifications_of_reachable mp hreach).unsent
  · intro hexit e w' hstep
    exact step_of_exit mp hexit hstep

/-- A notification dropped after `broken_pipe`, with a call queued behind it. -/
theorem queue_conserved_dropped_notification :
    ∃ w : AsyncWriter (Option Object),
      w.popped = [(some (.array [.ofInt8 2, .str "log", .array []]),
        .brokenPipe)] ∧
      w.writeQueue = [some (.array [.ofInt8 0, .ofInt32 1, .str "get",
        .array []])] ∧
      w.popped.map Prod.fst ++ w.writeQueue = w.accepted ∧
      w.started <+: w.accepted := by
  have hreach : Reachable (step .reference) (WritesArrays .reference) initial
      _ :=
    ((Reachable.start
      |>.next (e := .write (some (.array [.ofInt8 2, .str "log", .array []])))
        (by rintro _ ⟨⟩; exact ⟨_, rfl⟩) rfl)
      |>.next (e := .write (some (.array [.ofInt8 0, .ofInt32 1, .str "get",
          .array []])))
        (by rintro _ ⟨⟩; exact ⟨_, rfl⟩) rfl)
      |>.next (e := .written 0 .brokenPipe) (by rintro _ ⟨⟩) rfl
  obtain ⟨-, hconserved, hprefix, -⟩ := queue_conserved .reference hreach
  exact ⟨_, rfl, rfl, hconserved, hprefix⟩

end AsyncWriter
end Transport
end RpcLib
