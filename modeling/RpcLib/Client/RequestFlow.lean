import RpcLib.Client.Step

/-!
# The way of a request from the strand to the writer

A call that runs before the connection stands is parked in `pending_calls`;
two handlers write that list out and none clears it.  What makes this safe is
that a written buffer has been moved from and holds no message.

* `requests_conserved`: every call whose handler has run is parked or handed
  over, once, in order.
* `always_inOrder_iff`: calls and notifications keep their order exactly when
  no notification runs while a call is parked.
-/

namespace RpcLib
namespace Client

open Protocol Transport Foundation TransitionSystem

variable {Buf : Type} (mp : MsgPack Buf)

/-- A buffer that holds an array of four elements: a request. -/
def isRequest (buffer : Buf) : Bool :=
  match mp.unpack buffer with
  | some o => mp.arraySize o == 4
  | none => false

/-- A buffer that holds a message; one that has been moved from does not. -/
def isMessage (buffer : Buf) : Bool := (mp.unpack buffer).isSome

@[simp] theorem isRequest_buffer (c : Call) :
    isRequest mp (c.buffer mp) = true := by
  simp [isRequest, Call.buffer, Call.message]

@[simp] theorem isRequest_notification (funcName : String)
    (args : List Object) :
    isRequest mp (notificationBuffer mp funcName args) = false := by
  simp [isRequest, notificationBuffer]

@[simp] theorem isRequest_movedFrom : isRequest mp mp.movedFrom = false := by
  simp [isRequest]

@[simp] theorem isMessage_buffer (c : Call) :
    isMessage mp (c.buffer mp) = true := by
  simp [isMessage, Call.buffer]

@[simp] theorem isMessage_notification (funcName : String)
    (args : List Object) :
    isMessage mp (notificationBuffer mp funcName args) = true := by
  simp [isMessage, notificationBuffer]

@[simp] theorem isMessage_movedFrom : isMessage mp mp.movedFrom = false := by
  simp [isMessage]

/-! ## The writer of a client -/

/-- The client's writer is in a state that `AsyncWriter` reaches by itself, it
is open, and it has accepted all that was handed to it. -/
structure OpenWriter (s : State Buf) : Prop where
  reachable : Reachable (AsyncWriter.step mp) unguarded .initial s.writer
  open_ : s.writer.exit = false
  accepted : s.writer.accepted = s.handedOver

theorem OpenWriter.initial : OpenWriter mp (State.initial : State Buf) :=
  ⟨.start, rfl, rfl⟩

theorem OpenWriter.write {s : State Buf} (h : OpenWriter mp s) (item : Buf) :
    OpenWriter mp (s.write mp item) := by
  obtain ⟨hopen, haccepted, -⟩ :=
    AsyncWriter.write_of_open mp h.open_ item
  refine ⟨?_, hopen, ?_⟩
  · exact h.reachable.next (e := .write item) trivial rfl
  · exact haccepted.trans (by rw [h.accepted]; rfl)

/-- Writing a list to an open writer hands over every buffer and leaves
moved-from ones. -/
theorem writeEach_of_open {w : AsyncWriter Buf}
    (hreach : Reachable (AsyncWriter.step mp) unguarded .initial w)
    (hopen : w.exit = false) (items : List Buf) :
    Reachable (AsyncWriter.step mp) unguarded .initial
        (State.writeEach mp w items).1 ∧
      (State.writeEach mp w items).1.exit = false ∧
      (State.writeEach mp w items).1.accepted = w.accepted ++ items ∧
      (State.writeEach mp w items).2 =
        List.replicate items.length mp.movedFrom := by
  induction items generalizing w with
  | nil => exact ⟨hreach, hopen, by simp [State.writeEach], rfl⟩
  | cons item items ih =>
      obtain ⟨hopen', haccepted, hleft⟩ :=
        AsyncWriter.write_of_open mp hopen item
      have hreach' : Reachable (AsyncWriter.step mp) unguarded .initial
          (w.write mp item).1 :=
        hreach.next (e := .write item) trivial rfl
      obtain ⟨hreach'', hopen'', haccepted', hlefts⟩ := ih hreach' hopen'
      refine ⟨hreach'', hopen'', ?_, ?_⟩
      · calc
          (State.writeEach mp (w.write mp item).1 items).1.accepted
              = (w.write mp item).1.accepted ++ items := haccepted'
          _ = w.accepted ++ item :: items := by rw [haccepted]; simp
      · show (w.write mp item).2 ::
            (State.writeEach mp (w.write mp item).1 items).2 = _
        rw [hleft, hlefts]
        rfl

theorem OpenWriter.writePending {s : State Buf} (h : OpenWriter mp s) :
    OpenWriter mp (s.writePending mp) := by
  obtain ⟨hreach, hopen, haccepted, -⟩ :=
    writeEach_of_open mp h.reachable h.open_ s.pendingCalls
  exact ⟨hreach, hopen, haccepted.trans (by rw [h.accepted]; rfl)⟩

/-- After the loop over `pending_calls` no buffer in it holds a message. -/
theorem writePending_pendingCalls {s : State Buf} (h : OpenWriter mp s) :
    (s.writePending mp).pendingCalls =
      List.replicate s.pendingCalls.length mp.movedFrom :=
  (writeEach_of_open mp h.reachable h.open_ s.pendingCalls).2.2.2

theorem OpenWriter.written {s : State Buf} (h : OpenWriter mp s) {i : Nat}
    (ec : ErrorCode) (houtstanding : i < s.writer.outstanding.length) :
    OpenWriter mp (s.writeDone mp i ec) := by
  have hframe := AsyncWriter.onWritten_frame mp (s.writer.taken i) ec
  refine ⟨?_, hframe.1.trans h.open_, hframe.2.trans h.accepted⟩
  apply h.reachable.next (e := .written i ec) trivial
  simp [AsyncWriter.step, State.writeDone, houtstanding]

/-- What was handed to `async_write` was handed to the writer before. -/
theorem OpenWriter.started_subset {s : State Buf} (h : OpenWriter mp s) :
    s.writer.started ⊆ s.handedOver := by
  obtain ⟨l, hl⟩ := AsyncWriter.exists_ledger mp h.reachable
  have hprefix : s.writer.started <+: s.writer.accepted := by
    rw [hl.started, hl.accepted]
    exact l.started_prefix_accepted
  rw [← h.accepted]
  exact hprefix.subset

/-! ## No call is lost or duplicated -/

/-- Where the requests of the calls are whose handlers have run. -/
structure RequestsTracked (s : State Buf) : Prop where
  writer : OpenWriter mp s
  requests : s.handedOver.filter (isRequest mp) ++
    s.pendingCalls.filter (isRequest mp) = s.ran.map (Call.buffer mp)
  parked : ∀ b ∈ s.pendingCalls, b = mp.movedFrom ∨ ∃ c : Call, b = c.buffer mp
  notifications : ∀ b, .writeNotification b ∈ s.strand →
    ∃ funcName args, b = notificationBuffer mp funcName args
  unconnected : s.isConnected = false →
    s.handedOver.filter (isRequest mp) = [] ∧ .flushPending ∉ s.strand ∧
      s.flushed = false
  flushed : s.flushed = true → s.pendingCalls.filter (isRequest mp) = []

namespace RequestsTracked

theorem initial : RequestsTracked mp (State.initial : State Buf) where
  writer := .initial mp
  requests := rfl
  parked := by simp [State.initial]
  notifications := by simp [State.initial]
  unconnected := fun _ => ⟨rfl, by simp [State.initial], rfl⟩
  flushed := fun _ => rfl

variable {mp}

/-- The first handler leaves the strand, and the others stay. -/
theorem pop {s : State Buf} (h : RequestsTracked mp s) {task : Task Buf}
    {rest : List (Task Buf)} (hstrand : s.strand = task :: rest) :
    RequestsTracked mp { s with strand := rest } := by
  have hsubset : rest ⊆ s.strand := by simp [hstrand]
  refine { h with
    writer := { h.writer with }
    notifications := ?_
    unconnected := ?_ }
  · exact fun b hb => h.notifications b (hsubset hb)
  · intro hconnected
    obtain ⟨hnone, hflush, hnot⟩ := h.unconnected hconnected
    exact ⟨hnone, fun hmem => hflush (hsubset hmem), hnot⟩

/-- The loop over `pending_calls` moves every parked call to the writer. -/
theorem writePending {s : State Buf} (h : RequestsTracked mp s)
    (hconnected : s.isConnected = true) :
    RequestsTracked mp (s.writePending mp) ∧
      (s.writePending mp).pendingCalls.filter (isRequest mp) = [] := by
  have hleft := writePending_pendingCalls mp h.writer
  have hnone : (s.writePending mp).pendingCalls.filter (isRequest mp) = [] := by
    rw [hleft]
    simp
  refine ⟨?_, hnone⟩
  refine { h with
    writer := h.writer.writePending mp
    requests := ?_
    parked := ?_
    unconnected := ?_
    flushed := fun _ => hnone }
  · rw [hnone]
    show (s.handedOver ++ s.pendingCalls).filter (isRequest mp) ++ [] =
      s.ran.map (Call.buffer mp)
    rw [← h.requests]
    simp
  · intro b hb
    rw [hleft] at hb
    exact Or.inl (List.eq_of_mem_replicate hb)
  · intro hnot
    cases hconnected.symm.trans hnot

/-- The handler of a call parks the call or hands it over. -/
theorem insertCall {s : State Buf} (h : RequestsTracked mp s) (c : Call) :
    RequestsTracked mp (s.insertCall mp c) := by
  unfold State.insertCall
  dsimp only
  split
  · -- connected: the parked calls are handed over first, then this one
    rename_i hconnected
    obtain ⟨hwritten, hnone⟩ := h.writePending hconnected
    refine { hwritten with
      writer := { hwritten.writer.write mp (c.buffer mp) with }
      requests := ?_
      unconnected := ?_ }
    · have hrequests := hwritten.requests
      rw [hnone, List.append_nil] at hrequests
      show (((s.writePending mp).handedOver ++ [c.buffer mp]).filter
        (isRequest mp)) ++ ((s.writePending mp).pendingCalls.filter
          (isRequest mp)) = (s.ran ++ [c]).map (Call.buffer mp)
      rw [hnone, List.filter_append, hrequests]
      simp [State.writePending]
    · intro hnot
      cases Eq.trans (Eq.symm hconnected) hnot
  · -- not connected: the call is parked whole
    rename_i hconnected
    refine { h with
      writer := ⟨h.writer.reachable, h.writer.open_, h.writer.accepted⟩
      requests := ?_
      parked := ?_
      flushed := ?_ }
    · show s.handedOver.filter (isRequest mp) ++
        (s.pendingCalls ++ [c.buffer mp]).filter (isRequest mp) =
          (s.ran ++ [c]).map (Call.buffer mp)
      rw [List.filter_append, ← List.append_assoc, h.requests]
      simp
    · intro b hb
      rcases List.mem_append.mp hb with hold | hnew
      · exact h.parked b hold
      · exact Or.inr ⟨c, List.mem_singleton.mp hnew⟩
    · intro hflushed
      have hnot : s.flushed = false :=
        (h.unconnected (Bool.eq_false_iff.mpr hconnected)).2.2
      cases hnot.symm.trans hflushed

theorem writeNotification {s : State Buf} (h : RequestsTracked mp s)
    {buffer : Buf} (hbuffer : isRequest mp buffer = false) :
    RequestsTracked mp (s.write mp buffer) := by
  have hsame : (s.handedOver ++ [buffer]).filter (isRequest mp) =
      s.handedOver.filter (isRequest mp) := by
    simp [hbuffer]
  refine { h with
    writer := h.writer.write mp buffer
    requests := ?_
    unconnected := ?_ }
  · show (s.handedOver ++ [buffer]).filter (isRequest mp) ++ _ = _
    rw [hsame]
    exact h.requests
  · intro hconnected
    obtain ⟨hnone, hrest⟩ := h.unconnected hconnected
    exact ⟨hsame.trans hnone, hrest⟩

/-- Reading sends nothing and posts no flush. -/
theorem read {s s' : State Buf} (h : RequestsTracked mp s)
    (hframe : ReadFrame s s') : RequestsTracked mp s' := by
  obtain ⟨ids, hstrand⟩ := hframe.strand
  have hold : ∀ task, (∀ id, task ≠ .eraseCall id) → task ∈ s'.strand →
      task ∈ s.strand := by
    intro task hne hmem
    rw [hstrand] at hmem
    rcases List.mem_append.mp hmem with hold | hnew
    · exact hold
    · obtain ⟨id, -, rfl⟩ := List.mem_map.mp hnew
      exact absurd rfl (hne id)
  refine ⟨⟨?_, ?_, ?_⟩, ?_, ?_, ?_, ?_, ?_⟩
  · rw [hframe.writer]
    exact h.writer.reachable
  · rw [hframe.writer]
    exact h.writer.open_
  · rw [hframe.writer, hframe.handedOver]
    exact h.writer.accepted
  · rw [hframe.handedOver, hframe.pendingCalls, hframe.ran]
    exact h.requests
  · rw [hframe.pendingCalls]
    exact h.parked
  · intro b hb
    exact h.notifications b (hold _ (by simp) hb)
  · intro hnot
    rw [hframe.isConnected] at hnot
    obtain ⟨hnone, hflush, hnot⟩ := h.unconnected hnot
    rw [hframe.handedOver, hframe.flushed]
    exact ⟨hnone, fun hmem => hflush (hold _ (by simp) hmem), hnot⟩
  · rw [hframe.flushed, hframe.pendingCalls]
    exact h.flushed

theorem step {s s' : State Buf} {e : Event} (h : RequestsTracked mp s)
    (heffect : Effect mp s e s') : RequestsTracked mp s' := by
  cases heffect with
  | draw funcName args => exact { h with writer := { h.writer with } }
  | post hdrawn =>
      refine { h with
        writer := { h.writer with }
        notifications := ?_
        unconnected := ?_ }
      · intro b hb
        exact h.notifications b (by simpa [State.postCall] using hb)
      · intro hnot
        simpa [State.postCall] using h.unconnected hnot
  | notify funcName args =>
      refine { h with
        writer := { h.writer with }
        notifications := ?_
        unconnected := ?_ }
      · intro b hb
        rcases List.mem_append.mp hb with hold | hnew
        · exact h.notifications b hold
        · exact ⟨funcName, args, by simpa using hnew⟩
      · intro hnot
        simpa [State.notify] using h.unconnected hnot
  | insertCall hstrand => exact (h.pop hstrand).insertCall _
  | @writeNotification buffer rest hstrand =>
      obtain ⟨funcName, args, rfl⟩ :=
        h.notifications buffer (by simp [hstrand])
      exact (h.pop hstrand).writeNotification (by simp)
  | @flushPending rest hstrand =>
      -- only the connect handler posts a flush
      have hconnected : s.isConnected = true := by
        by_contra hnot
        have hnone := h.unconnected (Bool.eq_false_iff.mpr hnot)
        exact hnone.2.1 (by simp [hstrand])
      obtain ⟨hwritten, hnone⟩ := (h.pop hstrand).writePending hconnected
      refine { hwritten with
        writer := { hwritten.writer with }
        unconnected := ?_
        flushed := fun _ => hnone }
      intro hnot
      cases hconnected.symm.trans hnot
  | eraseCall hstrand =>
      exact { h.pop hstrand with writer := { (h.pop hstrand).writer with } }
  | connected hconnecting =>
      refine { h with
        writer := { h.writer with }
        notifications := ?_
        unconnected := ?_ }
      · intro b hb
        exact h.notifications b (by simpa [State.connected] using hb)
      · intro hnot
        cases hnot
  | retried hconnecting => exact h
  | refused hconnecting => exact { h with writer := { h.writer with } }
  | readDone ec objs hreading =>
      exact h.read (ReadFrame.readDone mp s objs ec)
  | written ec houtstanding =>
      exact { h with writer := h.writer.written mp ec houtstanding }

end RequestsTracked

theorem requestsTracked_of_reachable {guard : State Buf → Event → Prop}
    {s : State Buf} (hreach : Reachable (step mp) guard State.initial s) :
    RequestsTracked mp s :=
  hreach.invariant (.initial mp) fun _ _ _ h _ hstep =>
    h.step (effect_of_step mp hstep).2

/-- In every reachable state the calls whose handlers have run are split at
one point: the requests before it have been handed to the writer, once each
and in order, and the requests after it are parked, whole.  Nothing is handed
over before the connection stands, and after the flush nothing is parked. -/
theorem requests_conserved {s : State Buf}
    (hreach : Reachable (step mp) unguarded State.initial s) :
    (∃ k ≤ s.ran.length,
      s.handedOver.filter (isRequest mp) =
        (s.ran.take k).map (Call.buffer mp) ∧
      s.pendingCalls.filter (isRequest mp) =
        (s.ran.drop k).map (Call.buffer mp)) ∧
    (s.isConnected = false → s.handedOver.filter (isRequest mp) = []) ∧
    (s.flushed = true →
      s.handedOver.filter (isRequest mp) = s.ran.map (Call.buffer mp)) := by
  have htracked := requestsTracked_of_reachable mp hreach
  refine ⟨?_, fun hnot => (htracked.unconnected hnot).1, ?_⟩
  · obtain ⟨handed, parked, hran, hhanded, hparked⟩ :=
      List.map_eq_append_iff.mp htracked.requests.symm
    refine ⟨handed.length, ?_, ?_, ?_⟩
    · simp [hran]
    · simp [hran, hhanded]
    · simp [hran, hparked]
  · intro hflushed
    have hnone := htracked.flushed hflushed
    rw [← htracked.requests, hnone, List.append_nil]

/-- A call is parked, an attempt to connect fails, the next one succeeds, and
a second call runs between the connect handler and the flush it posted. -/
def reconnectingRun : List Event :=
  [.draw "f" [], .post 0, .runStrand, .connectFailed true, .draw "g" [],
    .post 0, .connectDone, .runStrand, .runStrand]

theorem requests_conserved_reconnecting :
    ∃ s : State (Option Object),
      run (step .reference) State.initial reconnectingRun = some s ∧
      s.flushed = true ∧ s.ran.map Call.funcName = ["f", "g"] ∧
      s.handedOver.filter (isRequest .reference) =
        s.ran.map (Call.buffer .reference) := by
  obtain ⟨s, hrun⟩ : ∃ s : State (Option Object),
      run (step .reference) State.initial reconnectingRun = some s :=
    ⟨_, rfl⟩
  have hflushed : (run (step .reference)
      (State.initial : State (Option Object)) reconnectingRun).map
        (fun s => (s.flushed, s.ran.map Call.funcName)) =
      some (true, ["f", "g"]) := rfl
  rw [hrun] at hflushed
  obtain ⟨hflushed, hran⟩ := Prod.mk.inj (Option.some.inj hflushed)
  have hconserved := requests_conserved .reference
    (reachable_of_run (eachStep_unguarded _ _ _) hrun)
  exact ⟨s, hrun, hflushed, hran, hconserved.2.2 hflushed⟩

/-! ## The order of calls and notifications -/

/-- The buffer that a handler of the strand has been posted for. -/
def Task.operation : Task Buf → Option Buf
  | .insertCall c => some (c.buffer mp)
  | .writeNotification buffer => some buffer
  | .flushPending => none
  | .eraseCall _ => none

/-- The messages of the client: those handed to the writer, those parked in
`pending_calls` and those the strand will run. -/
def State.messages (s : State Buf) : List Buf :=
  s.handedOver.filter (isMessage mp) ++
    (s.pendingCalls.filter (isMessage mp) ++
      s.strand.filterMap (Task.operation mp))

/-- The messages handed to the writer are the first of the operations posted
to the strand, in that order: none was overtaken. -/
def InOrder (s : State Buf) : Prop :=
  s.handedOver.filter (isMessage mp) <+: s.posted

/-- A notification whose handler runs finds no message parked in
`pending_calls`. -/
def NoneParked (s : State Buf) (e : Event) : Prop :=
  ∀ buffer rest, e = .runStrand →
    s.strand = .writeNotification buffer :: rest →
    s.pendingCalls.filter (isMessage mp) = []

/-- What is handed over, what is parked and what the strand will run is what
was posted, in order. -/
structure Ordered (s : State Buf) : Prop where
  tracked : RequestsTracked mp s
  order : s.handedOver.filter (isMessage mp) ++
    (s.pendingCalls.filter (isMessage mp) ++
      s.strand.filterMap (Task.operation mp)) = s.posted

namespace Ordered

theorem initial : Ordered mp (State.initial : State Buf) := ⟨.initial mp, rfl⟩

variable {mp}

theorem inOrder {s : State Buf} (h : Ordered mp s) : InOrder mp s :=
  ⟨_, h.order⟩

/-- The loop over `pending_calls` keeps the order. -/
theorem writePending_order {s : State Buf} (h : OpenWriter mp s) :
    (s.writePending mp).handedOver.filter (isMessage mp) =
        s.handedOver.filter (isMessage mp) ++
          s.pendingCalls.filter (isMessage mp) ∧
      (s.writePending mp).pendingCalls.filter (isMessage mp) = [] := by
  constructor
  · exact List.filter_append ..
  · rw [writePending_pendingCalls mp h]
    simp

theorem insertCall_order {s : State Buf} (h : OpenWriter mp s) (c : Call) :
    (s.insertCall mp c).handedOver.filter (isMessage mp) ++
        (s.insertCall mp c).pendingCalls.filter (isMessage mp) =
      s.handedOver.filter (isMessage mp) ++
        (s.pendingCalls.filter (isMessage mp) ++ [c.buffer mp]) := by
  obtain ⟨hhanded, hnone⟩ := writePending_order h
  unfold State.insertCall
  dsimp only
  split
  · show ((s.writePending mp).handedOver ++ [c.buffer mp]).filter
        (isMessage mp) ++
      (s.writePending mp).pendingCalls.filter (isMessage mp) = _
    rw [hnone, List.filter_append, hhanded]
    simp
  · show s.handedOver.filter (isMessage mp) ++
      (s.pendingCalls ++ [c.buffer mp]).filter (isMessage mp) = _
    rw [List.filter_append]
    simp

/-- A step adds a message where its operation is posted, and otherwise leaves
all of them in their order, unless a notification runs: it overtakes what is
parked. -/
theorem messages_of_effect {s s' : State Buf} {e : Event}
    (h : RequestsTracked mp s) (heffect : Effect mp s e s') :
    (∃ posted, s'.posted = s.posted ++ posted ∧
      s'.messages mp = s.messages mp ++ posted) ∨
    ∃ buffer rest, e = .runStrand ∧
      s.strand = .writeNotification buffer :: rest ∧ s'.posted = s.posted ∧
      s'.messages mp = s.handedOver.filter (isMessage mp) ++
        buffer :: (s.pendingCalls.filter (isMessage mp) ++
          rest.filterMap (Task.operation mp)) := by
  cases heffect with
  | @post i c hdrawn =>
      refine Or.inl ⟨[c.buffer mp], rfl, ?_⟩
      simp [State.messages, State.postCall, Task.operation]
  | notify funcName args =>
      refine Or.inl ⟨[notificationBuffer mp funcName args], rfl, ?_⟩
      simp [State.messages, State.notify, Task.operation]
  | @insertCall c rest hstrand =>
      have hpopped := h.pop hstrand
      have hentered := entered_insertCall mp { s with strand := rest } c
      refine Or.inl ⟨[], by rw [hentered.posted, List.append_nil], ?_⟩
      unfold State.messages
      rw [hentered.strand, ← List.append_assoc,
        insertCall_order hpopped.writer, hstrand]
      simp [Task.operation]
  | @writeNotification buffer rest hstrand =>
      refine Or.inr ⟨buffer, rest, rfl, hstrand, rfl, ?_⟩
      obtain ⟨funcName, args, rfl⟩ :=
        h.notifications buffer (by simp [hstrand])
      simp [State.messages, State.write]
  | @flushPending rest hstrand =>
      have hpopped := h.pop hstrand
      obtain ⟨hhanded, hleft⟩ := writePending_order hpopped.writer
      refine Or.inl ⟨[], (List.append_nil _).symm, ?_⟩
      -- what was parked is now at the end of what was handed over
      show (State.writePending mp { s with strand := rest }).handedOver.filter
          (isMessage mp) ++
        ((State.writePending mp { s with strand := rest }).pendingCalls.filter
          (isMessage mp) ++ rest.filterMap (Task.operation mp)) = _
      rw [hhanded, hleft, State.messages, hstrand]
      simp [List.filterMap_cons, Task.operation]
  | eraseCall hstrand =>
      refine Or.inl ⟨[], (List.append_nil _).symm, ?_⟩
      unfold State.messages
      rw [hstrand]
      exact (List.append_nil _).symm
  | connected hconnecting =>
      refine Or.inl ⟨[], (List.append_nil _).symm, ?_⟩
      simp [State.messages, State.connected, List.filterMap_cons,
        Task.operation]
  | readDone ec objs hreading =>
      have hframe := ReadFrame.readDone mp s objs ec
      obtain ⟨ids, hstrand⟩ := hframe.strand
      have herases : (ids.map Task.eraseCall).filterMap
          (Task.operation mp) = [] := by
        simp [Task.operation]
      refine Or.inl ⟨[], by rw [hframe.posted, List.append_nil], ?_⟩
      unfold State.messages
      rw [hframe.handedOver, hframe.pendingCalls, hstrand,
        List.filterMap_append, herases, List.append_nil, List.append_nil]
  | _ => exact Or.inl ⟨[], (List.append_nil _).symm, (List.append_nil _).symm⟩

theorem step {s s' : State Buf} {e : Event} (h : Ordered mp s)
    (hnone : NoneParked mp s e) (heffect : Effect mp s e s') :
    Ordered mp s' := by
  refine ⟨h.tracked.step heffect, ?_⟩
  have horder : s.messages mp = s.posted := h.order
  show s'.messages mp = s'.posted
  rcases messages_of_effect h.tracked heffect with
    ⟨posted, hposted, hmessages⟩ |
    ⟨buffer, rest, rfl, hstrand, hposted, hmessages⟩
  · rw [hmessages, hposted, horder]
  · -- nothing is parked, so the notification is next in the order
    have hparked := hnone buffer rest rfl hstrand
    rw [hmessages, hposted, ← horder, State.messages, hstrand, hparked]
    rfl

/-- A notification that runs while a call is parked overtakes it. -/
theorem not_inOrder {s s' : State Buf} {e : Event} (h : Ordered mp s)
    (hparked : ¬ NoneParked mp s e) (heffect : Effect mp s e s') :
    ¬ InOrder mp s' := by
  unfold NoneParked at hparked
  push Not at hparked
  obtain ⟨buffer, rest, rfl, hstrand, hsome⟩ := hparked
  obtain ⟨first, later, hfirst⟩ := List.exists_cons_of_ne_nil hsome
  obtain ⟨funcName, args, rfl⟩ :=
    h.tracked.notifications buffer (by simp [hstrand])
  -- the first parked message is the request of a call
  have hmem : first ∈ s.pendingCalls.filter (isMessage mp) := by
    simp [hfirst]
  obtain ⟨hparked, hmessage⟩ := List.mem_filter.mp hmem
  have hrequest : isRequest mp first = true := by
    rcases h.tracked.parked first hparked with rfl | ⟨c, rfl⟩
    · simp at hmessage
    · simp
  have hhanded : s'.handedOver.filter (isMessage mp) =
      s.handedOver.filter (isMessage mp) ++
        [notificationBuffer mp funcName args] ∧ s'.posted = s.posted := by
    cases heffect with
    | writeNotification hstrand' =>
        obtain ⟨hsame, -⟩ := List.cons.inj (hstrand.symm.trans hstrand')
        cases hsame
        simp [State.write]
    | insertCall hstrand' => cases hstrand.symm.trans hstrand'
    | flushPending hstrand' => cases hstrand.symm.trans hstrand'
    | eraseCall hstrand' => cases hstrand.symm.trans hstrand'
  intro hprefix
  unfold InOrder at hprefix
  rw [hhanded.1, hhanded.2, ← h.order, hfirst, List.cons_append,
    List.prefix_append_right_inj, List.cons_prefix_cons] at hprefix
  rw [← hprefix.1] at hrequest
  simp at hrequest

end Ordered

/-- In a run of the client the messages are handed over in the order in which
their operations were posted, throughout, exactly when every notification
handler of the run finds no call parked. -/
theorem always_inOrder_iff (es : List Event) :
    Always (step mp) (InOrder mp) State.initial es ↔
      EachStep (step mp) (NoneParked mp) State.initial es :=
  always_iff_eachStep (fun _ h => h.inOrder)
    (fun _ _ _ h _ hnone hstep => h.step hnone (effect_of_step mp hstep).2)
    (fun _ _ _ h _ hparked hstep =>
      h.not_inOrder hparked (effect_of_step mp hstep).2)
    (Ordered.initial mp) (eachStep_unguarded _ _ es)

/-- One thread calls `f` and then notifies `g`; the connection is established
afterwards, and `g` is handed over before `f`. -/
theorem notification_overtakes_call :
    ¬ Always (step .reference) (InOrder .reference) State.initial
      [.draw "f" [], .post 0, .notify "g" [], .runStrand, .runStrand,
        .connectDone, .runStrand] ∧
    (run (step .reference) State.initial
      [.draw "f" [], .post 0, .notify "g" [], .runStrand, .runStrand,
        .connectDone, .runStrand]).map
        (fun s => (s.posted, s.handedOver)) =
      some ([some (.array [.ofInt8 0, .ofInt32 1, .str "f", .array []]),
          some (.array [.ofInt8 2, .str "g", .array []])],
        [some (.array [.ofInt8 2, .str "g", .array []]),
          some (.array [.ofInt8 0, .ofInt32 1, .str "f", .array []])]) := by
  constructor
  · intro halways
    have hlast : InOrder .reference _ :=
      ((((((halways.2 _ rfl).2 _ rfl).2 _ rfl).2 _ rfl).2 _ rfl).2 _ rfl).2
        _ rfl
    obtain ⟨rest, hrest⟩ := hlast
    cases hrest
  · rfl

end Client
end RpcLib
