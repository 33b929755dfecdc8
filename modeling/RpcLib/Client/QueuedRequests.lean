import RpcLib.Client.RequestFlow
import RpcLib.Client.Robustness

/-!
# What the client puts into the write queue

The handler of a broken pipe unpacks the front of the write queue, so every
element of the queue has to hold a request.  The buffers come from two places:
a handler's own message, and the loop over `pending_calls`, which the flush
runs and which every call on an established connection runs again.  The loop
moves the buffers out and leaves their remains in the list.

* `sent_of_effect`: what a step hands over is what the loop takes followed by
  the handler's own message, and that is what it queues.
* `PendingHistory`: the list holds whole calls until the loop has run, and
  nothing but moved-from buffers afterwards.
* `queuedRequests_iff`: the queue holds requests only, and nothing is taken
  after the flush, exactly when the loop that finds something is the first one.
* `always_unpackable`: in such a run no write handler throws.
-/

namespace RpcLib
namespace Client

open Protocol Transport Foundation TransitionSystem

variable {Buf : Type} (mp : MsgPack Buf)

/-- A buffer that holds exactly one request: a call or a notification. -/
def PackedRequest (buffer : Buf) : Prop :=
  (∃ c : Call, buffer = c.buffer mp) ∨
    ∃ funcName args, buffer = notificationBuffer mp funcName args

/-- A packed request is an array of three or four elements. -/
theorem PackedRequest.unpack {mp : MsgPack Buf} {buffer : Buf}
    (h : PackedRequest mp buffer) :
    ∃ elements, mp.unpack buffer = some (.array elements) ∧
      (elements.length = 3 ∨ elements.length = 4) := by
  rcases h with ⟨c, rfl⟩ | ⟨funcName, args, rfl⟩
  · exact ⟨_, mp.unpack_pack _, Or.inr rfl⟩
  · exact ⟨_, mp.unpack_pack _, Or.inl rfl⟩

/-- What is left of a buffer that has been moved from is not a request. -/
theorem not_packedRequest_movedFrom : ¬ PackedRequest mp mp.movedFrom := by
  intro h
  obtain ⟨elements, hunpack, -⟩ := h.unpack
  simp at hunpack

/-- Every element of the write queue holds one request. -/
def QueueOfRequests (s : State Buf) : Prop :=
  ∀ buffer ∈ s.writer.writeQueue, PackedRequest mp buffer

/-- The buffers that the loop over `pending_calls` takes in a step.  The flush
runs the loop, and so does a call on an established connection. -/
def State.taken (s : State Buf) (e : Event) : List Buf :=
  match e, s.strand with
  | .runStrand, .flushPending :: _ => s.pendingCalls
  | .runStrand, .insertCall _ :: _ =>
      if s.isConnected then s.pendingCalls else []
  | _, _ => []

/-- After the flush the loop takes nothing. -/
def NothingTakenAfterFlush (s : State Buf) (e : Event) : Prop :=
  s.flushed = true → s.taken e = []

/-! ## What one step sends -/

/-- What a step hands over and queues: the buffers of the loop, followed by
the handler's own message. -/
structure Sent (s : State Buf) (e : Event) (s' : State Buf)
    (own : List Buf) : Prop where
  requests : ∀ buffer ∈ own, PackedRequest mp buffer
  handedOver : s'.handedOver = s.handedOver ++ (s.taken e ++ own)
  queue : ∃ kept, kept <:+ s.writer.writeQueue ∧
    s'.writer.writeQueue = kept ++ (s.taken e ++ own)

/-- A step without a loop that sends nothing. -/
theorem Sent.of_quiet {s s' : State Buf} {e : Event} (htaken : s.taken e = [])
    (hhanded : s'.handedOver = s.handedOver)
    (hwriter : s'.writer.writeQueue <:+ s.writer.writeQueue) :
    Sent mp s e s' [] := by
  refine ⟨by simp, ?_, s'.writer.writeQueue, hwriter, ?_⟩
  · rw [htaken, hhanded]
    simp
  · rw [htaken]
    simp

/-- Writing a list to an open writer queues every buffer of it. -/
theorem writeEach_writeQueue {w : AsyncWriter Buf} (hopen : w.exit = false)
    (items : List Buf) :
    (State.writeEach mp w items).1.writeQueue = w.writeQueue ++ items := by
  induction items generalizing w with
  | nil => simp [State.writeEach]
  | cons item items ih =>
      have hopen' : (w.write mp item).1.exit = false :=
        (AsyncWriter.write_of_open mp hopen item).1
      calc
        (State.writeEach mp (w.write mp item).1 items).1.writeQueue
            = (w.write mp item).1.writeQueue ++ items := ih hopen'
        _ = w.writeQueue ++ [item] ++ items := by
          rw [AsyncWriter.write_writeQueue mp hopen]
        _ = w.writeQueue ++ item :: items := by simp

theorem sent_of_effect {s s' : State Buf} {e : Event}
    (h : RequestsTracked mp s) (heffect : Effect mp s e s') :
    ∃ own, Sent mp s e s' own := by
  have hopen : s.writer.exit = false := h.writer.open_
  cases heffect with
  | @insertCall c rest hstrand =>
      unfold State.insertCall
      dsimp only
      split
      · rename_i hconnected
        have htaken : s.taken .runStrand = s.pendingCalls := by
          have hconnected' : s.isConnected = true := hconnected
          simp [State.taken, hstrand, hconnected']
        refine ⟨[c.buffer mp], ?_, ?_, s.writer.writeQueue, List.suffix_rfl, ?_⟩
        · intro b hb
          exact Or.inl ⟨c, by simpa using hb⟩
        · rw [htaken]
          exact List.append_assoc ..
        · -- the writer is still open after the loop
          have hopen' :=
            (writeEach_of_open mp h.writer.reachable hopen s.pendingCalls).2.1
          rw [htaken, ← List.append_assoc, ← writeEach_writeQueue mp hopen]
          exact AsyncWriter.write_writeQueue mp hopen' _
      · rename_i hconnected
        have hconnected' : s.isConnected = false :=
          Bool.eq_false_iff.mpr hconnected
        refine ⟨[], .of_quiet mp ?_ rfl List.suffix_rfl⟩
        simp [State.taken, hstrand, hconnected']
  | @writeNotification buffer rest hstrand =>
      have htaken : s.taken .runStrand = [] := by simp [State.taken, hstrand]
      refine ⟨[buffer], ?_, ?_, s.writer.writeQueue, List.suffix_rfl, ?_⟩
      · intro b hb
        obtain rfl : b = buffer := by simpa using hb
        exact Or.inr (h.notifications b (by simp [hstrand]))
      · rw [htaken]
        rfl
      · rw [htaken]
        exact AsyncWriter.write_writeQueue mp hopen buffer
  | @flushPending rest hstrand =>
      have htaken : s.taken .runStrand = s.pendingCalls := by
        simp [State.taken, hstrand]
      refine ⟨[], by simp, ?_, s.writer.writeQueue, List.suffix_rfl, ?_⟩
      · rw [htaken, List.append_nil]
        rfl
      · rw [htaken, List.append_nil]
        exact writeEach_writeQueue mp hopen s.pendingCalls
  | eraseCall hstrand =>
      refine ⟨[], .of_quiet mp ?_ rfl List.suffix_rfl⟩
      simp [State.taken, hstrand]
  | readDone ec objs hreading =>
      have hframe := ReadFrame.readDone mp s objs ec
      exact ⟨[], .of_quiet mp rfl hframe.handedOver
        ⟨[], congrArg AsyncWriter.writeQueue hframe.writer⟩⟩
  | @written i ec houtstanding =>
      exact ⟨[], .of_quiet mp rfl rfl
        (AsyncWriter.onWritten_writeQueue mp (s.writer.taken i) ec)⟩
  | _ => exact ⟨[], .of_quiet mp rfl rfl List.suffix_rfl⟩

/-! ## What the loop leaves behind -/

/-- The loop over `pending_calls` has run: as the flush, or for a call on an
established connection, which is not parked. -/
def LoopHasRun (s : State Buf) : Prop :=
  s.flushed = true ∨ s.pendingCalls.length < s.ran.length

/-- A loop that takes something is the first loop of the run. -/
def FirstLoop (s : State Buf) (e : Event) : Prop :=
  s.taken e ≠ [] → ¬ LoopHasRun s

/-- How a step changes the list: not at all, by parking a call while the
connection does not stand, or by the loop. -/
inductive PendingStep (s s' : State Buf) : Prop
  | same (hpending : s'.pendingCalls = s.pendingCalls) (hran : s'.ran = s.ran)
      (hflushed : s'.flushed = s.flushed)
      (hconnected : s'.isConnected = s.isConnected ∨ s'.isConnected = true)
  | parked (c : Call) (hnot : s.isConnected = false)
      (hpending : s'.pendingCalls = s.pendingCalls ++ [c.buffer mp])
      (hran : s'.ran = s.ran ++ [c]) (hflushed : s'.flushed = s.flushed)
  | looped (hconnected : s'.isConnected = true)
      (hpending : s'.pendingCalls =
        List.replicate s.pendingCalls.length mp.movedFrom)
      (hran : s'.ran.length = s.ran.length ∧ s'.flushed = true ∨
        s'.ran.length = s.ran.length + 1)

theorem pendingStep_of_effect {s s' : State Buf} {e : Event}
    (h : RequestsTracked mp s) (heffect : Effect mp s e s') :
    PendingStep mp s s' := by
  cases heffect with
  | @insertCall c rest hstrand =>
      have hleft := writePending_pendingCalls mp (h.pop hstrand).writer
      unfold State.insertCall
      dsimp only
      split
      · -- the call itself is written and not parked
        rename_i hconnected
        refine .looped hconnected hleft (Or.inr ?_)
        exact List.length_append
      · rename_i hconnected
        exact .parked c (Bool.eq_false_iff.mpr hconnected) rfl rfl rfl
  | @flushPending rest hstrand =>
      have hleft := writePending_pendingCalls mp (h.pop hstrand).writer
      -- only the connect handler posts a flush
      have hconnected : s.isConnected = true := by
        by_contra hnot
        have hnone := h.unconnected (Bool.eq_false_iff.mpr hnot)
        exact hnone.2.1 (by simp [hstrand])
      exact .looped hconnected hleft (Or.inl ⟨rfl, rfl⟩)
  | connected hconnecting => exact .same rfl rfl rfl (Or.inr rfl)
  | readDone ec objs hreading =>
      have hframe := ReadFrame.readDone mp s objs ec
      exact .same hframe.pendingCalls hframe.ran hframe.flushed
        (Or.inl hframe.isConnected)
  | _ => exact .same rfl rfl rfl (Or.inl rfl)

/-- The contents of `pending_calls` over the life of a client. -/
structure PendingHistory (s : State Buf) : Prop where
  length_le : s.pendingCalls.length ≤ s.ran.length
  unconnected : s.isConnected = false → ¬ LoopHasRun s
  whole : ¬ LoopHasRun s →
    ∀ buffer ∈ s.pendingCalls, ∃ c : Call, buffer = c.buffer mp
  movedFrom : LoopHasRun s →
    ∀ buffer ∈ s.pendingCalls, buffer = mp.movedFrom

namespace PendingHistory

theorem initial : PendingHistory mp (State.initial : State Buf) where
  length_le := Nat.le_refl 0
  unconnected := fun _ => by simp [LoopHasRun, State.initial]
  whole := by simp [State.initial]
  movedFrom := by simp [State.initial]

variable {mp}

theorem step {s s' : State Buf} (h : PendingHistory mp s)
    (hpending : PendingStep mp s s') : PendingHistory mp s' := by
  cases hpending with
  | same hpending hran hflushed hconnected =>
      have hsame : LoopHasRun s' ↔ LoopHasRun s := by
        unfold LoopHasRun
        rw [hpending, hran, hflushed]
      refine ⟨by rw [hpending, hran]; exact h.length_le, ?_, ?_, ?_⟩
      · intro hnot
        rw [hsame]
        rcases hconnected with hkept | hnow
        · exact h.unconnected (hkept ▸ hnot)
        · cases hnot.symm.trans hnow
      · rw [hsame, hpending]
        exact h.whole
      · rw [hsame, hpending]
        exact h.movedFrom
  | parked c hnot hpending hran hflushed =>
      -- list and history of calls grow together, so no call is missing in it
      have hnone := h.unconnected hnot
      have hnone' : ¬ LoopHasRun s' := by
        unfold LoopHasRun at hnone ⊢
        rw [hpending, hran, hflushed, List.length_append, List.length_append]
        simpa using hnone
      refine ⟨?_, fun _ => hnone', ?_, fun hloop => absurd hloop hnone'⟩
      · rw [hpending, hran, List.length_append, List.length_append]
        exact Nat.add_le_add_right h.length_le 1
      · intro _ b hb
        rw [hpending] at hb
        rcases List.mem_append.mp hb with hold | hnew
        · exact h.whole hnone b hold
        · exact ⟨c, List.mem_singleton.mp hnew⟩
  | looped hconnected hpending hran =>
      have hlength := h.length_le
      have hloop : LoopHasRun s' := by
        unfold LoopHasRun
        rcases hran with ⟨-, hflushed⟩ | hran
        · exact Or.inl hflushed
        · right
          rw [hpending, List.length_replicate]
          omega
      refine ⟨?_, ?_, fun hnone => absurd hloop hnone, ?_⟩
      · rw [hpending, List.length_replicate]
        omega
      · intro hnot
        cases hnot.symm.trans hconnected
      · intro _ b hb
        rw [hpending] at hb
        exact List.eq_of_mem_replicate hb

end PendingHistory

/-! ## The queue of a run -/

/-- What every good step keeps. -/
structure QueueTracked (s : State Buf) : Prop where
  tracked : RequestsTracked mp s
  pending : PendingHistory mp s
  queue : QueueOfRequests mp s

namespace QueueTracked

theorem initial : QueueTracked mp (State.initial : State Buf) :=
  ⟨.initial mp, .initial mp, by simp [QueueOfRequests, State.initial,
    AsyncWriter.initial]⟩

variable {mp}

/-- What the loop takes are calls that were parked, or their remains. -/
theorem taken_subset (s : State Buf) (e : Event) :
    s.taken e ⊆ s.pendingCalls := by
  unfold State.taken
  split
  · exact List.Subset.refl _
  · split
    · exact List.Subset.refl _
    · exact List.nil_subset _
  · exact List.nil_subset _

/-- The first loop queues the parked calls whole. -/
theorem step {s s' : State Buf} {e : Event} (h : QueueTracked mp s)
    (hfirst : FirstLoop s e) (heffect : Effect mp s e s') :
    QueueTracked mp s' := by
  refine ⟨h.tracked.step heffect,
    h.pending.step (pendingStep_of_effect mp h.tracked heffect), ?_⟩
  obtain ⟨own, hsent⟩ := sent_of_effect mp h.tracked heffect
  obtain ⟨kept, hkept, hqueue⟩ := hsent.queue
  intro b hb
  rw [hqueue] at hb
  rcases List.mem_append.mp hb with hold | hnew
  · exact h.queue b (hkept.subset hold)
  rcases List.mem_append.mp hnew with htaken | hown
  · -- no loop has run, so what is taken was parked whole
    have hnone := hfirst (List.ne_nil_of_mem htaken)
    exact Or.inl (h.pending.whole hnone b (taken_subset s e htaken))
  · exact hsent.requests b hown

/-- A later loop that finds something queues an empty buffer. -/
theorem not_queueOfRequests {s s' : State Buf} {e : Event}
    (h : QueueTracked mp s) (hlater : ¬ FirstLoop s e)
    (heffect : Effect mp s e s') : ¬ QueueOfRequests mp s' := by
  unfold FirstLoop at hlater
  push Not at hlater
  obtain ⟨hsome, hloop⟩ := hlater
  obtain ⟨own, hsent⟩ := sent_of_effect mp h.tracked heffect
  obtain ⟨kept, -, hqueue⟩ := hsent.queue
  obtain ⟨b, rest, htaken⟩ := List.exists_cons_of_ne_nil hsome
  have hmem : b ∈ s.taken e := by simp [htaken]
  have hempty : b = mp.movedFrom :=
    h.pending.movedFrom hloop b (taken_subset s e hmem)
  intro hall
  apply not_packedRequest_movedFrom mp
  rw [← hempty]
  apply hall
  rw [hqueue]
  simp [hmem]

/-- After the flush a loop is not the first one, so it must find nothing. -/
theorem nothingTaken {s : State Buf} {e : Event} (hfirst : FirstLoop s e) :
    NothingTakenAfterFlush s e := by
  intro hflushed
  by_contra hsome
  exact hfirst hsome (Or.inl hflushed)

end QueueTracked

/-- The handler of a write finds a request at the front of such a queue, so
nothing escapes from it. -/
theorem writeDone_escaped {s : State Buf} (h : RequestsTracked mp s)
    (hqueue : QueueOfRequests mp s) {i : Nat}
    (houtstanding : i < s.writer.outstanding.length) (ec : ErrorCode) :
    (s.writeDone mp i ec).escaped = s.escaped := by
  obtain ⟨l, hl⟩ := AsyncWriter.exists_ledger mp h.writer.reachable
  obtain ⟨-, -, item, rest, hfront, -⟩ := hl.of_outstanding houtstanding
  have hitem : PackedRequest mp item := hqueue item (by simp [hfront])
  obtain ⟨elements, hunpack, -⟩ := hitem.unpack
  have hnothrow : ((s.writer.taken i).onWritten mp ec).2 = false := by
    cases ec with
    | brokenPipe =>
        have hhead : (s.writer.taken i).writeQueue.head?.bind mp.unpack =
            some (.array elements) := by
          simp [AsyncWriter.taken, hfront, hunpack]
        simp only [AsyncWriter.onWritten, hhead]
        split <;> rfl
    | _ => rfl
  unfold State.writeDone
  simp [hnothrow]

/-- In a run of the client the write queue holds requests only, throughout,
and nothing is taken from `pending_calls` after the flush, exactly when every
loop of the run that finds something in the list is the first one. -/
theorem queuedRequests_iff (es : List Event) :
    (Always (step mp) (QueueOfRequests mp) State.initial es ∧
      EachStep (step mp) NothingTakenAfterFlush State.initial es) ↔
      EachStep (step mp) FirstLoop State.initial es := by
  have hqueue : Always (step mp) (QueueOfRequests mp) State.initial es ↔
      EachStep (step mp) FirstLoop State.initial es :=
    always_iff_eachStep (J := QueueTracked mp) (fun _ h => h.queue)
      (fun _ _ _ h _ hfirst hstep => h.step hfirst (effect_of_step mp hstep).2)
      (fun _ _ _ h _ hlater hstep =>
        h.not_queueOfRequests hlater (effect_of_step mp hstep).2)
      (QueueTracked.initial mp) (eachStep_unguarded _ _ es)
  refine ⟨fun h => hqueue.mp h.1, fun hfirst => ⟨hqueue.mpr hfirst, ?_⟩⟩
  exact eachStep_mono (fun _ _ => QueueTracked.nothingTaken) hfirst

/-- In a run whose loops are such, no exception leaves the handler of a
write. -/
theorem always_unpackable {es : List Event}
    (hfirst : EachStep (step mp) FirstLoop State.initial es) :
    Always (step mp) (fun s => s.escaped ≠ some .write) State.initial es := by
  apply always_of_eachStep
    (J := fun s => QueueTracked mp s ∧ s.escaped ≠ some .write)
    (fun _ h => h.2) ?_ ⟨.initial mp, by simp [State.initial]⟩
    (eachStep_unguarded _ _ es) hfirst
  rintro s e s' ⟨h, -⟩ - hstepFirst hstep
  obtain ⟨hlive, heffect⟩ := effect_of_step mp hstep
  refine ⟨h.step hstepFirst heffect, ?_⟩
  cases heffect with
  | @insertCall c rest hstrand =>
      rw [(entered_insertCall mp { s with strand := rest } c).escaped]
      simp [hlive]
  | refused hconnecting => simp [State.refused]
  | readDone ec objs hreading =>
      by_cases hsuccess : ec = .success
      · subst hsuccess
        obtain ⟨reading, hdone⟩ := readDone_success mp s objs
        rw [hdone]
        rcases handleResponses_escaped mp s hlive objs with
          hnone | ⟨failure, hread⟩
        · simp [hnone]
        · simp [hread]
      · obtain ⟨reading, state, hdone⟩ := readDone_error mp s objs hsuccess
        rw [hdone]
        simp [hlive]
  | written ec houtstanding =>
      rw [writeDone_escaped mp h.tracked h.queue houtstanding]
      simp [hlive]
  | eraseCall hstrand => simp [State.eraseCall, hlive]
  | _ => exact hlive.trans_ne (Option.some_ne_none _).symm

/-- A call runs before the connection stands and another one after the flush.
The second call queues the remains of the first between the two requests, and
a broken pipe on that frame ends the process. -/
def flushedRun : List Event :=
  [.draw "f" [], .post 0, .runStrand, .connectDone, .runStrand, .draw "g" [],
    .post 0, .runStrand]

theorem later_call_queues_moved_from :
    ¬ (Always (step .reference) (QueueOfRequests .reference) State.initial
        flushedRun ∧
      EachStep (step .reference) NothingTakenAfterFlush
        (State.initial : State (Option Object)) flushedRun) ∧
    (run (step .reference) State.initial flushedRun).map
        (fun s => s.writer.writeQueue) =
      some [some (.array [.ofInt8 0, .ofInt32 1, .str "f", .array []]), none,
        some (.array [.ofInt8 0, .ofInt32 2, .str "g", .array []])] ∧
    (run (step .reference) (State.initial : State (Option Object))
      (flushedRun ++ [.writeDone 0 .success, .writeDone 0 .brokenPipe])).map
        State.escaped =
      some (some .write) := by
  have hqueue : (run (step .reference) State.initial flushedRun).map
      (fun s => s.writer.writeQueue) =
    some [some (.array [.ofInt8 0, .ofInt32 1, .str "f", .array []]), none,
      some (.array [.ofInt8 0, .ofInt32 2, .str "g", .array []])] := rfl
  refine ⟨?_, hqueue, rfl⟩
  rintro ⟨halways, -⟩
  obtain ⟨s, hrun, hends⟩ := Option.map_eq_some_iff.mp hqueue
  have hlast := halways.of_run hrun none (by rw [hends]; simp)
  exact not_packedRequest_movedFrom .reference hlast

end Client
end RpcLib
