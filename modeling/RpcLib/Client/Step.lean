import RpcLib.Client.Impl
import RpcLib.Transport.QueueConservation

/-!
# What one step of the client does

`Effect` lists the effects of a step once, one constructor for each handler,
and `effect_of_step` says that there are no others; every invariant is a case
split on it.  `Entered` is what entering a call does to the call table, and
`ReadFrame` what a read leaves alone.
-/

namespace RpcLib
namespace Client

open Protocol Transport Foundation TransitionSystem

variable {Buf : Type} (mp : MsgPack Buf)

/-- The states that an event leads to, with what enables it. -/
inductive Effect (s : State Buf) : Event → State Buf → Prop
  | draw (funcName : String) (args : List Object) :
      Effect s (.draw funcName args) (s.drawCall funcName args)
  | post {i : Nat} {c : Call} (hdrawn : s.drawn[i]? = some c) :
      Effect s (.post i) (s.postCall mp i c)
  | notify (funcName : String) (args : List Object) :
      Effect s (.notify funcName args) (s.notify mp funcName args)
  | insertCall {c : Call} {rest : List (Task Buf)}
      (hstrand : s.strand = .insertCall c :: rest) :
      Effect s .runStrand ({ s with strand := rest }.insertCall mp c)
  | writeNotification {buffer : Buf} {rest : List (Task Buf)}
      (hstrand : s.strand = .writeNotification buffer :: rest) :
      Effect s .runStrand ({ s with strand := rest }.write mp buffer)
  | flushPending {rest : List (Task Buf)}
      (hstrand : s.strand = .flushPending :: rest) :
      Effect s .runStrand ({ s with strand := rest }.flushPending mp)
  | eraseCall {id : UInt32} {rest : List (Task Buf)}
      (hstrand : s.strand = .eraseCall id :: rest) :
      Effect s .runStrand ({ s with strand := rest }.eraseCall id)
  | connected (hconnecting : 0 < s.connecting) :
      Effect s .connectDone s.connected
  | retried (hconnecting : 0 < s.connecting) :
      Effect s (.connectFailed true) s
  | refused (hconnecting : 0 < s.connecting) :
      Effect s (.connectFailed false) s.refused
  | readDone (ec : ErrorCode) (objs : List Object)
      (hreading : 0 < s.reading) :
      Effect s (.readDone ec objs) (s.readDone mp objs ec)
  | written {i : Nat} (ec : ErrorCode)
      (houtstanding : i < s.writer.outstanding.length) :
      Effect s (.writeDone i ec) (s.writeDone mp i ec)

/-- A step is taken by a live process and has one of the effects. -/
theorem effect_of_step {s s' : State Buf} {e : Event}
    (hstep : step mp s e = some s') :
    s.escaped = none ∧ Effect mp s e s' := by
  unfold step at hstep
  split at hstep
  · cases hstep
  rename_i halive
  refine ⟨by simpa using halive, ?_⟩
  cases e with
  | draw funcName args =>
      obtain rfl := Option.some.inj hstep
      exact .draw funcName args
  | post i =>
      obtain ⟨c, hdrawn, rfl⟩ := Option.map_eq_some_iff.mp hstep
      exact .post hdrawn
  | notify funcName args =>
      obtain rfl := Option.some.inj hstep
      exact .notify funcName args
  | runStrand =>
      rcases hstrand : s.strand with _ | ⟨task, rest⟩
      · simp [liveStep, hstrand] at hstep
      · obtain rfl : { s with strand := rest }.runTask mp task = s' := by
          simpa [liveStep, hstrand] using hstep
        cases task with
        | insertCall c => exact .insertCall hstrand
        | writeNotification buffer => exact .writeNotification hstrand
        | flushPending => exact .flushPending hstrand
        | eraseCall id => exact .eraseCall hstrand
  | connectDone =>
      obtain ⟨hconnecting, rfl⟩ : 0 < s.connecting ∧ s.connected = s' := by
        simpa [liveStep] using hstep
      exact .connected hconnecting
  | connectFailed again =>
      cases again with
      | true =>
          obtain ⟨hconnecting, rfl⟩ : 0 < s.connecting ∧ s = s' := by
            simpa [liveStep] using hstep
          exact .retried hconnecting
      | false =>
          obtain ⟨hconnecting, rfl⟩ : 0 < s.connecting ∧ s.refused = s' := by
            simpa [liveStep] using hstep
          exact .refused hconnecting
  | readDone ec objs =>
      obtain ⟨hreading, rfl⟩ :
          0 < s.reading ∧ s.readDone mp objs ec = s' := by
        simpa [liveStep] using hstep
      exact .readDone ec objs hreading
  | writeDone i ec =>
      obtain ⟨houtstanding, rfl⟩ : i < s.writer.outstanding.length ∧
          s.writeDone mp i ec = s' := by
        simpa [liveStep] using hstep
      exact .written ec houtstanding

/-! ## What entering a call does -/

/-- The effect of the handler of a call apart from what it sends or parks. -/
structure Entered (s s' : State Buf) (c : Call) : Prop where
  callIdx : s'.callIdx = s.callIdx
  ongoingCalls : s'.ongoingCalls =
    Function.update s.ongoingCalls c.idx (some c.entry)
  shared : s'.shared = State.abandon s.shared (s.ongoingCalls c.idx)
  defaults : s'.defaults = s.defaults
  drawn : s'.drawn = s.drawn
  issued : s'.issued = s.issued
  ran : s'.ran = s.ran ++ [c]
  strand : s'.strand = s.strand
  posted : s'.posted = s.posted
  responses : s'.responses = s.responses
  escaped : s'.escaped = s.escaped

theorem entered_insertCall (s : State Buf) (c : Call) :
    Entered s (s.insertCall mp c) c := by
  unfold State.insertCall
  dsimp only
  split <;>
    exact ⟨rfl, rfl, rfl, rfl, rfl, rfl, rfl, rfl, rfl, rfl, rfl⟩

/-! ## What a read leaves alone -/

/-- Reading touches the call table, the promises and the connection state, and
posts erases; it does not touch calls or what is sent. -/
structure ReadFrame (s s' : State Buf) : Prop where
  callIdx : s'.callIdx = s.callIdx
  isConnected : s'.isConnected = s.isConnected
  pendingCalls : s'.pendingCalls = s.pendingCalls
  writer : s'.writer = s.writer
  drawn : s'.drawn = s.drawn
  issued : s'.issued = s.issued
  ran : s'.ran = s.ran
  posted : s'.posted = s.posted
  handedOver : s'.handedOver = s.handedOver
  flushed : s'.flushed = s.flushed
  strand : ∃ ids : List UInt32, s'.strand = s.strand ++ ids.map .eraseCall

namespace ReadFrame

theorem refl (s : State Buf) : ReadFrame s s :=
  ⟨rfl, rfl, rfl, rfl, rfl, rfl, rfl, rfl, rfl, rfl, [], by simp⟩

theorem trans {s s' s'' : State Buf} (h : ReadFrame s s')
    (h' : ReadFrame s' s'') : ReadFrame s s'' := by
  obtain ⟨ids, hstrand⟩ := h.strand
  obtain ⟨ids', hstrand'⟩ := h'.strand
  have hboth : s''.strand = s.strand ++ (ids ++ ids').map .eraseCall := by
    rw [hstrand', hstrand, List.map_append, List.append_assoc]
  exact {
    callIdx := h'.callIdx.trans h.callIdx
    isConnected := h'.isConnected.trans h.isConnected
    pendingCalls := h'.pendingCalls.trans h.pendingCalls
    writer := h'.writer.trans h.writer
    drawn := h'.drawn.trans h.drawn
    issued := h'.issued.trans h.issued
    ran := h'.ran.trans h.ran
    posted := h'.posted.trans h.posted
    handedOver := h'.handedOver.trans h.handedOver
    flushed := h'.flushed.trans h.flushed
    strand := ⟨_, hboth⟩ }

theorem currentCall (s : State Buf) (key : Int32) :
    ReadFrame s (s.currentCall key).1 := by
  unfold State.currentCall
  split
  · exact refl s
  · exact { refl s with }

theorem handleResponse (s : State Buf) (obj : Object) :
    ReadFrame s (s.handleResponse mp obj) := by
  unfold State.handleResponse
  split
  · exact { refl s with }
  · rename_i response _
    have hentry := currentCall s response.id.toInt32
    rcases hcurrent : s.currentCall response.id.toInt32 with ⟨t, entry⟩
    rw [hcurrent] at hentry
    apply hentry.trans
    dsimp only
    split
    · exact { refl t with strand := ⟨[response.id], by simp⟩ }
    · exact { refl t with }

theorem handleResponses (s : State Buf) (objs : List Object) :
    ReadFrame s (s.handleResponses mp objs) := by
  induction objs generalizing s with
  | nil => exact refl s
  | cons obj objs ih =>
      unfold State.handleResponses
      dsimp only
      split
      · exact handleResponse mp s obj
      · exact (handleResponse mp s obj).trans (ih _)

end ReadFrame

/-- The loop of the read handler does not look at the number of reads. -/
theorem handleResponse_reading (s : State Buf) (n : Nat) (obj : Object) :
    { s with reading := n }.handleResponse mp obj =
      { s.handleResponse mp obj with reading := n } := by
  unfold State.handleResponse
  cases Response.ofHandle mp obj with
  | none => rfl
  | some response =>
      dsimp only
      unfold State.currentCall
      cases s.ongoingCalls response.id.toInt32 with
      | none =>
          dsimp only
          cases State.satisfy s.shared ⟨"", .default s.defaults⟩ response <;>
            rfl
      | some entry =>
          dsimp only
          cases State.satisfy s.shared entry response <;> rfl

theorem handleResponses_reading (s : State Buf) (n : Nat)
    (objs : List Object) :
    { s with reading := n }.handleResponses mp objs =
      { s.handleResponses mp objs with reading := n } := by
  induction objs generalizing s with
  | nil => rfl
  | cons obj objs ih =>
      unfold State.handleResponses
      rw [handleResponse_reading]
      dsimp only
      split
      · rfl
      · exact ih _

/-- A successful read is the loop over the objects of the chunk, up to the
number of reads in progress. -/
theorem readDone_success (s : State Buf) (objs : List Object) :
    ∃ reading, s.readDone mp objs .success =
      { s.handleResponses mp objs with reading := reading } := by
  unfold State.readDone
  rw [handleResponses_reading]
  dsimp only
  split
  · exact ⟨_, rfl⟩
  · exact ⟨_, rfl⟩

/-- A read that fails ends the reading and may end the connection. -/
theorem readDone_error (s : State Buf) (objs : List Object) {ec : ErrorCode}
    (herror : ec ≠ .success) :
    ∃ reading state, s.readDone mp objs ec =
      { s with reading := reading, state := state } := by
  cases ec with
  | success => exact absurd rfl herror
  | brokenPipe => exact ⟨_, s.state, rfl⟩
  | eof => exact ⟨_, _, rfl⟩
  | connectionReset => exact ⟨_, _, rfl⟩
  | other value => exact ⟨_, s.state, rfl⟩

theorem ReadFrame.readDone (s : State Buf) (objs : List Object)
    (ec : ErrorCode) : ReadFrame s (s.readDone mp objs ec) := by
  by_cases hsuccess : ec = .success
  · subst hsuccess
    obtain ⟨reading, hdone⟩ := readDone_success mp s objs
    rw [hdone]
    exact { ReadFrame.handleResponses mp s objs with }
  · obtain ⟨reading, state, hdone⟩ := readDone_error mp s objs hsuccess
    rw [hdone]
    exact { ReadFrame.refl s with }

end Client
end RpcLib
