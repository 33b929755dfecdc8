import RpcLib.Client.Correlation
import RpcLib.Client.Destruction
import RpcLib.Client.QueuedRequests
import RpcLib.Protocol.Request
import RpcLib.Transport.WriterMoves

/-!
# What a client puts on its connection

A server sees of a client the buffers that the client hands to the socket.

* `Sending`: each of them is a message that the client has posted, or what is
  left of one that was moved from.
* `Grown`: how the lists of a client grow in a step.
* `Sending.messages_subperm`: no message is handed over more often than it was
  posted.
* `requestIds_nodup`: no two requests on the connection ask for the same id,
  as long as fewer than `2 ^ 32` calls are made.
-/

namespace RpcLib
namespace Client

open Protocol Transport Foundation TransitionSystem

variable {Buf : Type} (mp : MsgPack Buf)

/-! ## How a client grows -/

/-- What was made, posted and handed to the socket stays so. -/
structure Grown (s s' : State Buf) : Prop where
  issued : s.issued <+: s'.issued
  /-- One call at most is made. -/
  single : s'.issued.length ≤ s.issued.length + 1
  posted : s.posted <+: s'.posted
  started : s.writer.started <+: s'.writer.started

theorem Grown.refl (s : State Buf) : Grown s s :=
  ⟨List.prefix_rfl, Nat.le_succ _, List.prefix_rfl, List.prefix_rfl⟩

/-- With what a write of the client ends in the event. -/
def Event.ends : Event → ErrorCode → Prop
  | .writeDone _ ec, ec' => ec' = ec
  | _, _ => False

theorem writeEach_moves (ends : ErrorCode → Prop) (w : AsyncWriter Buf)
    (items : List Buf) :
    AsyncWriter.Moves mp ends w (State.writeEach mp w items).1 := by
  induction items generalizing w with
  | nil => exact .refl
  | cons item items ih =>
      have hfirst : AsyncWriter.Moves mp ends w (w.write mp item).1 :=
        .single (.write item)
      exact hfirst.trans (ih _)

/-- A handler of the client writes, or ends a write. -/
theorem moves_of_effect {s s' : State Buf} {e : Event}
    (heffect : Effect mp s e s') :
    AsyncWriter.Moves mp e.ends s.writer s'.writer := by
  cases heffect with
  | @insertCall c rest hstrand =>
      unfold State.insertCall
      dsimp only
      split
      · have hloop := writeEach_moves mp (Event.ends .runStrand) s.writer
          s.pendingCalls
        exact hloop.trans (.single (.write (c.buffer mp)))
      · exact .refl
  | @writeNotification buffer rest hstrand => exact .single (.write buffer)
  | flushPending hstrand => exact writeEach_moves mp _ s.writer s.pendingCalls
  | readDone ec objs hreading =>
      have hframe := ReadFrame.readDone mp s objs ec
      exact hframe.writer ▸ .refl
  | written ec houtstanding => exact .single (.written rfl houtstanding)
  | _ => exact .refl

theorem grown_of_effect {s s' : State Buf} {e : Event}
    (heffect : Effect mp s e s') : Grown s s' := by
  have hsame := Grown.refl s
  have hstarted := (moves_of_effect mp heffect).started
  cases heffect with
  | draw funcName args =>
      exact { hsame with
        issued := List.prefix_append _ _
        single := Nat.le_of_eq List.length_append }
  | post hdrawn => exact { hsame with posted := List.prefix_append _ _ }
  | notify funcName args =>
      exact { hsame with posted := List.prefix_append _ _ }
  | @insertCall c rest hstrand =>
      have hentered := entered_insertCall mp { s with strand := rest } c
      exact ⟨hentered.issued.symm ▸ List.prefix_rfl,
        hentered.issued.symm ▸ Nat.le_succ _,
        hentered.posted.symm ▸ List.prefix_rfl, hstarted⟩
  | readDone ec objs hreading =>
      have hframe := ReadFrame.readDone mp s objs ec
      exact ⟨hframe.issued.symm ▸ List.prefix_rfl,
        hframe.issued.symm ▸ Nat.le_succ _,
        hframe.posted.symm ▸ List.prefix_rfl, hstarted⟩
  | _ => exact { hsame with started := hstarted }

/-! ## The messages of a client -/

/-- Every buffer of the client holds a message that it has posted, or nothing
any more. -/
structure Sending (s : State Buf) : Prop where
  conserved : Conserved mp s
  packed : ∀ buffer ∈ s.handedOver,
    buffer = mp.movedFrom ∨ PackedRequest mp buffer

namespace Sending

theorem initial : Sending mp (State.initial : State Buf) :=
  ⟨.initial mp, by simp [State.initial]⟩

variable {mp}

theorem step {s s' : State Buf} {e : Event} (h : Sending mp s)
    (heffect : Effect mp s e s') : Sending mp s' := by
  refine ⟨h.conserved.step heffect, fun buffer hbuffer => ?_⟩
  obtain ⟨own, hsent⟩ := sent_of_effect mp h.conserved.tracked heffect
  rw [hsent.handedOver] at hbuffer
  rcases List.mem_append.mp hbuffer with hold | hnew
  · exact h.packed buffer hold
  rcases List.mem_append.mp hnew with htaken | hown
  · -- the loop over `pending_calls` finds calls and their remains
    have hparked := QueueTracked.taken_subset s e htaken
    exact (h.conserved.tracked.parked buffer hparked).imp id Or.inl
  · exact Or.inr (hsent.requests buffer hown)

theorem started_subset {s : State Buf} (h : Sending mp s) :
    s.writer.started ⊆ s.handedOver :=
  h.conserved.tracked.writer.started_subset

/-- The messages on the connection are among those posted, no one more often. -/
theorem messages_subperm {s : State Buf} (h : Sending mp s) :
    (s.writer.started.filter (isMessage mp)).Subperm s.posted := by
  obtain ⟨l, hl⟩ :=
    AsyncWriter.exists_ledger mp h.conserved.tracked.writer.reachable
  have hstarted := AsyncWriter.started_isPrefix hl
  rw [h.conserved.tracked.writer.accepted] at hstarted
  have hsublist := hstarted.sublist.filter (isMessage mp)
  refine hsublist.subperm.trans ?_
  exact (List.sublist_append_left _ _).subperm.trans h.conserved.placed.subperm

/-- What the socket was given holds one posted message, or nothing. -/
theorem of_started {s : State Buf} (h : Sending mp s) {buffer : Buf}
    (hbuffer : buffer ∈ s.writer.started) :
    buffer = mp.movedFrom ∨
      (buffer ∈ s.posted ∧ ∃ msg, buffer = mp.pack msg) := by
  rcases h.packed buffer (h.started_subset hbuffer) with hmoved | hpacked
  · exact Or.inl hmoved
  · obtain ⟨msg, rfl⟩ : ∃ msg, buffer = mp.pack msg := by
      rcases hpacked with ⟨c, rfl⟩ | ⟨funcName, args, rfl⟩
      · exact ⟨_, rfl⟩
      · exact ⟨_, rfl⟩
    have hmessage : mp.pack msg ∈ s.writer.started.filter (isMessage mp) :=
      List.mem_filter.mpr ⟨hbuffer, by simp [isMessage]⟩
    exact Or.inr ⟨h.messages_subperm.subset hmessage, msg, rfl⟩

end Sending

/-! ## The requests of a client -/

@[simp] theorem bufferId_buffer (c : Call) :
    Request.bufferId mp (c.buffer mp) = some c.idx.toUInt32 := by
  simp [Request.bufferId, Request.replyId, Call.buffer, Call.message]

@[simp] theorem bufferId_notification (funcName : String)
    (args : List Object) :
    Request.bufferId mp (notificationBuffer mp funcName args) = none := by
  simp [Request.bufferId, Request.replyId, notificationBuffer]

/-- Only a request is answered. -/
theorem isRequest_of_bufferId {buffer : Buf} {id : UInt32}
    (hid : Request.bufferId mp buffer = some id) :
    isRequest mp buffer = true := by
  obtain ⟨msg, hunpack, hreply⟩ := Option.bind_eq_some_iff.mp hid
  by_cases hsize : mp.arraySize msg = 4
  · simp [isRequest, hunpack, hsize]
  · rw [Request.replyId_of_size_ne mp hsize] at hreply
    cases hreply

/-- A request with this id is on the connection. -/
theorem requested_of_bufferId {s : State Buf} {buffer : Buf}
    (hstarted : buffer ∈ s.writer.started) {id : UInt32}
    (hid : Request.bufferId mp buffer = some id) : Requested mp s id := by
  obtain ⟨msg, hunpack, hreply⟩ := Option.bind_eq_some_iff.mp hid
  by_cases hsize : mp.arraySize msg = 4
  · unfold Request.replyId at hreply
    rw [if_pos hsize] at hreply
    obtain ⟨⟨code, idx, name, args⟩, htuple, rfl⟩ :=
      Option.map_eq_some_iff.mp hreply
    exact ⟨buffer, hstarted, msg, code, idx, name, args, hunpack, hsize,
      htuple, rfl⟩
  · rw [Request.replyId_of_size_ne mp hsize] at hreply
    cases hreply

/-- The requests handed over are those of the first calls that have run. -/
theorem handedOver_requests {s : State Buf} (h : RequestsTracked mp s) :
    s.handedOver.filter (isRequest mp) <+: s.ran.map (Call.buffer mp) :=
  ⟨_, h.requests⟩

namespace Correlated

variable {mp}

/-- The calls that have run have different indices. -/
theorem ran_ids_nodup {s : State Buf} (h : Correlated mp s) :
    (s.ran.map fun c => c.idx.toUInt32).Nodup := by
  have hnumbers : (s.ran.map Call.number).Nodup := by
    have hnodup := h.tracked.calls.nodup
    rw [List.map_append] at hnodup
    exact hnodup.of_append_right
  refine (List.Nodup.of_map _ hnumbers).map_on fun c hc d hd hid => ?_
  exact h.eq_of_idx (h.tracked.calls.ran_subset hc)
    (h.tracked.calls.ran_subset hd) (idx_eq_of_id hid)

/-- No two requests on the connection have the same id. -/
theorem requestIds_nodup {s : State Buf} (h : Correlated mp s) :
    (s.writer.started.filterMap (Request.bufferId mp)).Nodup := by
  obtain ⟨l, hl⟩ := AsyncWriter.exists_ledger mp h.requests.writer.reachable
  have hstarted := AsyncWriter.started_isPrefix hl
  rw [h.requests.writer.accepted] at hstarted
  -- only requests have an id
  have hrequests : (s.handedOver.filter (isRequest mp)).filterMap
      (Request.bufferId mp) =
        s.handedOver.filterMap (Request.bufferId mp) := by
    rw [List.filterMap_filter]
    refine List.filterMap_congr fun buffer _ => ?_
    cases hid : Request.bufferId mp buffer with
    | none => simp
    | some id => simp [isRequest_of_bufferId mp hid]
  have hran := (handedOver_requests mp h.requests).filterMap
    (Request.bufferId mp)
  rw [hrequests, List.filterMap_map] at hran
  have hids : s.ran.filterMap (Request.bufferId mp ∘ Call.buffer mp) =
      s.ran.map fun c => c.idx.toUInt32 := by
    rw [← List.filterMap_eq_map]
    exact List.filterMap_congr fun c _ => bufferId_buffer mp c
  rw [hids] at hran
  have hfirst := (hstarted.filterMap (Request.bufferId mp)).trans hran
  exact hfirst.sublist.nodup h.ran_ids_nodup

/-- The request with the id of a call is the request of this call. -/
theorem buffer_of_id {s : State Buf} (h : Correlated mp s)
    {buffer : Buf} (hbuffer : buffer ∈ s.writer.started) {c : Call}
    (hc : c ∈ s.issued)
    (hid : Request.bufferId mp buffer = some c.idx.toUInt32) :
    buffer = c.buffer mp := by
  have hhanded := h.requests.writer.started_subset mp hbuffer
  have hmem : buffer ∈ s.handedOver.filter (isRequest mp) :=
    List.mem_filter.mpr ⟨hhanded, isRequest_of_bufferId mp hid⟩
  obtain ⟨d, hd, rfl⟩ :=
    List.mem_map.mp ((handedOver_requests mp h.requests).subset hmem)
  rw [bufferId_buffer] at hid
  have hidx := idx_eq_of_id (Option.some.inj hid)
  rw [h.eq_of_idx (h.tracked.calls.ran_subset hd) hc hidx]

end Correlated

/-! ## What a client has read -/

/-- Only a successful read brings responses. -/
theorem responses_of_effect {s s' : State Buf} {e : Event}
    (heffect : Effect mp s e s') (hnot : ∀ objs, e ≠ .readDone .success objs) :
    s'.responses = s.responses := by
  cases heffect with
  | @insertCall c rest hstrand =>
      exact (entered_insertCall mp { s with strand := rest } c).responses
  | readDone ec objs hreading =>
      have herror : ec ≠ .success := fun hsuccess =>
        hnot objs (by rw [hsuccess])
      obtain ⟨reading, state, hdone⟩ := readDone_error mp s objs herror
      rw [hdone]
  | _ => rfl

/-- A round that no exception leaves has decoded its object. -/
theorem handleResponse_responses {s : State Buf} {obj : Object}
    (hlive : (s.handleResponse mp obj).escaped = none) :
    ∃ response, Response.ofHandle mp obj = some response ∧
      (s.handleResponse mp obj).responses = s.responses ++ [response] := by
  cases hdecoded : Response.ofHandle mp obj with
  | none => simp [State.handleResponse, hdecoded] at hlive
  | some response =>
      refine ⟨response, rfl, ?_⟩
      have hsame : (s.currentCall response.id.toInt32).1.responses =
          s.responses := by
        unfold State.currentCall
        split <;> rfl
      unfold State.handleResponse
      rw [hdecoded, ← hsame]
      dsimp only
      split <;> rfl

/-- A loop that no exception leaves decodes every object of the chunk. -/
theorem handleResponses_responses {s : State Buf} {objs : List Object}
    (hlive : (s.handleResponses mp objs).escaped = none) :
    (s.handleResponses mp objs).responses =
      s.responses ++ objs.filterMap (Response.ofHandle mp) := by
  induction objs generalizing s with
  | nil => simp [State.handleResponses]
  | cons obj objs ih =>
      unfold State.handleResponses at hlive ⊢
      dsimp only at hlive ⊢
      split at hlive
      · rename_i hescaped
        rw [hlive] at hescaped
        cases hescaped
      · rename_i halive
        have halive' : (s.handleResponse mp obj).escaped = none := by
          simpa using halive
        obtain ⟨response, hdecoded, hresponses⟩ :=
          handleResponse_responses mp halive'
        rw [if_neg halive, ih hlive, hresponses,
          List.filterMap_cons_some hdecoded, List.append_assoc]
        rfl

/-- So does a read, and as long as its responses correlate none leaves it. -/
theorem readDone_responses {s s' : State Buf} (h : Correlated mp s')
    {objs : List Object}
    (hstep : step mp s (.readDone .success objs) = some s') :
    s'.responses = s.responses ++ objs.filterMap (Response.ofHandle mp) := by
  obtain ⟨hlive, heffect⟩ := effect_of_step mp hstep
  cases heffect
  obtain ⟨reading, hdone⟩ := readDone_success mp s objs
  rw [hdone] at h ⊢
  refine handleResponses_responses mp ?_
  rcases handleResponses_escaped mp s hlive objs with
    hnone | ⟨failure, hread⟩
  · exact hnone
  · exact absurd hread (h.answered.noEscape failure)

end Client
end RpcLib
