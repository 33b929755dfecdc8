import Mathlib.Data.List.Perm.Basic
import RpcLib.Foundation.Link
import RpcLib.Protocol.Request
import RpcLib.Server.SingleThread
import RpcLib.Transport.WriterMoves

/-!
# What a server makes of its sessions

What holds of the sessions of a server whatever its threads do, in the terms
in which a network needs it: what comes in, what is run, what goes out.

* `writer_of_step`, `received_of_step`, `session_of_step`, `dispatched_of_step`:
  what a step can do to a session that exists.
* `Ran`, `Executed`: every recorded dispatch is a run of the dispatch task of
  its session.
* `replyIds_subset`: a dispatch sends at most one response, under the id of its
  message.
* `Arriving`: any number of threads dispatch the messages of the stream, each
  once.
* `Replied`: a writer accepts the frames of the dispatches of its session, in
  the order of the dispatches.
-/

namespace RpcLib
namespace Server

open Protocol Transport Foundation TransitionSystem

variable {ω V Buf : Type} (mp : MsgPack Buf) (unpacker : Decoder Object UInt8)
  (disp : Dispatcher ω V)

/-! ## One step of a session -/

/-- What a completion gives to a session to decode: the chunk, if the session
is open. -/
def Event.chunkFor (s : State ω V Buf) (k : SessionNumber) :
    Event → List UInt8
  | .readDone _ j .success chunk =>
      if j = k ∧ (s.connection k).writer.exit = false then chunk else []
  | _ => []

theorem chunkFor_of_other (s : State ω V Buf) {j k : SessionNumber}
    (hother : k ≠ j) (t : ThreadId) (ec : ErrorCode) (chunk : List UInt8) :
    (Event.readDone t j ec chunk).chunkFor s k = [] := by
  cases ec <;> simp [Event.chunkFor, Ne.symm hother]

theorem chunkFor_of_exit {s : State ω V Buf} {j : SessionNumber}
    (hexit : (s.connection j).writer.exit = true) (t : ThreadId)
    (ec : ErrorCode) (chunk : List UInt8) (k : SessionNumber) :
    (Event.readDone t j ec chunk).chunkFor s k = [] := by
  cases ec with
  | success =>
      refine if_neg ?_
      rintro ⟨rfl, hopen⟩
      rw [hexit] at hopen
      cases hopen
  | _ => rfl

theorem chunkFor_of_error (s : State ω V Buf) {ec : ErrorCode}
    (herror : ec ≠ .success) (t : ThreadId) (j : SessionNumber)
    (chunk : List UInt8) (k : SessionNumber) :
    (Event.readDone t j ec chunk).chunkFor s k = [] := by
  cases ec with
  | success => exact absurd rfl herror
  | _ => rfl

/-- With what a write of the session ends in the event. -/
def Event.endsFor (k : SessionNumber) : Event → ErrorCode → Prop
  | .written _ j _ ec, ec' => j = k ∧ ec' = ec
  | _, _ => False

/-- What an event can make of a session that exists: its fixed part stays, its
writer moves, and it decodes what a completion gives it. -/
def Touched (s : State ω V Buf) (e : Event) (k : SessionNumber)
    (c : Connection ω V Buf) : Prop :=
  c.toServerSession = (s.connection k).toServerSession ∧
    AsyncWriter.Move mp (e.endsFor k) (s.connection k).writer c.writer ∧
    c.received = (s.connection k).received ++ e.chunkFor s k

/-- Nothing has happened to the session. -/
theorem Touched.kept {s : State ω V Buf} {e : Event} {k : SessionNumber}
    (hnone : e.chunkFor s k = []) : Touched mp s e k (s.connection k) :=
  ⟨rfl, .kept, by rw [hnone, List.append_nil]⟩

/-- A handler touches one session. -/
theorem Touched.everywhere {s s' : State ω V Buf} {e : Event}
    {j : SessionNumber} (hother : ∀ k, k ≠ j → s'.connection k = s.connection k)
    (hnone : ∀ k, k ≠ j → e.chunkFor s k = [])
    (hthis : Touched mp s e j (s'.connection j)) (k : SessionNumber) :
    Touched mp s e k (s'.connection k) := by
  by_cases hk : k = j
  · subst hk
    exact hthis
  · rw [hother k hk]
    exact .kept mp (hnone k hk)

theorem touched_of_step {s s' : State ω V Buf} {e : Event}
    (hstep : step mp unpacker disp s e = some s') {k : SessionNumber}
    (hk : k < s.created) : Touched mp s e k (s'.connection k) := by
  have hnone : ∀ j, j ≠ k → [] = ([] : List UInt8) := fun _ _ => rfl
  cases (effect_of_step mp unpacker disp hstep).2 with
  | @accepted t address =>
      have hother : (s.accepted disp t address).connection k =
          s.connection k := s.setConnection_other (Nat.ne_of_lt hk) _
      rw [hother]
      exact .kept mp rfl
  | @acceptFailed t =>
      obtain ⟨_, _, hnext⟩ := s.acceptFailed_eq t
      rw [hnext]
      exact .kept mp rfl
  | @register t j =>
      obtain ⟨_, _, hnext⟩ := s.register_eq t j
      rw [hnext]
      exact .kept mp rfl
  | closeNext =>
      refine Touched.everywhere mp (fun _ hj => s.setConnection_other hj _)
        (fun _ _ => rfl) ?_ k
      simpa [Touched, Event.chunkFor, State.closeNext, State.close,
        State.setJob] using .close
  | @readClosed t j ec chunk hj hreading hexit =>
      refine Touched.everywhere mp (fun _ hj => s.setConnection_other hj _)
        (fun _ hj => chunkFor_of_other s hj t ec chunk) ?_ k
      simpa [Touched, chunkFor_of_exit hexit, State.endRead] using .kept
  | @readFailed t j ec chunk hj hreading hopen hunhandled =>
      refine Touched.everywhere mp (fun _ hj => s.setConnection_other hj _)
        (fun _ hj => chunkFor_of_other s hj t ec chunk) ?_ k
      simpa [Touched, chunkFor_of_error s hunhandled.1, State.endRead]
        using .kept
  | @readChunk t j chunk hj hreading hopen =>
      refine Touched.everywhere mp (fun _ hj => s.setConnection_twice hj _ _)
        (fun _ hj => chunkFor_of_other s hj t _ chunk) ?_ k
      simpa [Touched, Event.chunkFor, hopen, State.readChunk, State.endRead]
        using .kept
  | @readLost t j ec chunk hj hreading hopen hlost =>
      have herror : ec ≠ .success := by
        rcases hlost with rfl | rfl <;> simp
      refine Touched.everywhere mp (fun _ hj => s.setConnection_twice hj _ _)
        (fun _ hj => chunkFor_of_other s hj t ec chunk) ?_ k
      simpa [Touched, chunkFor_of_error s herror, State.close, State.endRead]
        using .close
  | dispatch =>
      refine Touched.everywhere mp (fun _ hj => s.setConnection_other hj _)
        (fun _ _ => rfl) ?_ k
      simpa [Touched, Event.chunkFor, State.dispatch] using .kept
  | writeReply =>
      refine Touched.everywhere mp (fun _ hj => s.setConnection_twice hj _ _)
        (fun _ _ => rfl) ?_ k
      simpa [Touched, Event.chunkFor, State.writeReply, State.popStrand]
        using .write _
  | close =>
      refine Touched.everywhere mp (fun _ hj => s.setConnection_twice hj _ _)
        (fun _ _ => rfl) ?_ k
      simpa [Touched, Event.chunkFor, State.close, State.popStrand]
        using .close
  | closeSessionsPosted =>
      refine Touched.everywhere mp (fun _ hj => s.setConnection_other hj _)
        (fun _ _ => rfl) ?_ k
      simpa [Touched, Event.chunkFor, State.closeSessions, State.setJob,
        State.popStrand] using .kept
  | closeSocket =>
      refine Touched.everywhere mp (fun _ hj => s.setConnection_twice hj _ _)
        (fun _ _ => rfl) ?_ k
      simpa [Touched, Event.chunkFor, State.closeSocket, State.popStrand]
        using .closeSocket
  | closeSession =>
      refine Touched.everywhere mp (fun _ hj => s.setConnection_twice hj _ _)
        (fun _ _ => rfl) ?_ k
      simpa [Touched, Event.chunkFor, State.closeSession, State.popStrand]
        using .kept
  | written ec hj houtstanding =>
      refine Touched.everywhere mp (fun _ hj => s.setConnection_other hj _)
        (fun _ _ => rfl) ?_ k
      simpa [Touched, Event.chunkFor, State.written]
        using .written ⟨rfl, rfl⟩ houtstanding
  | _ => exact .kept mp rfl

/-- The dispatches stay recorded. -/
theorem dispatched_of_step {s s' : State ω V Buf} {e : Event}
    (hstep : step mp unpacker disp s e = some s') :
    s.dispatched <+: s'.dispatched := by
  cases messageStep_of_step mp unpacker disp hstep with
  | accepted => exact List.prefix_rfl
  | readChunk => exact List.prefix_rfl
  | dispatch htask => exact List.prefix_append _ _
  | quiet hquiet => exact hquiet.dispatched.symm ▸ List.prefix_rfl

theorem dispatchedOf_of_step {s s' : State ω V Buf} {e : Event}
    (hstep : step mp unpacker disp s e = some s') (k : SessionNumber) :
    s.dispatchedOf k <+: s'.dispatchedOf k :=
  (dispatched_of_step mp unpacker disp hstep).filter _

/-- A session is new, or there is none. -/
theorem created_of_step {s s' : State ω V Buf} {e : Event}
    (hstep : step mp unpacker disp s e = some s') :
    s'.created = s.created ∨
      ∃ t address, e = .acceptDone t .success address ∧
        s' = s.accepted disp t address := by
  cases (effect_of_step mp unpacker disp hstep).2 with
  | @accepted t address => exact Or.inr ⟨t, address, rfl, rfl⟩
  | @acceptFailed t =>
      obtain ⟨_, _, hnext⟩ := s.acceptFailed_eq t
      rw [hnext]
      exact Or.inl rfl
  | @register t j =>
      obtain ⟨_, _, hnext⟩ := s.register_eq t j
      rw [hnext]
      exact Or.inl rfl
  | _ => exact Or.inl rfl

theorem created_le_of_step {s s' : State ω V Buf} {e : Event}
    (hstep : step mp unpacker disp s e = some s') :
    s.created ≤ s'.created := by
  rcases created_of_step mp unpacker disp hstep with
    hsame | ⟨t, address, -, rfl⟩
  · exact Nat.le_of_eq hsame.symm
  · exact Nat.le_succ s.created

/-- A session that a step has created has just been started. -/
theorem connection_of_new {s s' : State ω V Buf} {e : Event}
    (hstep : step mp unpacker disp s e = some s') {k : SessionNumber}
    (hnew : s.created ≤ k) (hk : k < s'.created) :
    ∃ session, s'.connection k = .started session := by
  rcases created_of_step mp unpacker disp hstep with
    hsame | ⟨t, address, -, rfl⟩
  · exact absurd (hsame ▸ hk) (Nat.not_lt.mpr hnew)
  · obtain rfl : k = s.created :=
      Nat.le_antisymm (Nat.le_of_lt_succ hk) hnew
    exact ⟨_, s.setConnection_self _ _⟩

/-- Only a session that exists reads. -/
theorem created_of_readDone {s s' : State ω V Buf} {t : ThreadId}
    {k : SessionNumber} {ec : ErrorCode} {chunk : List UInt8}
    (hstep : step mp unpacker disp s (.readDone t k ec chunk) = some s') :
    k < s.created := by
  cases (effect_of_step mp unpacker disp hstep).2 <;> assumption

/-! ## What a dispatch answers -/

/-- The response that a posted handler writes. -/
def Posted.response : Posted → Option Response
  | .write resp => some resp
  | .close | .closeSessions => none

/-- The responses that a dispatch has posted. -/
def Dispatched.responses (d : Dispatched ω V) : List Response :=
  d.posted.filterMap Posted.response

theorem Dispatched.frames_eq (d : Dispatched ω V) :
    d.frames mp = d.responses.map (Response.data mp) := by
  unfold frames responses
  rw [List.map_filterMap]
  refine List.filterMap_congr fun p _ => ?_
  cases p <;> rfl

theorem Dispatcher.notificationFailure_empty {suppress : Bool} {e : Exn}
    {resp : Response} (hfailure : notificationFailure suppress e = .ok resp) :
    resp.empty = true := by
  cases e <;> cases suppress <;> cases hfailure <;> rfl

theorem Dispatcher.callFailure_id {suppress : Bool} {id : UInt32}
    {name : String} {argsSize msgSize : Nat} {e : Exn} {resp : Response}
    (hfailure : callFailure suppress id name argsSize msgSize e = .ok resp) :
    resp.id = id := by
  cases e <;> cases suppress <;> cases hfailure <;> rfl

/-- A notification is not answered, also when its functor throws. -/
theorem Dispatcher.dispatchNotification_empty {d : Dispatcher ω V}
    {msg : Object} {suppress : Bool} {w w' : Worker ω V} {resp : Response}
    (hexec : (d.dispatchNotification mp msg suppress).exec w =
      (.ok resp, w')) : resp.empty = true := by
  cases htuple : mp.notificationTuple msg with
  | none =>
      rw [dispatchNotification_exec_unconverted mp htuple] at hexec
      cases hexec
  | some tuple =>
      obtain ⟨code, name, args⟩ := tuple
      cases hlookup : d.funcs.lookup name with
      | none =>
          rw [dispatchNotification_exec_unbound mp htuple hlookup] at hexec
          cases hexec
          rfl
      | some func =>
          rw [dispatchNotification_exec_bound mp htuple hlookup] at hexec
          rcases hrun : (func.adaptor mp name args).exec w with ⟨e | res, v⟩
          · rw [hrun] at hexec
            exact notificationFailure_empty (Prod.mk.inj hexec).1
          · rw [hrun] at hexec
            cases hexec
            rfl

/-- A call is answered under its id, whatever its functor does. -/
theorem Dispatcher.dispatchCall_id {d : Dispatcher ω V} {msg : Object}
    {suppress : Bool} {w w' : Worker ω V} {resp : Response}
    (hexec : (d.dispatchCall mp msg suppress).exec w = (.ok resp, w')) :
    (mp.callTuple msg).map (fun (_, idx, _, _) => idx.toUInt32) =
      some resp.id := by
  cases htuple : mp.callTuple msg with
  | none =>
      rw [dispatchCall_exec_unconverted mp htuple] at hexec
      cases hexec
  | some tuple =>
      obtain ⟨code, idx, name, args⟩ := tuple
      cases hlookup : d.funcs.lookup name with
      | none =>
          rw [dispatchCall_exec_unbound mp htuple hlookup] at hexec
          cases hexec
          rfl
      | some func =>
          rw [dispatchCall_exec_bound mp htuple hlookup] at hexec
          rcases hrun : (func.adaptor mp name args).exec w with ⟨e | res, v⟩
          · rw [hrun] at hexec
            exact congrArg some (callFailure_id (Prod.mk.inj hexec).1).symm
          · rw [hrun] at hexec
            cases hexec
            rfl

/-- What a dispatch returns is empty or has the id of the message. -/
theorem Dispatcher.dispatch_replyId {d : Dispatcher ω V} {msg : Object}
    {suppress : Bool} {w w' : Worker ω V} {resp : Response}
    (hexec : (d.dispatch mp msg suppress).exec w = (.ok resp, w')) :
    resp.empty = true ∨ Request.replyId mp msg = some resp.id := by
  by_cases hthree : mp.arraySize msg = 3
  · rw [dispatch_of_size_three mp hthree] at hexec
    exact Or.inl (dispatchNotification_empty mp hexec)
  by_cases hfour : mp.arraySize msg = 4
  · rw [dispatch_of_size_four mp hfour] at hexec
    exact Or.inr ((if_pos hfour).trans (dispatchCall_id mp hexec))
  · rw [dispatch_exec_of_other_size mp hthree hfour] at hexec
    cases hexec
    exact Or.inl rfl

theorem responses_posts (w : Worker ω V) (resp : Response) :
    (ServerSession.posts w resp).filterMap Posted.response =
      if w.thisHandler.respEnabled = true ∧ resp.empty = false then
        [ServerSession.answer w.thisHandler resp]
      else [] := by
  unfold ServerSession.posts
  cases w.thisHandler.respEnabled <;> cases hempty : resp.empty <;>
    cases w.thisSession.exit <;> cases w.thisServer.stopping <;>
    simp [hempty, Posted.response]

/-- The record of a dispatch is that of a run of the task of the session, which
has posted something or thrown. -/
structure Ran (session : ServerSession ω V) (d : Dispatched ω V)
    (w w' : Worker ω V) : Prop where
  before : w.app = d.before
  after : w'.app = d.after
  called : w'.invocations = w.invocations ++ d.called
  result : (session.dispatchTask mp d.msg).exec w = (.ok d.posted, w') ∨
    d.posted = [] ∧
      ∃ e, (session.dispatchTask mp d.msg).exec w = (.error e, w')

/-- A dispatch that posts a response has returned one with the id of its
message, and posts it with what the handler object says. -/
theorem Ran.of_response {session : ServerSession ω V} {d : Dispatched ω V}
    {w w' : Worker ω V} (h : Ran mp session d w w') {resp : Response}
    (hresp : resp ∈ d.responses) :
    ∃ returned, (session.disp.dispatch mp d.msg session.suppressExceptions).exec
        (session.prepare w) = (.ok returned, w') ∧
      Request.replyId mp d.msg = some returned.id ∧
      resp = ServerSession.answer w'.thisHandler returned ∧
      d.responses = [resp] := by
  rcases h.result with hexec | ⟨hnone, -⟩
  · rw [ServerSession.dispatchTask_exec] at hexec
    rcases hdispatch : (session.disp.dispatch mp d.msg
      session.suppressExceptions).exec (session.prepare w) with ⟨e | r, v⟩
    · rw [hdispatch] at hexec
      cases hexec
    · rw [hdispatch] at hexec
      obtain ⟨hposted, rfl⟩ := Prod.mk.inj hexec
      have hresponses := responses_posts v r
      rw [Except.ok.inj hposted] at hresponses
      split at hresponses
      · rename_i hsent
        have hone : d.responses = _ := hresponses
        rw [hone, List.mem_singleton] at hresp
        obtain rfl := hresp
        have hid := (Dispatcher.dispatch_replyId mp hdispatch).resolve_left
          (by simp [hsent.2])
        exact ⟨r, rfl, hid, rfl, hone⟩
      · have hnone : d.responses = [] := hresponses
        rw [hnone] at hresp
        cases hresp
  · rw [Dispatched.responses, hnone] at hresp
    cases hresp

/-- A dispatch sends at most one response, under the id of its message. -/
theorem Ran.responseIds {session : ServerSession ω V} {d : Dispatched ω V}
    {w w' : Worker ω V} (h : Ran mp session d w w') :
    (d.responses.map Response.id).Sublist
      (Request.replyId mp d.msg).toList := by
  cases hresponses : d.responses with
  | nil => exact List.nil_sublist _
  | cons resp rest =>
      have hresp : resp ∈ d.responses := hresponses ▸ List.mem_cons_self
      obtain ⟨returned, -, hid, rfl, hone⟩ := h.of_response mp hresp
      rw [← hresponses, hone, hid]
      simp

/-- Every recorded dispatch is a run of the task of its session; as long as the
process lives none of them has thrown. -/
def Executed (s : State ω V Buf) : Prop :=
  ∀ d ∈ s.dispatched, ∃ w w',
    Ran mp (s.connection d.number).toServerSession d w w' ∧
    (s.escaped = false →
      ((s.connection d.number).toServerSession.dispatchTask mp d.msg).exec w =
        (.ok d.posted, w'))

namespace Executed

theorem initial (app : ω) :
    Executed mp (.initial disp app : State ω V Buf) :=
  fun _ hd => (nomatch hd)

/-- A step that dispatches nothing. -/
theorem frame {s s' : State ω V Buf} (h : Executed mp s)
    (hdispatched : s'.dispatched = s.dispatched)
    (hsession : ∀ d ∈ s.dispatched, (s'.connection d.number).toServerSession =
      (s.connection d.number).toServerSession)
    (hlive : s.escaped = false) : Executed mp s' := by
  intro d hd
  rw [hdispatched] at hd
  obtain ⟨w, w', hran, hok⟩ := h d hd
  rw [hsession d hd]
  exact ⟨w, w', hran, fun _ => hok hlive⟩

/-- The record that a dispatch makes. -/
theorem dispatch_record (s : State ω V Buf) (t : ThreadId) (i : Nat)
    (k : SessionNumber) (msg : Object) :
    ∃ d w', (s.dispatch mp t i k msg).dispatched = s.dispatched ++ [d] ∧
      d.number = k ∧
      Ran mp (s.connection k).toServerSession d (s.worker t) w' ∧
      ((s.dispatch mp t i k msg).escaped = false →
        ((s.connection k).toServerSession.dispatchTask mp d.msg).exec
          (s.worker t) = (.ok d.posted, w')) := by
  obtain ⟨called, hcalls⟩ : ∃ called,
      (((s.connection k).toServerSession.dispatchTask mp msg).exec
        (s.worker t)).2.invocations = s.invocations ++ called := by
    rw [ServerSession.dispatchTask_state, Dispatcher.dispatch_invocations]
    exact ⟨_, rfl⟩
  unfold State.dispatch
  dsimp only
  generalize hrun : ((s.connection k).toServerSession.dispatchTask mp msg).exec
    (s.worker t) = ran at hcalls ⊢
  obtain ⟨result, w⟩ := ran
  dsimp only at hcalls ⊢
  refine ⟨_, w, rfl, rfl, ⟨rfl, rfl, ?_, ?_⟩, ?_⟩
  · rw [hcalls, List.drop_left]
    rfl
  · cases result with
    | ok posted => exact Or.inl hrun
    | error e => exact Or.inr ⟨rfl, e, hrun⟩
  · cases result with
    | ok posted => exact fun _ => hrun
    | error e => exact fun halive => nomatch halive

theorem dispatch {s : State ω V Buf} (h : Executed mp s) (t : ThreadId)
    (i : Nat) (k : SessionNumber) (msg : Object) (hlive : s.escaped = false) :
    Executed mp (s.dispatch mp t i k msg) := by
  have hsession : ∀ j,
      ((s.dispatch mp t i k msg).connection j).toServerSession =
        (s.connection j).toServerSession :=
    State.setConnection_proj (fun c => c.toServerSession) s (by rfl)
  obtain ⟨d, w', hrecord, rfl, hran, hok⟩ := dispatch_record mp s t i k msg
  intro d' hd'
  rw [hsession]
  rw [hrecord] at hd'
  rcases List.mem_append.mp hd' with hold | hnew
  · obtain ⟨w, w', hran, hok⟩ := h d' hold
    exact ⟨w, w', hran, fun _ => hok hlive⟩
  · obtain rfl := List.mem_singleton.mp hnew
    exact ⟨s.worker t, w', hran, hok⟩

theorem step {s s' : State ω V Buf} {e : Event} (h : Executed mp s)
    (hnumbered : Numbered s)
    (hstep : step mp unpacker disp s e = some s') : Executed mp s' := by
  have hlive := (effect_of_step mp unpacker disp hstep).1
  have hsession : ∀ d ∈ s.dispatched,
      (s'.connection d.number).toServerSession =
        (s.connection d.number).toServerSession := fun d hd =>
    (touched_of_step mp unpacker disp hstep (hnumbered.dispatched d hd)).1
  cases messageStep_of_step mp unpacker disp hstep with
  | accepted => exact h.frame mp rfl hsession hlive
  | readChunk => exact h.frame mp rfl hsession hlive
  | dispatch htask => exact h.dispatch mp _ _ _ _ hlive
  | quiet hquiet => exact h.frame mp hquiet.dispatched hsession hlive

end Executed

/-! ## What arrives -/

/-- The messages of a session that were dispatched or wait for their dispatch
are those decoded from what it has received, in some order. -/
def Arriving (s : State ω V Buf) : Prop :=
  ∀ k < s.created, ∃ arrived, (s.decodedOf k).Perm arrived ∧
    unpacker.Decodes (s.connection k).received arrived
      (s.connection k).unparsed

/-- A dispatch takes a task of its session away and records it. -/
theorem decodedOf_dispatch_perm (s : State ω V Buf) (t : ThreadId) {i : Nat}
    {k : SessionNumber} {msg : Object} (htask : s.tasks[i]? = some (k, msg))
    (j : SessionNumber) :
    ((s.dispatch mp t i k msg).decodedOf j).Perm (s.decodedOf j) := by
  obtain ⟨d, hmsg, hdispatched, -⟩ := s.dispatch_appends mp t i k msg
  obtain ⟨hi, htask⟩ := List.getElem?_eq_some_iff.mp htask
  have hperm := List.getElem_cons_eraseIdx_perm hi
  rw [htask] at hperm
  have hwaiting : (s.waitingOf j).Perm
      ((if j = k then [msg] else []) ++
        (s.dispatch mp t i k msg).waitingOf j) := by
    refine ((hperm.symm.filter _).map Prod.snd).trans (.of_eq ?_)
    by_cases hj : j = k
    · simp [State.waitingOf, State.dispatch, hj]
    · simp [State.waitingOf, State.dispatch, hj, Ne.symm hj]
  unfold State.decodedOf
  rw [hdispatched]
  refine List.Perm.trans (.of_eq ?_) (hwaiting.symm.append_left _)
  by_cases hj : j = k
  · simp [hj, hmsg]
  · simp [hj]

namespace Arriving

theorem initial (app : ω) :
    Arriving unpacker (.initial disp app : State ω V Buf) :=
  fun _ hk => (nomatch hk)

/-- A step that reads nothing. -/
theorem frame {s s' : State ω V Buf} (h : Arriving unpacker s)
    (hcreated : s'.created = s.created)
    (hdecoded : ∀ k, (s'.decodedOf k).Perm (s.decodedOf k))
    (hstream : ∀ k,
      ((s'.connection k).received, (s'.connection k).unparsed) =
        ((s.connection k).received, (s.connection k).unparsed)) :
    Arriving unpacker s' := by
  intro k hk
  rw [hcreated] at hk
  obtain ⟨hreceived, hunparsed⟩ := Prod.mk.inj (hstream k)
  obtain ⟨arrived, hperm, hdecodes⟩ := h k hk
  rw [hreceived, hunparsed]
  exact ⟨arrived, (hdecoded k).trans hperm, hdecodes⟩

theorem accepted {s : State ω V Buf} (h : Arriving unpacker s)
    (hnumbered : Numbered s) (t : ThreadId) (address : SessionId) :
    Arriving unpacker (s.accepted disp t address) := by
  intro k hk
  show ∃ arrived, (s.decodedOf k).Perm arrived ∧ _
  rcases Nat.lt_succ_iff_lt_or_eq.mp hk with hold | rfl
  · have hother : (s.accepted disp t address).connection k =
        s.connection k := s.setConnection_other (Nat.ne_of_lt hold) _
    rw [hother]
    exact h k hold
  · have hfresh : (s.accepted disp t address).connection s.created =
        .started ⟨address, disp, s.suppressException⟩ :=
      s.setConnection_self _ _
    rw [hfresh, hnumbered.decodedOf_created]
    exact ⟨[], .nil, .nil⟩

/-- A chunk adds the messages it completes. -/
theorem readChunk {s : State ω V Buf} (h : Arriving unpacker s)
    (k : SessionNumber) (chunk : List UInt8) :
    Arriving unpacker ((s.endRead k).readChunk unpacker k chunk) := by
  intro j hj
  rw [State.decodedOf_readChunk]
  obtain ⟨arrived, hperm, hdecodes⟩ := h j hj
  by_cases hjk : j = k
  · subst hjk
    have hchunk := hdecodes.chunk chunk
    refine ⟨_, ?_, by simpa [State.readChunk, State.endRead] using hchunk⟩
    rw [if_pos rfl]
    exact hperm.append_right _
  · have hother : ((s.endRead k).readChunk unpacker k chunk).connection j =
        s.connection j := s.setConnection_twice hjk _ _
    rw [hother, if_neg hjk, List.append_nil]
    exact ⟨arrived, hperm, hdecodes⟩

theorem step {s s' : State ω V Buf} {e : Event} (h : Arriving unpacker s)
    (hnumbered : Numbered s)
    (hstep : step mp unpacker disp s e = some s') : Arriving unpacker s' := by
  cases messageStep_of_step mp unpacker disp hstep with
  | accepted t address => exact h.accepted unpacker disp hnumbered t address
  | readChunk hk chunk => exact h.readChunk unpacker _ _
  | dispatch htask =>
      refine h.frame unpacker rfl (decodedOf_dispatch_perm mp s _ htask) ?_
      exact State.setConnection_proj (fun c => (c.received, c.unparsed)) s
        (by rfl)
  | quiet hquiet =>
      refine h.frame unpacker hquiet.created (fun k => .of_eq ?_)
        hquiet.stream
      unfold State.decodedOf State.dispatchedOf State.waitingOf
      rw [hquiet.dispatched, hquiet.tasks]

end Arriving

/-! ## What is sent -/

/-- The writer of a session accepts the frames of its dispatches, in their
order. -/
def Replied (s : State ω V Buf) : Prop :=
  ∀ k < s.created, (s.connection k).writer.accepted <+:
    (s.dispatchedOf k).flatMap (Dispatched.frames mp)

theorem Replied.initial (app : ω) :
    Replied mp (.initial disp app : State ω V Buf) :=
  fun _ hk => (nomatch hk)

/-- An open session has accepted its frames in order, and a closed one accepts
no more of them. -/
theorem Replied.step {s s' : State ω V Buf} {e : Event} (h : Replied mp s)
    (hreplying : Replying mp s')
    (hstep : step mp unpacker disp s e = some s') : Replied mp s' := by
  intro k hk
  cases hexit : (s'.connection k).writer.exit with
  | false => exact ⟨_, hreplying k hk hexit⟩
  | true =>
      by_cases hold : k < s.created
      · have hmove := (touched_of_step mp unpacker disp hstep hold).2.1
        rw [hmove.accepted_of_exit mp hexit]
        have hgrown := dispatchedOf_of_step mp unpacker disp hstep k
        exact (h k hold).trans (flatMap_isPrefix hgrown _)
      · -- a new session is open
        obtain ⟨session, hfresh⟩ := connection_of_new mp unpacker disp hstep
          (Nat.le_of_not_lt hold) hk
        rw [hfresh] at hexit
        cases hexit

/-- The responses of a session, in the order of its dispatches. -/
def State.repliesOf (s : State ω V Buf) (k : SessionNumber) : List Response :=
  (s.dispatchedOf k).flatMap Dispatched.responses

theorem repliesOf_of_step {s s' : State ω V Buf} {e : Event}
    (hstep : step mp unpacker disp s e = some s') (k : SessionNumber) :
    s.repliesOf k <+: s'.repliesOf k :=
  flatMap_isPrefix (dispatchedOf_of_step mp unpacker disp hstep k) _

/-- The frames of a session are those of its responses. -/
theorem frames_repliesOf (s : State ω V Buf) (k : SessionNumber) :
    (s.dispatchedOf k).flatMap (Dispatched.frames mp) =
      (s.repliesOf k).map (Response.data mp) := by
  rw [State.repliesOf, List.map_flatMap]
  exact List.flatMap_congr fun d _ => d.frames_eq mp

/-! ## The invariant of a server -/

/-- What holds of a server whatever its threads do. -/
structure Serving (app : ω) (s : State ω V Buf) : Prop where
  numbered : Numbered s
  history : History mp disp app s
  executed : Executed mp s
  arriving : Arriving unpacker s
  replying : Replying mp s
  replied : Replied mp s
  writers : ∀ k < s.created,
    ∃ l, AsyncWriter.Ledger (s.connection k).writer l

namespace Serving

theorem initial (app : ω) :
    Serving mp unpacker disp app (.initial disp app : State ω V Buf) :=
  ⟨.initial disp app, .initial mp disp app, .initial mp disp app,
    .initial unpacker disp app, .initial mp disp app, .initial mp disp app,
    fun _ hk => (nomatch hk)⟩

theorem step {app : ω} {s s' : State ω V Buf} {e : Event}
    (h : Serving mp unpacker disp app s)
    (hstep : step mp unpacker disp s e = some s') :
    Serving mp unpacker disp app s' := by
  have hreplying := h.replying.step mp unpacker disp h.numbered hstep
  refine ⟨h.numbered.step mp unpacker disp hstep,
    h.history.step mp unpacker disp hstep,
    h.executed.step mp unpacker disp h.numbered hstep,
    h.arriving.step mp unpacker disp h.numbered hstep, hreplying,
    h.replied.step mp unpacker disp hreplying hstep, ?_⟩
  intro k hk
  by_cases hold : k < s.created
  · obtain ⟨l, hl⟩ := h.writers k hold
    exact (touched_of_step mp unpacker disp hstep hold).2.1.ledger mp hl
  · obtain ⟨session, hfresh⟩ := connection_of_new mp unpacker disp hstep
      (Nat.le_of_not_lt hold) hk
    rw [hfresh]
    exact ⟨_, AsyncWriter.Ledger.initial⟩

variable {mp unpacker disp}

/-- Nothing was dispatched for a session that does not exist. -/
theorem dispatchedOf_eq_nil {app : ω} {s : State ω V Buf}
    (h : Serving mp unpacker disp app s) {k : SessionNumber}
    (hk : s.created ≤ k) : s.dispatchedOf k = [] := by
  refine List.filter_eq_nil_iff.mpr fun d hd => ?_
  have hlt := h.numbered.dispatched d hd
  simpa using Nat.ne_of_lt (Nat.lt_of_lt_of_le hlt hk)

/-- Nothing was decoded for one either. -/
theorem decodedOf_eq_nil {app : ω} {s : State ω V Buf}
    (h : Serving mp unpacker disp app s) {k : SessionNumber}
    (hk : s.created ≤ k) : s.decodedOf k = [] := by
  have hnone : (s.tasks.filter fun task => task.1 = k) = [] := by
    refine List.filter_eq_nil_iff.mpr fun task htask => ?_
    have hlt := h.numbered.tasks task htask
    simpa using Nat.ne_of_lt (Nat.lt_of_lt_of_le hlt hk)
  rw [State.decodedOf, h.dispatchedOf_eq_nil hk, State.waitingOf, hnone]
  rfl

/-- The socket of a session was given its first responses. -/
theorem started_eq {app : ω} {s : State ω V Buf}
    (h : Serving mp unpacker disp app s) {k : SessionNumber}
    (hk : k < s.created) :
    ∃ sent, sent <+: s.repliesOf k ∧
      (s.connection k).writer.started = sent.map (Response.data mp) := by
  obtain ⟨l, hl⟩ := h.writers k hk
  have hstarted := (AsyncWriter.started_isPrefix hl).trans (h.replied k hk)
  rw [frames_repliesOf, List.prefix_map_iff] at hstarted
  exact hstarted

/-- No dispatch answers under the id of another message. -/
theorem replyIds_sublist {app : ω} {s : State ω V Buf}
    (h : Serving mp unpacker disp app s) (k : SessionNumber) :
    ((s.repliesOf k).map Response.id).Sublist
      (((s.dispatchedOf k).map Dispatched.msg).filterMap
        (Request.replyId mp)) := by
  have heach : ∀ d ∈ s.dispatchedOf k, (d.responses.map Response.id).Sublist
      (Request.replyId mp d.msg).toList := by
    intro d hd
    obtain ⟨w, w', hran, -⟩ := h.executed d (List.mem_of_mem_filter hd)
    exact hran.responseIds mp
  unfold State.repliesOf
  generalize s.dispatchedOf k = ds at heach
  induction ds with
  | nil => exact List.nil_sublist _
  | cons d ds ih =>
      have hrest := ih fun d' hd' => heach d' (List.mem_cons_of_mem _ hd')
      have hboth := (heach d List.mem_cons_self).append hrest
      rw [List.flatMap_cons, List.map_append, List.map_cons]
      cases hid : Request.replyId mp d.msg with
      | none =>
          rw [List.filterMap_cons_none hid]
          simpa [hid] using hboth
      | some id =>
          rw [List.filterMap_cons_some hid]
          simpa [hid] using hboth

end Serving

end Server
end RpcLib
