import RpcLib.MsgPack.Reference
import RpcLib.MsgPack.ShortForms
import RpcLib.Server.Step

/-!
# A server with one thread

When one thread runs the `io_context`, the dispatch tasks run in the order in
which they were posted.  A message passes through three queues: the bytes in
`unpac_`, the dispatch tasks of the `io_context`, which are those of all
sessions, and the write strand of its session.

* `Numbered`, `History`: a task belongs to a session that exists, and every
  dispatch has called what its message addresses.
* `Decoding`: what a session has dispatched, what waits and what is not read
  yet are the messages in the order of the stream, in any chunking.
* `Replying`: the frames in and before `write_queue_` are those of the
  dispatches in their order.
* `inOrder_of_reachable`: all of it for every reachable state.
-/

namespace RpcLib
namespace Server

open Protocol Transport Foundation TransitionSystem

variable {ω V Buf : Type} (mp : MsgPack Buf) (unpacker : Decoder Object UInt8)
  (disp : Dispatcher ω V)

/-- The server's handlers run on thread 0, which takes the dispatch tasks in
the order of posting.  The application may call the server from elsewhere. -/
def SingleThread (_ : State ω V Buf) : Event → Prop
  | .dispatch t i => t = 0 ∧ i = 0
  | .acceptDone t _ _ | .acceptThrows t | .readDone t _ _ _ => t = 0
  | .runStrand t _ | .written t _ _ _ => t = 0
  | .resume _ | .closeSessions _ | .suppressExceptions _ => True

/-- The frame that a posted handler writes. -/
def Posted.frame : Posted → Option Buf
  | .write resp => some (resp.data mp)
  | .close | .closeSessions => none

/-- The frame that a handler of the write strand writes. -/
def StrandTask.frame : StrandTask → Option Buf
  | .posted p => p.frame mp
  | .closeSocket | .closeSession => none

/-- The frames that entered `write_queue_` and those that wait for it on the
write strand, in order. -/
def Connection.replyFrames (c : Connection ω V Buf) : List Buf :=
  c.writer.accepted ++ c.writeStrand.filterMap (StrandTask.frame mp)

/-- The frames that a dispatch has posted. -/
def Dispatched.frames (d : Dispatched ω V) : List Buf :=
  d.posted.filterMap (Posted.frame mp)

namespace State

/-- The dispatches of a session, in the order in which they ran. -/
def dispatchedOf (s : State ω V Buf) (k : SessionNumber) :
    List (Dispatched ω V) :=
  s.dispatched.filter fun d => d.number = k

/-- The messages of a session that wait for their dispatch. -/
def waitingOf (s : State ω V Buf) (k : SessionNumber) : List Object :=
  (s.tasks.filter fun task => task.1 = k).map Prod.snd

/-- The messages of a session that were decoded. -/
def decodedOf (s : State ω V Buf) (k : SessionNumber) : List Object :=
  (s.dispatchedOf k).map Dispatched.msg ++ s.waitingOf k

/-- A dispatch is recorded behind the others of its session and posts on the
strand of its session. -/
theorem dispatch_appends (s : State ω V Buf) (t : ThreadId) (i : Nat)
    (k : SessionNumber) (msg : Object) :
    ∃ d : Dispatched ω V, d.msg = msg ∧
      (∀ j, (s.dispatch mp t i k msg).dispatchedOf j =
        s.dispatchedOf j ++ if j = k then [d] else []) ∧
      (s.dispatch mp t i k msg).connection =
        (s.setConnection k
          { s.connection k with
            writeStrand := (s.connection k).writeStrand ++
              d.posted.map .posted }).connection := by
  obtain ⟨d, hnumber, hmsg, hdispatched, hconnection⟩ :
      ∃ d : Dispatched ω V, d.number = k ∧ d.msg = msg ∧
        (s.dispatch mp t i k msg).dispatched = s.dispatched ++ [d] ∧
        (s.dispatch mp t i k msg).connection =
          (s.setConnection k
            { s.connection k with
              writeStrand := (s.connection k).writeStrand ++
                d.posted.map .posted }).connection :=
    ⟨_, rfl, rfl, rfl, rfl⟩
  refine ⟨d, hmsg, fun j => ?_, hconnection⟩
  rw [dispatchedOf, hdispatched, List.filter_append]
  by_cases hj : j = k
  · simp [dispatchedOf, hj, hnumber]
  · simp [dispatchedOf, hj, hnumber, Ne.symm hj]

/-- A chunk adds the messages it completes. -/
theorem decodedOf_readChunk (s : State ω V Buf) (k : SessionNumber)
    (chunk : List UInt8) (j : SessionNumber) :
    ((s.endRead k).readChunk unpacker k chunk).decodedOf j =
      s.decodedOf j ++ if j = k then
        (unpacker.drain ((s.connection k).unparsed ++ chunk)).items else [] := by
  have htasks : ((s.endRead k).readChunk unpacker k chunk).tasks =
      s.tasks ++ (unpacker.drain ((s.connection k).unparsed ++ chunk)).items.map
        fun msg => (k, msg) := by
    simp [readChunk, endRead, setConnection]
  show List.map _ (s.dispatchedOf j) ++ waitingOf _ j = _
  rw [waitingOf, htasks]
  by_cases hj : j = k
  · simp [decodedOf, waitingOf, hj, List.filter_map, Function.comp_def]
  · simp [decodedOf, waitingOf, hj, Ne.symm hj, List.filter_map,
      Function.comp_def]

/-- The oldest task has only been waiting before. -/
theorem decodedOf_dispatch (s : State ω V Buf) (t : ThreadId)
    {k : SessionNumber} {msg : Object} (htask : s.tasks[0]? = some (k, msg))
    (j : SessionNumber) :
    (s.dispatch mp t 0 k msg).decodedOf j = s.decodedOf j := by
  obtain ⟨d, hmsg, hdispatched, -⟩ := s.dispatch_appends mp t 0 k msg
  have htasks : (s.dispatch mp t 0 k msg).tasks = s.tasks.eraseIdx 0 := rfl
  rw [decodedOf, hdispatched, waitingOf, htasks]
  cases hqueue : s.tasks with
  | nil => simp [hqueue] at htask
  | cons task rest =>
      obtain rfl : task = (k, msg) := by simpa [hqueue] using htask
      by_cases hj : j = k
      · simp [decodedOf, waitingOf, hqueue, hj, hmsg]
      · simp [decodedOf, waitingOf, hqueue, hj, Ne.symm hj]

end State

/-- Every dispatch starts from the state of the application that the one
before it, of whatever session, has left. -/
def Linked : ω → List (Dispatched ω V) → ω → Prop
  | first, [], last => first = last
  | first, d :: ds, last => d.before = first ∧ Linked d.after ds last

theorem Linked.snoc {first last : ω} {ds : List (Dispatched ω V)}
    (h : Linked first ds last) {d : Dispatched ω V} (hd : d.before = last) :
    Linked first (ds ++ [d]) d.after := by
  induction ds generalizing first with
  | nil =>
      have hfirst : first = last := h
      exact ⟨hd.trans hfirst.symm, rfl⟩
  | cons d' ds ih => exact ⟨h.1, ih h.2⟩

/-! ## What was dispatched -/

/-- Tasks and dispatches are those of sessions that were created. -/
structure Numbered (s : State ω V Buf) : Prop where
  tasks : ∀ task ∈ s.tasks, task.1 < s.created
  dispatched : ∀ d ∈ s.dispatched, d.number < s.created

theorem Numbered.initial (app : ω) :
    Numbered (.initial disp app : State ω V Buf) :=
  ⟨fun _ htask => (nomatch htask), fun _ hd => (nomatch hd)⟩

theorem Numbered.dispatchedOf_created {s : State ω V Buf} (h : Numbered s) :
    s.dispatchedOf s.created = [] := by
  refine List.filter_eq_nil_iff.mpr fun d hd => ?_
  have hlt := h.dispatched d hd
  simpa using Nat.ne_of_lt hlt

/-- Nothing was decoded of a session before it exists. -/
theorem Numbered.decodedOf_created {s : State ω V Buf} (h : Numbered s) :
    s.decodedOf s.created = [] := by
  have hnone : (s.tasks.filter fun task => task.1 = s.created) = [] := by
    refine List.filter_eq_nil_iff.mpr fun task htask => ?_
    have hlt := h.tasks task htask
    simpa using Nat.ne_of_lt hlt
  rw [State.decodedOf, h.dispatchedOf_created, State.waitingOf, hnone]
  rfl

theorem Numbered.step {s s' : State ω V Buf} {e : Event} (h : Numbered s)
    (hstep : step mp unpacker disp s e = some s') : Numbered s' := by
  cases messageStep_of_step mp unpacker disp hstep with
  | accepted =>
      exact ⟨fun task htask => Nat.lt_succ_of_lt (h.tasks task htask),
        fun d hd => Nat.lt_succ_of_lt (h.dispatched d hd)⟩
  | @readChunk k hk chunk =>
      refine ⟨fun task htask => ?_, h.dispatched⟩
      rcases List.mem_append.mp htask with hold | hnew
      · exact h.tasks task hold
      · obtain ⟨msg, -, rfl⟩ := List.mem_map.mp hnew
        exact hk
  | @dispatch t i k msg htask =>
      refine ⟨fun task hmem => h.tasks task (List.mem_of_mem_eraseIdx hmem),
        fun d hd => ?_⟩
      rcases List.mem_append.mp hd with hold | hnew
      · exact h.dispatched d hold
      · obtain rfl := List.mem_singleton.mp hnew
        exact h.tasks (k, msg) (List.mem_of_getElem? htask)
  | quiet hquiet =>
      refine ⟨?_, ?_⟩
      · rw [hquiet.tasks, hquiet.created]
        exact h.tasks
      · rw [hquiet.dispatched, hquiet.created]
        exact h.dispatched

/-- Every dispatch has called what its message addresses, and nothing else has
called a functor or changed the state of the application. -/
structure History (app : ω) (s : State ω V Buf) : Prop where
  sameDisp : ∀ k, (s.connection k).disp = disp
  called : ∀ d ∈ s.dispatched, d.called = disp.callsOf mp d.msg
  invocations : s.invocations = s.dispatched.flatMap Dispatched.called
  linked : Linked app s.dispatched s.app

namespace History

theorem initial (app : ω) :
    History mp disp app (.initial disp app : State ω V Buf) :=
  ⟨fun _ => rfl, fun _ hd => (nomatch hd), rfl, rfl⟩

theorem quiet {app : ω} {s s' : State ω V Buf} (h : History mp disp app s)
    (hquiet : Quiet s s') : History mp disp app s' where
  sameDisp k := (hquiet.disp k).trans (h.sameDisp k)
  called := by
    rw [hquiet.dispatched]
    exact h.called
  invocations := by
    rw [hquiet.dispatched, hquiet.invocations]
    exact h.invocations
  linked := by
    rw [hquiet.dispatched, hquiet.app]
    exact h.linked

/-- A new session gets the dispatcher of the server. -/
theorem accepted {app : ω} {s : State ω V Buf} (h : History mp disp app s)
    (t : ThreadId) (address : SessionId) :
    History mp disp app (s.accepted disp t address) := by
  refine ⟨fun j => ?_, h.called, h.invocations, h.linked⟩
  by_cases hj : j = s.created
  · subst hj
    simp [State.accepted, Connection.started]
  · exact (congrArg (fun c => c.disp) (s.setConnection_other hj _)).trans
      (h.sameDisp j)

/-- A dispatch calls what its message addresses. -/
theorem dispatch {app : ω} {s : State ω V Buf} (h : History mp disp app s)
    (t : ThreadId) (i : Nat) (k : SessionNumber) (msg : Object) :
    History mp disp app (s.dispatch mp t i k msg) := by
  have hcalls : (((s.connection k).toServerSession.dispatchTask mp msg).exec
      (s.worker t)).2.invocations = s.invocations ++ disp.callsOf mp msg := by
    rw [ServerSession.dispatchTask_state, Dispatcher.dispatch_invocations,
      h.sameDisp k]
    rfl
  unfold State.dispatch
  dsimp only
  generalize ((s.connection k).toServerSession.dispatchTask mp msg).exec
    (s.worker t) = ran at hcalls ⊢
  obtain ⟨result, w⟩ := ran
  dsimp only at hcalls ⊢
  rw [hcalls, List.drop_left]
  refine ⟨fun j => Eq.trans ?_ (h.sameDisp j), ?_, ?_, h.linked.snoc rfl⟩
  · exact State.setConnection_proj (fun c => c.disp) s (by rfl) j
  · intro d hd
    rcases List.mem_append.mp hd with hold | hnew
    · exact h.called d hold
    · obtain rfl := List.mem_singleton.mp hnew
      rfl
  · show _ = List.flatMap _ (s.dispatched ++ [_])
    rw [List.flatMap_append, List.flatMap_singleton, h.invocations]

theorem step {app : ω} {s s' : State ω V Buf} {e : Event}
    (h : History mp disp app s)
    (hstep : step mp unpacker disp s e = some s') :
    History mp disp app s' := by
  cases messageStep_of_step mp unpacker disp hstep with
  | accepted t address => exact h.accepted mp disp t address
  | @readChunk k hk chunk =>
      have hended := h.quiet mp disp (.endRead s k)
      refine ⟨fun j => Eq.trans ?_ (hended.sameDisp j), h.called,
        h.invocations, h.linked⟩
      exact State.setConnection_proj (fun c => c.disp) (s.endRead k)
        (by rfl) j
  | dispatch htask => exact h.dispatch mp disp _ _ _ _
  | quiet hquiet => exact h.quiet mp disp hquiet

end History

/-! ## The replies -/

/-- The frames of an open session, in the queue or on the way to it, are those
of its dispatches in their order. -/
def Replying (s : State ω V Buf) : Prop :=
  ∀ k < s.created, (s.connection k).writer.exit = false →
    (s.connection k).replyFrames mp =
      (s.dispatchedOf k).flatMap (Dispatched.frames mp)

namespace Replying

theorem initial (app : ω) :
    Replying mp (.initial disp app : State ω V Buf) :=
  fun _ hk => (nomatch hk)

/-- A handler that dispatches nothing and, while the session stays open, loses
and adds no frame of it. -/
theorem set {s s' : State ω V Buf} (h : Replying mp s) (k : SessionNumber)
    (hcreated : s'.created = s.created)
    (hdispatched : s'.dispatched = s.dispatched)
    (hother : ∀ j, j ≠ k → s'.connection j = s.connection j)
    (hthis : (s'.connection k).writer.exit = false →
      (s.connection k).writer.exit = false ∧
        (s'.connection k).replyFrames mp =
          (s.connection k).replyFrames mp) : Replying mp s' := by
  intro j hj hopen
  have hsame : s'.dispatchedOf j = s.dispatchedOf j :=
    congrArg (List.filter _) hdispatched
  rw [hcreated] at hj
  rw [hsame]
  by_cases hjk : j = k
  · subst hjk
    obtain ⟨hopen', hframes⟩ := hthis hopen
    rw [hframes, h j hj hopen']
  · rw [hother j hjk] at hopen ⊢
    exact h j hj hopen

/-- A handler that touches no session and dispatches nothing. -/
theorem frame {s s' : State ω V Buf} (h : Replying mp s)
    (hcreated : s'.created = s.created)
    (hdispatched : s'.dispatched = s.dispatched)
    (hconnection : s'.connection = s.connection) : Replying mp s' := by
  refine h.set mp 0 hcreated hdispatched (fun j _ => ?_) (fun hopen => ?_)
  · rw [hconnection]
  · rw [hconnection] at hopen ⊢
    exact ⟨hopen, rfl⟩

/-- A new session has dispatched nothing and written nothing. -/
theorem accepted {s : State ω V Buf} (h : Replying mp s) (hnumbered : Numbered s)
    (t : ThreadId) (address : SessionId) :
    Replying mp (s.accepted disp t address) := by
  intro j hj hopen
  show _ = (s.dispatchedOf j).flatMap _
  rcases Nat.lt_succ_iff_lt_or_eq.mp hj with hold | rfl
  · have hother : (s.accepted disp t address).connection j =
        s.connection j := s.setConnection_other (Nat.ne_of_lt hold) _
    rw [hother] at hopen ⊢
    exact h j hold hopen
  · rw [hnumbered.dispatchedOf_created]
    simp [State.accepted, Connection.started, Connection.replyFrames,
      Transport.AsyncWriter.initial]

/-- A dispatch puts its frames behind those of the earlier ones. -/
theorem dispatch {s : State ω V Buf} (h : Replying mp s) (t : ThreadId)
    (i : Nat) (k : SessionNumber) (msg : Object) :
    Replying mp (s.dispatch mp t i k msg) := by
  obtain ⟨d, -, hdispatched, hconnection⟩ := s.dispatch_appends mp t i k msg
  intro j hj hopen
  rw [hconnection] at hopen ⊢
  rw [hdispatched, List.flatMap_append]
  by_cases hjk : j = k
  · subst hjk
    rw [State.setConnection_self] at hopen ⊢
    rw [if_pos rfl, List.flatMap_singleton, ← h j hj hopen]
    simp only [Connection.replyFrames, Dispatched.frames,
      List.filterMap_append, List.filterMap_map, List.append_assoc]
    rfl
  · rw [State.setConnection_other s hjk] at hopen ⊢
    rw [if_neg hjk, List.flatMap_nil, List.append_nil]
    exact h j hj hopen

theorem step {s s' : State ω V Buf} {e : Event} (h : Replying mp s)
    (hnumbered : Numbered s)
    (hstep : step mp unpacker disp s e = some s') : Replying mp s' := by
  cases (effect_of_step mp unpacker disp hstep).2 with
  | accepted address => exact h.accepted mp disp hnumbered _ address
  | @acceptFailed t =>
      obtain ⟨_, _, hnext⟩ := s.acceptFailed_eq t
      rw [hnext]
      exact h.frame mp rfl rfl rfl
  | @register t k =>
      obtain ⟨_, _, hnext⟩ := s.register_eq t k
      rw [hnext]
      exact h.frame mp rfl rfl rfl
  | dispatch htask => exact h.dispatch mp _ _ _ _
  | @closeNext t posted k rest =>
      refine h.set mp k rfl rfl (fun j hj => s.setConnection_other hj _) ?_
      -- a closed session is not asked about its frames any more
      simp [State.closeNext, State.close, State.setJob, AsyncWriter.close]
  | @readClosed t k =>
      refine h.set mp k rfl rfl (fun j hj => s.setConnection_other hj _) ?_
      simp [State.endRead, Connection.replyFrames]
  | @readFailed t k =>
      refine h.set mp k rfl rfl (fun j hj => s.setConnection_other hj _) ?_
      simp [State.endRead, Connection.replyFrames]
  | @readChunk t k chunk =>
      refine h.set mp k rfl rfl (fun j hj => s.setConnection_twice hj _ _) ?_
      simp [State.readChunk, State.endRead, Connection.replyFrames]
  | @readLost t k =>
      refine h.set mp k rfl rfl (fun j hj => s.setConnection_twice hj _ _) ?_
      simp [State.close, AsyncWriter.close]
  | @writeReply t k resp rest hk hstrand =>
      refine h.set mp k rfl rfl
        (fun j hj => s.setConnection_twice hj _ _) (fun hopen => ?_)
      have hopen' : (s.connection k).writer.exit = false := by
        simpa [State.writeReply, State.popStrand,
          AsyncWriter.write_exit] using hopen
      -- the frame goes from the head of the strand to the end of the queue
      have hwrite := (AsyncWriter.write_of_open mp hopen' (resp.data mp)).2.1
      refine ⟨hopen', ?_⟩
      simp [State.writeReply, State.popStrand, Connection.replyFrames,
        hwrite, hstrand, StrandTask.frame, Posted.frame]
  | @close t k rest hk hstrand =>
      refine h.set mp k rfl rfl (fun j hj => s.setConnection_twice hj _ _) ?_
      simp [State.close, AsyncWriter.close]
  | @closeSessionsPosted t k rest hk hstrand =>
      refine h.set mp k rfl rfl (fun j hj => s.setConnection_other hj _) ?_
      simp [State.closeSessions, State.setJob, State.popStrand,
        Connection.replyFrames, hstrand, List.filterMap_cons,
        StrandTask.frame, Posted.frame]
  | @closeSocket t k rest hk hstrand =>
      refine h.set mp k rfl rfl (fun j hj => s.setConnection_twice hj _ _) ?_
      simp [State.closeSocket, State.popStrand, Connection.replyFrames,
        AsyncWriter.closeSocket, hstrand, List.filterMap_cons,
        StrandTask.frame]
  | @closeSession t k rest hk hstrand =>
      refine h.set mp k rfl rfl (fun j hj => s.setConnection_twice hj _ _) ?_
      simp [State.closeSession, State.popStrand, Connection.replyFrames,
        hstrand, List.filterMap_cons, StrandTask.frame]
  | @written t k i ec =>
      refine h.set mp k rfl rfl (fun j hj => s.setConnection_other hj _) ?_
      have hframe := AsyncWriter.onWritten_frame mp
        ((s.connection k).writer.taken i) ec
      simp only [State.written, State.setConnection_self,
        Connection.replyFrames, hframe]
      exact fun hopen => ⟨hopen, rfl⟩
  | _ => exact h.frame mp rfl rfl rfl

end Replying

/-! ## The messages -/

/-- What was decoded of a session and what its unread bytes hold are the
messages of the stream in order, however the stream was cut into chunks and
whatever of it is still to come. -/
def Decoding (s : State ω V Buf) : Prop :=
  ∀ k < s.created, ∀ (encode : Object → List UInt8) (msgs : List Object)
    (future : List UInt8), (∀ msg ∈ msgs, unpacker.Reads encode msg) →
    (s.connection k).received ++ future = msgs.flatMap encode →
    ∃ unread, s.decodedOf k ++ unread = msgs ∧
      (s.connection k).unparsed ++ future = unread.flatMap encode ∧
      (future = [] → unread = [])

namespace Decoding

theorem initial (app : ω) :
    Decoding unpacker (.initial disp app : State ω V Buf) :=
  fun _ hk => (nomatch hk)

/-- A handler that reads nothing and moves messages at most from the waiting to
the dispatched ones. -/
theorem frame {s s' : State ω V Buf} (h : Decoding unpacker s)
    (hcreated : s'.created = s.created)
    (hdecoded : ∀ k, s'.decodedOf k = s.decodedOf k)
    (hstream : ∀ k,
      ((s'.connection k).received, (s'.connection k).unparsed) =
        ((s.connection k).received, (s.connection k).unparsed)) :
    Decoding unpacker s' := by
  intro k hk encode msgs future hreads hreceived
  obtain ⟨hsame, hsame'⟩ := Prod.mk.inj (hstream k)
  rw [hcreated] at hk
  rw [hsame] at hreceived
  rw [hdecoded, hsame']
  exact h k hk encode msgs future hreads hreceived

/-- A new session has read nothing. -/
theorem accepted {s : State ω V Buf} (h : Decoding unpacker s)
    (hnumbered : Numbered s) (t : ThreadId) (address : SessionId) :
    Decoding unpacker (s.accepted disp t address) := by
  intro k hk encode msgs future hreads hreceived
  show ∃ unread, s.decodedOf k ++ unread = msgs ∧ _
  rcases Nat.lt_succ_iff_lt_or_eq.mp hk with hold | rfl
  · have hother : (s.accepted disp t address).connection k =
        s.connection k := s.setConnection_other (Nat.ne_of_lt hold) _
    rw [hother] at hreceived ⊢
    exact h k hold encode msgs future hreads hreceived
  · have hfresh : (s.accepted disp t address).connection s.created =
        .started ⟨address, disp, s.suppressException⟩ :=
      s.setConnection_self _ _
    rw [hfresh] at hreceived ⊢
    rw [hnumbered.decodedOf_created]
    refine ⟨msgs, rfl, hreceived, ?_⟩
    rintro rfl
    -- a message that is still to come has a byte that is still to come
    refine List.eq_nil_iff_forall_not_mem.mpr fun msg hmsg => ?_
    have hnil : msgs.flatMap encode = [] := hreceived.symm
    exact (hreads msg hmsg).ne_nil (List.flatMap_eq_nil_iff.mp hnil msg hmsg)

/-- A chunk completes the messages whose last byte it brings. -/
theorem readChunk {s : State ω V Buf} (h : Decoding unpacker s)
    (k : SessionNumber) (chunk : List UInt8) :
    Decoding unpacker ((s.endRead k).readChunk unpacker k chunk) := by
  intro j hj encode msgs future hreads hreceived
  by_cases hjk : j = k
  · subst hjk
    have hchunk : (s.connection j).received ++ (chunk ++ future) =
        msgs.flatMap encode := by
      simpa [State.readChunk, State.endRead] using hreceived
    obtain ⟨unread, rfl, hunparsed, -⟩ :=
      h j hj encode msgs (chunk ++ future) hreads hchunk
    -- the unread bytes and the chunk begin with the next messages
    rw [← List.append_assoc] at hunparsed
    obtain ⟨waiting, rfl, -, hrest, hdone⟩ := Decoder.drain_of_stream
      (fun msg hmsg => hreads msg (List.mem_append_right _ hmsg)) hunparsed
    refine ⟨waiting, ?_, ?_, hdone⟩
    · rw [State.decodedOf_readChunk, if_pos rfl, List.append_assoc]
    · simpa [State.readChunk, State.endRead] using hrest
  · have hother : ((s.endRead k).readChunk unpacker k chunk).connection j =
        s.connection j :=
      s.setConnection_twice hjk _ _
    rw [hother] at hreceived ⊢
    rw [State.decodedOf_readChunk, if_neg hjk, List.append_nil]
    exact h j hj encode msgs future hreads hreceived

theorem step {s s' : State ω V Buf} {e : Event} (h : Decoding unpacker s)
    (hnumbered : Numbered s) (hsingle : SingleThread s e)
    (hstep : step mp unpacker disp s e = some s') :
    Decoding unpacker s' := by
  cases messageStep_of_step mp unpacker disp hstep with
  | accepted t address => exact h.accepted unpacker disp hnumbered t address
  | readChunk hk chunk => exact h.readChunk unpacker _ _
  | @dispatch t i k msg htask =>
      -- the one thread takes the oldest task
      obtain ⟨-, rfl⟩ := hsingle
      refine h.frame unpacker rfl (State.decodedOf_dispatch mp s t htask) ?_
      exact State.setConnection_proj (fun c => (c.received, c.unparsed)) s
        (by rfl)
  | quiet hquiet =>
      refine h.frame unpacker hquiet.created (fun k => ?_) hquiet.stream
      unfold State.decodedOf State.dispatchedOf State.waitingOf
      rw [hquiet.dispatched, hquiet.tasks]

end Decoding

/-! ## In order -/

/-- What holds of the messages of a session while `future` is still to come. -/
structure InOrder (app : ω) (s : State ω V Buf) (k : SessionNumber)
    (msgs : List Object) (future : List UInt8) : Prop where
  /-- The messages that were dispatched, those that wait and those still unread
  are the messages of the stream; once it has arrived none is unread. -/
  arrival : ∃ unread, (s.dispatchedOf k).map Dispatched.msg ++
    s.waitingOf k ++ unread = msgs ∧ (future = [] → unread = [])
  /-- A dispatch has called what its message addresses. -/
  called : ∀ d ∈ s.dispatchedOf k, d.called = disp.callsOf mp d.msg
  /-- Nothing else has called a functor. -/
  invocations : s.invocations = s.dispatched.flatMap Dispatched.called
  /-- A message sees what the messages before it have done. -/
  linked : Linked app s.dispatched s.app
  /-- The frames follow the dispatches into `write_queue_`. -/
  replies : (s.connection k).replyFrames mp =
    (s.dispatchedOf k).flatMap (Dispatched.frames mp)
  /-- As long as a message waits, the thread goes on with the handler it is in
  or takes the next task. -/
  goesOn : s.escaped = false → s.waitingOf k ≠ [] →
    ∃ e s', (e = .resume 0 ∨ e = .dispatch 0 0) ∧
      step mp unpacker disp s e = some s'

/-- A thread with a task before it or inside a handler can take a step. -/
theorem step_of_tasks {s : State ω V Buf} (hlive : s.escaped = false)
    (htasks : s.tasks ≠ []) :
    ∃ e s', (e = .resume 0 ∨ e = .dispatch 0 0) ∧
      step mp unpacker disp s e = some s' := by
  cases hjob : s.jobs 0 with
  | none =>
      obtain ⟨⟨k, msg⟩, rest, htask⟩ := List.exists_cons_of_ne_nil htasks
      exact ⟨.dispatch 0 0, s.dispatch mp 0 0 k msg, Or.inr rfl, by
        simp [step, freeStep, State.admits, Event.thread, hlive, hjob, htask]⟩
  | some job =>
      cases job with
      | registering k =>
          exact ⟨.resume 0, s.register 0 k, Or.inl rfl, by
            simp [step, freeStep, State.admits, Event.thread, hlive, hjob]⟩
      | closing posted rest =>
          cases rest with
          | nil =>
              exact ⟨.resume 0, s.closedAll 0 posted, Or.inl rfl, by
                simp [step, freeStep, State.admits, Event.thread, hlive,
                  hjob]⟩
          | cons k rest =>
              exact ⟨.resume 0, s.closeNext 0 posted k rest, Or.inl rfl, by
                simp [step, freeStep, State.admits, Event.thread, hlive,
                  hjob]⟩

/-- On a server with one thread the messages of an open session run once each
in the order of arrival, whatever the chunks and the other sessions do, and
their replies are queued in that order. -/
theorem inOrder_of_reachable {app : ω} {s : State ω V Buf}
    (hreach : Reachable (step mp unpacker disp) SingleThread
      (.initial disp app) s) {k : SessionNumber} (hk : k < s.created)
    (hopen : (s.connection k).writer.exit = false)
    {encode : Object → List UInt8} {msgs : List Object}
    {future : List UInt8} (hreads : ∀ msg ∈ msgs, unpacker.Reads encode msg)
    (hstream : (s.connection k).received ++ future = msgs.flatMap encode) :
    InOrder mp unpacker disp app s k msgs future := by
  obtain ⟨-, hhistory, hdecoding, hreplying⟩ := hreach.invariant
    (I := fun s => Numbered s ∧ History mp disp app s ∧
      Decoding unpacker s ∧ Replying mp s)
    ⟨.initial disp app,
      .initial mp disp app, .initial unpacker disp app,
      .initial mp disp app⟩
    (fun _ _ _ ⟨hnumbered, hhistory, hdecoding, hreplying⟩ hsingle hstep =>
      ⟨hnumbered.step mp unpacker disp hstep,
        hhistory.step mp unpacker disp hstep,
        hdecoding.step mp unpacker disp hnumbered hsingle hstep,
        hreplying.step mp unpacker disp hnumbered hstep⟩)
  obtain ⟨unread, harrival, -, hdone⟩ :=
    hdecoding k hk encode msgs future hreads hstream
  refine ⟨⟨unread, harrival, hdone⟩, fun d hd => ?_, hhistory.invocations,
    hhistory.linked, hreplying k hk hopen, fun hlive hwaiting => ?_⟩
  · exact hhistory.called d (List.mem_of_mem_filter hd)
  · refine step_of_tasks mp unpacker disp hlive fun hnone => hwaiting ?_
    rw [State.waitingOf, hnone]
    rfl

/-- A server that counts: `n` adds one, `g` returns the sum. -/
def counting : Dispatcher Nat Unit :=
  ⟨(AList.singleton "n" ⟨[], true, fun count _ _ =>
      (count + 1, ⟨[], .returned .nil⟩)⟩).insert "g"
    ⟨[], false, fun count _ _ =>
      (count, ⟨[], .returned (.positiveInteger count.toUInt64)⟩)⟩⟩

/-- The notification of `n` and a call of `g`. -/
def countThenAsk : List Object :=
  [.array [.positiveInteger 2, .str "n", .array []],
    .array [.positiveInteger 0, .positiveInteger 7, .str "g", .array []]]

/-- Their bytes. -/
def countOrAskBytes : Object → List UInt8
  | .array [_, _, _] => [0x93, 2, 0xa1, 0x6e, 0x90]
  | .array [_, _, _, _] => [0x94, 0, 7, 0xa1, 0x67, 0x90]
  | _ => []

theorem countThenAsk_reads :
    ∀ msg ∈ countThenAsk, MsgPack.shortForms.Reads countOrAskBytes msg := by
  intro msg hmsg
  have hcases : msg = .array [.positiveInteger 2, .str "n", .array []] ∨
      msg = .array [.positiveInteger 0, .positiveInteger 7, .str "g",
        .array []] := by
    simpa [countThenAsk] using hmsg
  rcases hcases with rfl | rfl
  · exact .of_waits (fun rest => rfl) rfl
  · exact .of_waits (fun rest => rfl) rfl

/-- Two sessions.  The first sends both messages in two chunks, cut inside the
first message; the second sends a notification between the chunks. -/
def countedTwice : List Event :=
  [.acceptDone 0 .success 1, .resume 0, .acceptDone 0 .success 2, .resume 0,
    .readDone 0 0 .success [0x93, 2, 0xa1],
    .readDone 0 1 .success [0x93, 2, 0xa1, 0x6e, 0x90],
    .readDone 0 0 .success [0x6e, 0x90, 0x94, 0, 7, 0xa1, 0x67, 0x90],
    .dispatch 0 0, .dispatch 0 0, .dispatch 0 0, .runStrand 0 0]

/-- The call sees both notifications. -/
theorem inOrder_of_reachable_counted :
    ∃ s, run (step .reference MsgPack.shortForms counting)
        (.initial counting 0) countedTwice = some s ∧
      (s.connection 0).writer.accepted = [some (.array
        [.positiveInteger 1, .positiveInteger 7, .nil, .positiveInteger 2])] ∧
      InOrder .reference MsgPack.shortForms counting 0 s 0 countThenAsk
        [] := by
  have hends : (run (step .reference MsgPack.shortForms counting)
      (.initial counting 0) countedTwice).map (fun s =>
        (s.created, (s.connection 0).writer.exit,
          (s.connection 0).writer.accepted, (s.connection 0).received)) =
      some (2, false, [some (.array [.positiveInteger 1,
        .positiveInteger 7, .nil, .positiveInteger 2])],
        countThenAsk.flatMap countOrAskBytes) := rfl
  obtain ⟨s, hrun, hend⟩ := Option.map_eq_some_iff.mp hends
  obtain ⟨hcreated, hopen, haccepted, hreceived⟩ : s.created = 2 ∧
      (s.connection 0).writer.exit = false ∧
      (s.connection 0).writer.accepted = [some (.array [.positiveInteger 1,
        .positiveInteger 7, .nil, .positiveInteger 2])] ∧
      (s.connection 0).received = countThenAsk.flatMap countOrAskBytes := by
    simpa using hend
  have hreach : Reachable (step .reference MsgPack.shortForms counting)
      SingleThread (.initial counting 0) s :=
    reachable_of_run
      (eachStep_of_forall (by simp [countedTwice, SingleThread]) _) hrun
  refine ⟨s, hrun, haccepted, ?_⟩
  refine inOrder_of_reachable .reference MsgPack.shortForms counting hreach
    (by rw [hcreated]; decide) hopen countThenAsk_reads ?_
  rw [hreceived, List.append_nil]

end Server
end RpcLib
