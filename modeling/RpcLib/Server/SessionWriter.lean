import RpcLib.Server.Impl
import RpcLib.Transport.SocketWriter

/-!
# The writer of a session, handler by handler

`AsyncWriter::close` sets `exit_` at once and posts the closing of the socket
to the write strand.  The read handler and `close_sessions` call it on other
threads while the write strand is inside a handler.  Here the writer of one
session is taken apart as far as this makes a difference: `write` stops behind
its test of `exit_` and behind `push_back`, the completion handler behind
`pop_front`, and `close` between the store and the posts.  A dispatch task
hands its handlers to the strand one by one, and the socket takes the bytes of
the frame in progress at a time of its own.  Two tests of `exit_` with nothing
between them are one.

The posts of a `close` that runs on the strand itself may come after later
handlers of the strand; boost does not allow this, so the model has more
interleavings than the program.  `posted` and `due` are history: the code
never reads them.

* `handed_exits`: a reply is marked when its handler has called `post_exit`.
* `Flowing.step`: what holds in every run without failing writes.
-/

namespace RpcLib
namespace Server

open Protocol Transport

variable {ω V Buf : Type} (mp : MsgPack Buf)

/-- Where the write strand stands in a handler. -/
inductive Place (Buf : Type) where
  | idle
  /-- In `write`, behind the first test of `exit_`. -/
  | tested (data : Buf)
  /-- In `write`, behind `push_back` to an empty queue. -/
  | queued
  /-- In the completion handler, behind `pop_front`. -/
  | popped

/-- The frame that `write` has not queued yet. -/
def Place.inHand : Place Buf → List Buf
  | .tested data => [data]
  | .idle | .queued | .popped => []

/-- The writer of a session with its socket and its write strand, and what
other threads are about to post to it. -/
structure SessionWriter (Buf : Type) extends SocketWriter Buf where
  place : Place Buf
  strand : List StrandTask
  /-- The calls of `close` that have stored `exit_` and not posted yet. -/
  posting : Nat
  /-- The handlers that the dispatch task on a thread has still to post, each
  with whether the task has found `this_session().exit_` set. -/
  handing : ThreadId → List (Posted × Bool)
  /-- The replies posted to the strand, in order, marked in the same way. -/
  posted : List (Buf × Bool)
  /-- What `write` had accepted when `close` was first called. -/
  due : Option (List Buf)

namespace SessionWriter

/-- A session after `start`. -/
def initial : SessionWriter Buf where
  toSocketWriter := .initial
  place := .idle
  strand := []
  posting := 0
  handing := fun _ => []
  posted := []
  due := none

/-- The handlers that the dispatch of a message posts, each with whether the
task finds `this_session().exit_` set. -/
def handed (session : ServerSession ω V) (msg : Object) (w : Worker ω V) :
    List (Posted × Bool) :=
  match (session.dispatchTask mp msg).exec w with
  | (.ok posted, w') => posted.map fun p => (p, w'.thisSession.exit)
  | (.error _, _) => []

/-! ## The steps -/

/-- The store in `close`.  `closing` counts the call from here on. -/
def storeExit (c : SessionWriter Buf) : SessionWriter Buf :=
  { c with
    writer := c.writer.close
    posting := c.posting + 1
    due := c.due.or (some c.writer.accepted) }

/-- What `AsyncWriter::close` and `ServerSession::close` post. -/
def postClosing (c : SessionWriter Buf) : SessionWriter Buf :=
  { c with
    posting := c.posting - 1
    strand := c.strand ++ [.closeSocket, .closeSession] }

/-- The reply that a posted handler writes. -/
def replyOf (exits : Bool) : Posted → List (Buf × Bool)
  | .write resp => [(resp.data mp, exits)]
  | .close | .closeSessions => []

/-- A dispatch task posts its next handler. -/
def postNext (c : SessionWriter Buf) (t : ThreadId) (p : Posted)
    (exits : Bool) (rest : List (Posted × Bool)) : SessionWriter Buf :=
  { c with
    handing := Function.update c.handing t rest
    strand := c.strand ++ [.posted p]
    posted := c.posted ++ replyOf mp exits p }

/-- `write` up to its first test of `exit_`. -/
def beginWrite (c : SessionWriter Buf) (data : Buf) : SessionWriter Buf :=
  if c.writer.exit then c else { c with place := .tested data }

/-- `write` up to `do_write`, or to its end when the queue was occupied. -/
def pushBack (c : SessionWriter Buf) (data : Buf) : SessionWriter Buf :=
  let queue := c.writer.writeQueue ++ [data]
  { c with
    writer := { c.writer with
      writeQueue := queue
      accepted := c.writer.accepted ++ [data] }
    place := if queue.length > 1 then .idle else .queued }

/-- `do_write`, at the end of `write`. -/
def startWriting (c : SessionWriter Buf) : SessionWriter Buf :=
  { c with writer := c.writer.doWrite, place := .idle }

/-- The completion handler without an error, up to `pop_front`. -/
def popWritten (c : SessionWriter Buf) : SessionWriter Buf :=
  { c with
    writer := (c.writer.taken 0).popFront .success
    transferred := false
    place := .popped }

/-- The rest of the completion handler. -/
def continueWriting (c : SessionWriter Buf) : SessionWriter Buf :=
  { c with writer := c.writer.continueWriting, place := .idle }

/-- Run a handler of the strand.  What `close_sessions` does to this session
is a call of `close`. -/
def runTask (c : SessionWriter Buf) : StrandTask → SessionWriter Buf
  | .posted (.write resp) => c.beginWrite (resp.data mp)
  | .posted .close => c.storeExit
  | .closeSocket => { c with writer := c.writer.closeSocket }
  | .posted .closeSessions | .closeSession => c

/-- What can happen.  No write fails. -/
inductive Event (ω V : Type) where
  /-- A dispatch task of the session runs on a thread and is about to post. -/
  | dispatch (t : ThreadId) (session : ServerSession ω V) (msg : Object)
      (w : Worker ω V)
  | post (t : ThreadId)
  /-- The strand begins its next handler. -/
  | run
  /-- The strand goes on with the handler that it is in. -/
  | proceed
  /-- `close` on another thread, in the read handler or in
  `close_sessions`. -/
  | storeExit
  | postClosing
  /-- The socket takes the rest of the frame in progress. -/
  | transfer
  /-- The strand begins the completion handler of that frame. -/
  | complete

def step (c : SessionWriter Buf) : Event ω V → Option (SessionWriter Buf)
  | .dispatch t session msg w =>
      match c.handing t with
      | [] =>
          some { c with
            handing := Function.update c.handing t (handed mp session msg w) }
      | _ :: _ => none
  | .post t =>
      match c.handing t with
      | [] => none
      | (p, exits) :: rest => some (c.postNext mp t p exits rest)
  | .run =>
      match c.place, c.strand with
      | .idle, task :: rest =>
          some (({ c with strand := rest } : SessionWriter Buf).runTask mp
            task)
      | _, _ => none
  | .proceed =>
      match c.place with
      | .idle => none
      | .tested data => some (c.pushBack data)
      | .queued => some c.startWriting
      | .popped => some c.continueWriting
  | .storeExit => some c.storeExit
  | .postClosing => if 0 < c.posting then some c.postClosing else none
  | .transfer =>
      match c.writer.outstanding with
      | [] => none
      | item :: _ =>
          if c.writer.socketOpen = true ∧ c.transferred = false then
            some { c with transferred := true, sent := c.sent ++ [item] }
          else none
  | .complete =>
      match c.place with
      | .idle => if c.transferred then some c.popWritten else none
      | _ => none

/-- The states that an event leads to, with what enables it. -/
inductive Effect (c : SessionWriter Buf) :
    Event ω V → SessionWriter Buf → Prop
  | dispatch {t : ThreadId} {session : ServerSession ω V} {msg : Object}
      {w : Worker ω V} :
      Effect c (.dispatch t session msg w)
        { c with
          handing := Function.update c.handing t (handed mp session msg w) }
  | post {t : ThreadId} {p : Posted} {exits : Bool}
      {rest : List (Posted × Bool)}
      (hhanding : c.handing t = (p, exits) :: rest) :
      Effect c (.post t) (c.postNext mp t p exits rest)
  | refuse {resp : Response} {rest : List StrandTask}
      (hidle : c.place = .idle)
      (hstrand : c.strand = .posted (.write resp) :: rest)
      (hexit : c.writer.exit = true) : Effect c .run { c with strand := rest }
  | test {resp : Response} {rest : List StrandTask}
      (hidle : c.place = .idle)
      (hstrand : c.strand = .posted (.write resp) :: rest)
      (hopen : c.writer.exit = false) :
      Effect c .run
        { c with strand := rest, place := .tested (resp.data mp) }
  | close {rest : List StrandTask} (hidle : c.place = .idle)
      (hstrand : c.strand = .posted .close :: rest) :
      Effect c .run ({ c with strand := rest } : SessionWriter Buf).storeExit
  | closeSocket {rest : List StrandTask} (hidle : c.place = .idle)
      (hstrand : c.strand = .closeSocket :: rest) :
      Effect c .run
        { c with strand := rest, writer := c.writer.closeSocket }
  | skip {task : StrandTask} {rest : List StrandTask}
      (hidle : c.place = .idle) (hstrand : c.strand = task :: rest)
      (htask : task = .posted .closeSessions ∨ task = .closeSession) :
      Effect c .run { c with strand := rest }
  | push {data : Buf} (hplace : c.place = .tested data) :
      Effect c .proceed (c.pushBack data)
  | start (hplace : c.place = .queued) : Effect c .proceed c.startWriting
  | continue_ (hplace : c.place = .popped) :
      Effect c .proceed c.continueWriting
  | storeExit : Effect c .storeExit c.storeExit
  | postClosing (hposting : 0 < c.posting) :
      Effect c .postClosing c.postClosing
  | transfer {item : Buf} {rest : List Buf}
      (houtstanding : c.writer.outstanding = item :: rest)
      (hopen : c.writer.socketOpen = true) (hnot : c.transferred = false) :
      Effect c .transfer
        { c with transferred := true, sent := c.sent ++ [item] }
  | complete (hidle : c.place = .idle) (htransferred : c.transferred = true) :
      Effect c .complete c.popWritten

theorem effect_of_step {c c' : SessionWriter Buf} {e : Event ω V}
    (hstep : step mp c e = some c') : Effect mp c e c' := by
  cases e with
  | dispatch t session msg w =>
      unfold step at hstep
      dsimp only at hstep
      split at hstep
      · obtain rfl := Option.some.inj hstep
        exact .dispatch
      · cases hstep
  | post t =>
      unfold step at hstep
      dsimp only at hstep
      split at hstep
      · cases hstep
      · obtain rfl := Option.some.inj hstep
        exact .post ‹_›
  | run =>
      unfold step at hstep
      dsimp only at hstep
      split at hstep
      · rename_i task rest hidle hstrand
        obtain rfl := Option.some.inj hstep
        cases task with
        | posted p =>
            cases p with
            | write resp =>
                show Effect mp c .run
                  (if c.writer.exit = true then _ else _)
                cases hexit : c.writer.exit with
                | true => exact .refuse hidle hstrand hexit
                | false => exact .test hidle hstrand hexit
            | close => exact .close hidle hstrand
            | closeSessions => exact .skip hidle hstrand (Or.inl rfl)
        | closeSocket => exact .closeSocket hidle hstrand
        | closeSession => exact .skip hidle hstrand (Or.inr rfl)
      · cases hstep
  | proceed =>
      unfold step at hstep
      dsimp only at hstep
      split at hstep
      · cases hstep
      · obtain rfl := Option.some.inj hstep
        exact .push ‹_›
      · obtain rfl := Option.some.inj hstep
        exact .start ‹_›
      · obtain rfl := Option.some.inj hstep
        exact .continue_ ‹_›
  | storeExit =>
      obtain rfl := Option.some.inj hstep
      exact .storeExit
  | postClosing =>
      obtain ⟨hposting, rfl⟩ : 0 < c.posting ∧ c.postClosing = c' := by
        simpa [step] using hstep
      exact .postClosing hposting
  | transfer =>
      unfold step at hstep
      dsimp only at hstep
      split at hstep
      · cases hstep
      · split at hstep
        · rename_i item rest houtstanding htakes
          obtain rfl := Option.some.inj hstep
          exact .transfer houtstanding htakes.1 htakes.2
        · cases hstep
  | complete =>
      unfold step at hstep
      dsimp only at hstep
      split at hstep
      · split at hstep
        · obtain rfl := Option.some.inj hstep
          exact .complete ‹_› ‹_›
        · cases hstep
      · cases hstep

/-! ## The handlers as a whole -/

/-- Without a `close` in between, the parts of `write` are `write`. -/
theorem pushBack_write {c : SessionWriter Buf} (hopen : c.writer.exit = false)
    (data : Buf) :
    (match (c.pushBack data).place with
      | .queued => (c.pushBack data).startWriting
      | _ => c.pushBack data) =
      { c with writer := (c.writer.write mp data).1, place := .idle } := by
  by_cases hqueue : c.writer.writeQueue = []
  · rw [AsyncWriter.write_of_empty mp hopen hqueue]
    simp [pushBack, hqueue, startWriting, AsyncWriter.doWrite, hopen]
  · rw [AsyncWriter.write_of_occupied mp hopen hqueue]
    have hlength : 0 < c.writer.writeQueue.length :=
      List.length_pos_iff.mpr hqueue
    simp [pushBack, hlength]

/-- Without a `close` in between, the parts of the completion handler are the
completion handler. -/
theorem popWritten_onWritten (c : SessionWriter Buf) :
    c.popWritten.continueWriting =
      { c with
        writer := ((c.writer.taken 0).onWritten mp .success).1
        transferred := false
        place := .idle } := rfl

/-- A reply that a dispatch hands over is marked exactly when the handler of
the message has called `post_exit`. -/
theorem handed_exits (session : ServerSession ω V) (msg : Object)
    (w : Worker ω V) :
    ∀ p ∈ handed mp session msg w,
      p.2 = true ↔ .postExit ∈ session.requestsOf mp msg w := by
  intro p hp
  unfold handed at hp
  split at hp
  · rename_i posted w' hexec
    obtain ⟨q, -, rfl⟩ := List.mem_map.mp hp
    obtain ⟨hstate, -⟩ := ServerSession.dispatchTask_posted mp hexec
    have hexit := (session.disp.dispatch_requests mp msg
      session.suppressExceptions (session.prepare w)).1
    rw [hstate]
    exact hexit.trans (or_iff_right (by simp [ServerSession.prepare]))
  · cases hp

/-! ## What holds of every run -/

/-- The replies that the strand has not begun to write. -/
def waiting (strand : List StrandTask) : List Buf :=
  strand.filterMap fun
    | .posted (.write resp) => some (resp.data mp)
    | _ => none

/-- What holds of every session whose writes do not fail, closed or not. -/
structure Flowing (c : SessionWriter Buf) : Prop where
  accepted : c.writer.popped.map Prod.fst ++ c.writer.writeQueue =
    c.writer.accepted
  started : c.writer.popped.map Prod.fst ++ c.writer.outstanding =
    c.writer.started
  running : c.writer.outstanding = c.writer.writeQueue.take 1 ∨
    c.writer.outstanding = []
  idle : c.writer.exit = false → c.place ≠ .queued → c.place ≠ .popped →
    c.writer.outstanding = c.writer.writeQueue.take 1
  between : c.place = .queued ∨ c.place = .popped → c.writer.outstanding = []
  sent : c.sent = if c.transferred then c.writer.started
    else c.writer.popped.map Prod.fst
  inProgress : c.transferred = true → c.writer.outstanding ≠ []
  posted : c.writer.accepted ++ c.place.inHand <+: c.posted.map Prod.fst
  strand : c.writer.exit = false → c.posted.map Prod.fst =
    c.writer.accepted ++ c.place.inHand ++ waiting mp c.strand
  opened : c.writer.exit = false → c.writer.socketOpen = true ∧
    c.writer.closing = 0 ∧ c.posting = 0 ∧ c.due = none
  posts : c.writer.exit = false → .closeSocket ∉ c.strand
  closed : c.writer.exit = true →
    (∃ due, c.due = some due ∧ c.writer.started <+: due) ∧
      (c.writer.socketOpen = true → 0 < c.writer.closing)

theorem Flowing.initial : Flowing mp (initial : SessionWriter Buf) where
  accepted := rfl
  started := rfl
  running := Or.inl rfl
  idle := fun _ _ _ => rfl
  between := fun _ => rfl
  sent := rfl
  inProgress := by simp [SessionWriter.initial, SocketWriter.initial]
  posted := List.nil_prefix
  strand := fun _ => rfl
  opened := fun _ => ⟨rfl, rfl, rfl, rfl⟩
  posts := fun _ => by simp [SessionWriter.initial]
  closed := fun hexit => by
    simp [SessionWriter.initial, SocketWriter.initial,
      AsyncWriter.initial] at hexit

@[simp] theorem waiting_append (strand strand' : List StrandTask) :
    waiting mp (strand ++ strand') = waiting mp strand ++ waiting mp strand' :=
  List.filterMap_append ..

namespace Flowing

variable {mp}

/-- A write in progress is the only one and writes the front. -/
theorem single {c : SessionWriter Buf} (h : Flowing mp c) {item : Buf}
    {rest : List Buf} (houtstanding : c.writer.outstanding = item :: rest) :
    rest = [] ∧ ∃ behind, c.writer.writeQueue = item :: behind := by
  rcases h.running with htake | hnone
  · cases hqueue : c.writer.writeQueue with
    | nil => simp [htake, hqueue] at houtstanding
    | cons front behind =>
        rw [htake, hqueue] at houtstanding
        obtain ⟨rfl, hrest⟩ := List.cons.inj houtstanding
        exact ⟨hrest.symm, behind, rfl⟩
  · cases hnone.symm.trans houtstanding

/-- What is started was accepted. -/
theorem started_prefix {c : SessionWriter Buf} (h : Flowing mp c) :
    c.writer.started <+: c.writer.accepted := by
  rw [← h.started, ← h.accepted, List.prefix_append_right_inj]
  rcases h.running with htake | hnone
  · rw [htake]
    exact List.take_prefix 1 _
  · rw [hnone]
    exact List.nil_prefix

/-- What the socket has taken was started. -/
theorem sent_prefix {c : SessionWriter Buf} (h : Flowing mp c) :
    c.sent <+: c.writer.started := by
  rw [h.sent]
  split
  · exact List.prefix_rfl
  · rw [← h.started]
    exact List.prefix_append _ _

theorem post {c : SessionWriter Buf} (h : Flowing mp c) {t : ThreadId}
    {p : Posted} {exits : Bool} {rest : List (Posted × Bool)} :
    Flowing mp (c.postNext mp t p exits rest) := by
  have hreply : (replyOf mp exits p).map Prod.fst =
      waiting mp [.posted p] := by
    cases p <;> rfl
  have hposted : (c.postNext mp t p exits rest).posted.map Prod.fst =
      c.posted.map Prod.fst ++ waiting mp [.posted p] := by
    rw [← hreply]
    exact List.map_append
  refine { h with posted := ?_, strand := fun hopen => ?_,
                  posts := fun hopen => ?_ }
  · rw [hposted]
    exact h.posted.trans (List.prefix_append _ _)
  · rw [hposted, h.strand hopen]
    show _ = c.writer.accepted ++ c.place.inHand ++
      waiting mp (c.strand ++ [.posted p])
    rw [waiting_append, List.append_assoc _ (waiting mp c.strand)]
  · show StrandTask.closeSocket ∉ c.strand ++ [.posted p]
    simp [h.posts hopen]

/-- `write` takes the next reply off the strand. -/
theorem test {c : SessionWriter Buf} (h : Flowing mp c) {resp : Response}
    {rest : List StrandTask} (hidle : c.place = .idle)
    (hstrand : c.strand = .posted (.write resp) :: rest)
    (hopen : c.writer.exit = false) :
    Flowing mp { c with strand := rest, place := .tested (resp.data mp) } := by
  have hposted : c.posted.map Prod.fst =
      c.writer.accepted ++ [resp.data mp] ++ waiting mp rest := by
    rw [h.strand hopen, hidle, hstrand]
    simp [Place.inHand, waiting]
  refine { h with
    idle := fun hexit _ _ => h.idle hexit (by simp [hidle]) (by simp [hidle])
    between := fun hplace => by simp at hplace
    posted := ⟨_, hposted.symm⟩
    strand := fun _ => hposted
    posts := fun hexit => ?_ }
  have hnone := h.posts hexit
  rw [hstrand] at hnone
  exact fun hmem => hnone (List.mem_cons_of_mem _ hmem)

/-- Any other handler that a session skips or refuses. -/
theorem skip {c : SessionWriter Buf} (h : Flowing mp c) {task : StrandTask}
    {rest : List StrandTask} (hstrand : c.strand = task :: rest)
    (htask : c.writer.exit = false → waiting mp [task] = []) :
    Flowing mp { c with strand := rest } := by
  refine { h with strand := fun hopen => ?_, posts := fun hopen => ?_ }
  · have hwaiting : waiting mp c.strand =
        waiting mp [task] ++ waiting mp rest := by
      rw [hstrand, ← waiting_append]
      rfl
    rw [htask hopen, List.nil_append] at hwaiting
    show c.posted.map Prod.fst = _
    rw [h.strand hopen, hwaiting]
  · have hnone := h.posts hopen
    rw [hstrand] at hnone
    exact fun hmem => hnone (List.mem_cons_of_mem _ hmem)

theorem push {c : SessionWriter Buf} (h : Flowing mp c) {data : Buf}
    (hplace : c.place = .tested data) : Flowing mp (c.pushBack data) := by
  have hwriter : (c.pushBack data).writer =
      { c.writer with
        writeQueue := c.writer.writeQueue ++ [data]
        accepted := c.writer.accepted ++ [data] } := rfl
  have hinHand : (c.pushBack data).place.inHand = [] := by
    unfold pushBack
    dsimp only
    split <;> rfl
  have hidle : c.writer.exit = false →
      c.writer.outstanding = c.writer.writeQueue.take 1 :=
    fun hopen => h.idle hopen (by simp [hplace]) (by simp [hplace])
  have hposted : c.writer.accepted ++ [data] <+: c.posted.map Prod.fst := by
    have hbefore := h.posted
    rw [hplace] at hbefore
    exact hbefore
  by_cases hqueue : c.writer.writeQueue = []
  · -- the frame is the only one and nothing is in progress
    have hnone : c.writer.outstanding = [] := by
      rcases h.running with htake | hnone
      · rw [htake, hqueue]
        rfl
      · exact hnone
    have hqueued : (c.pushBack data).place = .queued := by
      simp [pushBack, hqueue]
    refine { h with
      accepted := ?_
      running := Or.inr hnone
      idle := fun _ hne => absurd hqueued hne
      between := fun _ => hnone
      posted := ?_
      strand := fun hopen => ?_ }
    · rw [hwriter]
      show c.writer.popped.map Prod.fst ++ (c.writer.writeQueue ++ [data]) = _
      rw [← List.append_assoc, h.accepted]
    · rw [hwriter, hinHand, List.append_nil]
      exact hposted
    · rw [hwriter, hinHand, List.append_nil]
      have hbefore := h.strand hopen
      rw [hplace] at hbefore
      exact hbefore
  · obtain ⟨front, behind, hfront⟩ := List.exists_cons_of_ne_nil hqueue
    have hidles : (c.pushBack data).place = .idle := by
      simp [pushBack, hfront]
    have htake : (c.writer.writeQueue ++ [data]).take 1 =
        c.writer.writeQueue.take 1 := by
      simp [hfront]
    refine { h with
      accepted := ?_
      running := ?_
      idle := fun hopen _ _ => (hidle hopen).trans htake.symm
      between := fun hbetween => by simp [hidles] at hbetween
      posted := ?_
      strand := fun hopen => ?_ }
    · rw [hwriter]
      show c.writer.popped.map Prod.fst ++ (c.writer.writeQueue ++ [data]) = _
      rw [← List.append_assoc, h.accepted]
    · exact h.running.imp_left fun hrunning => hrunning.trans htake.symm
    · rw [hwriter, hinHand, List.append_nil]
      exact hposted
    · rw [hwriter, hinHand, List.append_nil]
      have hbefore := h.strand hopen
      rw [hplace] at hbefore
      exact hbefore

/-- `do_write` behind `push_back` or `pop_front`, when nothing is in
progress. -/
theorem start {c : SessionWriter Buf} (h : Flowing mp c)
    (hbetween : c.place = .queued ∨ c.place = .popped) :
    Flowing mp c.startWriting := by
  have hnone := h.between hbetween
  have hinHand : c.place.inHand = [] := by
    rcases hbetween with hplace | hplace <;> rw [hplace] <;> rfl
  have hnot : c.transferred = false := by
    by_contra htransferred
    exact h.inProgress (by simpa using htransferred) hnone
  have hposted := h.posted
  have hstrand := h.strand
  rw [hinHand] at hposted hstrand
  by_cases hrests : c.writer.exit = true ∨ c.writer.writeQueue = []
  · have hsame : c.writer.doWrite = c.writer := by
      unfold AsyncWriter.doWrite
      rcases hrests with hexit | hempty
      · simp [hexit]
      · simp [hempty]
    unfold startWriting
    rw [hsame]
    refine { h with
      idle := fun hopen _ _ => ?_
      between := fun _ => hnone
      posted := hposted
      strand := hstrand }
    have hempty : c.writer.writeQueue = [] :=
      hrests.resolve_left (by simpa using hopen)
    rw [hempty, hnone]
    rfl
  · rw [not_or] at hrests
    obtain ⟨front, behind, hqueue⟩ := List.exists_cons_of_ne_nil hrests.2
    have hopen : c.writer.exit = false := by simpa using hrests.1
    have hwriter : c.writer.doWrite = { c.writer with
        outstanding := c.writer.outstanding ++ [front]
        started := c.writer.started ++ [front] } := by
      simp [AsyncWriter.doWrite, hopen, hqueue]
    have hfront : c.writer.outstanding ++ [front] =
        c.writer.writeQueue.take 1 := by
      simp [hnone, hqueue]
    unfold startWriting
    rw [hwriter]
    refine { h with
      started := ?_
      running := Or.inl hfront
      idle := fun _ _ _ => hfront
      between := fun hplace => by simp at hplace
      sent := ?_
      inProgress := fun _ => by simp
      posted := hposted
      strand := hstrand
      closed := fun hexit => ?_ }
    · show c.writer.popped.map Prod.fst ++
        (c.writer.outstanding ++ [front]) = c.writer.started ++ [front]
      rw [← List.append_assoc, h.started]
    · have hsent := h.sent
      rw [hnot, if_neg (by simp)] at hsent ⊢
      exact hsent
    · cases hopen.symm.trans hexit

theorem continue_ {c : SessionWriter Buf} (h : Flowing mp c)
    (hplace : c.place = .popped) : Flowing mp c.continueWriting := by
  have hsame : c.writer.continueWriting = c.writer.doWrite := by
    unfold AsyncWriter.continueWriting AsyncWriter.doWrite
    cases hexit : c.writer.exit with
    | true => simp
    | false => cases hqueue : c.writer.writeQueue <;> simp
  unfold continueWriting
  rw [hsame]
  exact h.start (Or.inr hplace)

theorem complete {c : SessionWriter Buf} (h : Flowing mp c)
    (hidle : c.place = .idle) (htransferred : c.transferred = true) :
    Flowing mp c.popWritten := by
  obtain ⟨item, rest, houtstanding⟩ :=
    List.exists_cons_of_ne_nil (h.inProgress htransferred)
  obtain ⟨rfl, behind, hqueue⟩ := h.single houtstanding
  have hwriter : (c.writer.taken 0).popFront .success =
      { c.writer with
        writeQueue := behind
        outstanding := []
        popped := c.writer.popped ++ [(item, .success)] } := by
    simp [AsyncWriter.popFront, AsyncWriter.taken, hqueue, houtstanding]
  have hposted := h.posted
  have hstrand := h.strand
  rw [hidle] at hposted hstrand
  unfold popWritten
  rw [hwriter]
  refine { h with
    accepted := ?_
    started := ?_
    running := Or.inr rfl
    idle := fun _ _ hne => absurd rfl hne
    between := fun _ => rfl
    sent := ?_
    inProgress := by simp
    posted := hposted
    strand := hstrand }
  · rw [← h.accepted, hqueue]
    simp
  · rw [← h.started, houtstanding]
    simp
  · rw [h.sent, if_pos htransferred, if_neg (by simp), ← h.started,
      houtstanding]
    simp

theorem transfer {c : SessionWriter Buf} (h : Flowing mp c) {item : Buf}
    {rest : List Buf} (houtstanding : c.writer.outstanding = item :: rest)
    (hnot : c.transferred = false) :
    Flowing mp { c with transferred := true, sent := c.sent ++ [item] } := by
  obtain ⟨rfl, -⟩ := h.single houtstanding
  have hsent := h.sent
  rw [hnot, if_neg (by simp)] at hsent
  refine { h with sent := ?_, inProgress := fun _ => by simp [houtstanding] }
  rw [if_pos rfl, ← h.started, hsent, houtstanding]

theorem storeExit {c : SessionWriter Buf} (h : Flowing mp c) :
    Flowing mp c.storeExit := by
  refine { h with
    idle := fun hopen => by simp [SessionWriter.storeExit,
      AsyncWriter.close] at hopen
    strand := fun hopen => by simp [SessionWriter.storeExit,
      AsyncWriter.close] at hopen
    opened := fun hopen => by simp [SessionWriter.storeExit,
      AsyncWriter.close] at hopen
    posts := fun hopen => by simp [SessionWriter.storeExit,
      AsyncWriter.close] at hopen
    closed := fun _ => ⟨?_, fun _ => Nat.succ_pos _⟩ }
  cases hexit : c.writer.exit with
  | true =>
      obtain ⟨due, hdue, hstarted⟩ := (h.closed hexit).1
      exact ⟨due, by simp [SessionWriter.storeExit, hdue], hstarted⟩
  | false =>
      exact ⟨c.writer.accepted,
        by simp [SessionWriter.storeExit, (h.opened hexit).2.2.2],
        h.started_prefix⟩

theorem postClosing {c : SessionWriter Buf} (h : Flowing mp c)
    (hposting : 0 < c.posting) : Flowing mp c.postClosing := by
  have hexit : c.writer.exit = true := by
    by_contra hopen
    have hnone := (h.opened (by simpa using hopen)).2.2.1
    omega
  refine { h with
    strand := fun hopen => ?_
    opened := fun hopen => ?_
    posts := fun hopen => ?_ } <;>
  · cases hexit.symm.trans hopen

/-- The closing step was posted by a `close`. -/
theorem closeSocket {c : SessionWriter Buf} (h : Flowing mp c)
    {rest : List StrandTask} (hstrand : c.strand = .closeSocket :: rest) :
    c.writer.exit = true ∧
      Flowing mp { c with
        strand := rest, writer := c.writer.closeSocket } := by
  have hexit : c.writer.exit = true := by
    by_contra hopen
    exact h.posts (by simpa using hopen) (by simp [hstrand])
  refine ⟨hexit, { h with
    strand := fun hopen => ?_
    opened := fun hopen => ?_
    posts := fun hopen => ?_
    closed := fun _ => ⟨(h.closed hexit).1, fun hsocket => ?_⟩ }⟩
  · cases hexit.symm.trans hopen
  · cases hexit.symm.trans hopen
  · cases hexit.symm.trans hopen
  · simp [AsyncWriter.closeSocket] at hsocket

theorem step {c c' : SessionWriter Buf} {e : Event ω V} (h : Flowing mp c)
    (hstep : step mp c e = some c') : Flowing mp c' := by
  cases effect_of_step mp hstep with
  | dispatch => exact { h with }
  | post hhanding => exact h.post
  | refuse hidle hstrand hexit =>
      exact h.skip hstrand fun hopen => by cases hexit.symm.trans hopen
  | test hidle hstrand hopen => exact h.test hidle hstrand hopen
  | close hidle hstrand =>
      exact (h.skip hstrand fun _ => rfl).storeExit
  | closeSocket hidle hstrand => exact (h.closeSocket hstrand).2
  | skip hidle hstrand htask =>
      exact h.skip hstrand fun _ => by rcases htask with rfl | rfl <;> rfl
  | push hplace => exact h.push hplace
  | start hplace => exact h.start (Or.inl hplace)
  | continue_ hplace => exact h.continue_ hplace
  | storeExit => exact h.storeExit
  | postClosing hposting => exact h.postClosing hposting
  | transfer houtstanding hopen hnot => exact h.transfer houtstanding hnot
  | complete hidle htransferred => exact h.complete hidle htransferred

end Flowing

end SessionWriter
end Server
end RpcLib
