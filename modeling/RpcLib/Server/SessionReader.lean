import RpcLib.Server.Step
import RpcLib.Transport.ReadBuffer

/-!
# `ServerSession::do_read`: the read loop of a session

The completion handler looks at `is_closed()` before it does anything, again
for every message that `next` finds, and once more before it makes room and
reads again.  Between two of these tests another thread may close the session;
`closing` says before which test of the handler this happens.

* `onRead_reads`: a handler reads again, once, exactly when its read has
  succeeded and none of its tests has found the session closed.
* `session_readLoop`: over any run of completions and closes the buffer is
  safe and reads follow completions in this way.
* `reader_of_reachable`: every session of the server is such a reader.
-/

namespace RpcLib
namespace Server

open Transport Foundation TransitionSystem

variable {U : Type} (unpacker : Unpacker U)

/-- A session as its read handler sees it.  `posted` and `tests` are history:
how many dispatch tasks it has posted, and what the calls of `is_closed()` in
the last handler have returned. -/
structure SessionReader (U : Type) where
  buffer : ReadBuffer U
  closed : Bool
  posted : Nat
  tests : List Bool

namespace SessionReader

/-- The session after its constructor and `start`. -/
def started : SessionReader U where
  buffer := (ReadBuffer.constructed unpacker).asyncReadSome unpacker
  closed := false
  posted := 0
  tests := []

/-- The next call of `is_closed()` in a handler. -/
def isClosed (closing : Option Nat) (s : SessionReader U) : Bool :=
  s.closed || closing.any fun n => n ≤ s.tests.length

/-- The session after this call. -/
def tested (closing : Option Nat) (s : SessionReader U) : SessionReader U :=
  { s with tests := s.tests ++ [s.isClosed closing] }

def onNext (s : SessionReader U) : SessionReader U :=
  { s with buffer := s.buffer.next unpacker }

/-- `while(unpac_.next(result) && !is_closed())`, with a dispatch task posted
for each message.  The last call of `next` finds no message, and then
`is_closed()` is not called. -/
def loop (closing : Option Nat) :
    Nat → SessionReader U → SessionReader U
  | 0, s => s.onNext unpacker
  | messages + 1, s =>
      let s := s.onNext unpacker
      let found := s.isClosed closing
      let s := s.tested closing
      -- the message that `next` has taken out is dropped
      if found then s
      else loop closing messages { s with posted := s.posted + 1 }

/-- The end of the handler of a successful read. -/
def readAgain (closing : Option Nat) (s : SessionReader U) :
    SessionReader U :=
  let found := s.isClosed closing
  let s := s.tested closing
  if found then s
  else
    { s with buffer := (s.buffer.makeRoom unpacker).asyncReadSome unpacker }

/-- The completion handler of `async_read_some`, when the chunk completes as
many messages. -/
def onRead (s : SessionReader U) (ec : ErrorCode) (length messages : Nat)
    (closing : Option Nat) : SessionReader U :=
  let s := { s with buffer := s.buffer.completed, tests := [] }
  let found := s.isClosed closing
  let s := s.tested closing
  -- not even the error code is looked at
  if found then s
  else
    match ec with
    | .success =>
        let s := { s with buffer := s.buffer.bufferConsumed unpacker length }
        (s.loop unpacker closing messages).readAgain unpacker closing
    | .eof => { s with closed := true }
    | .connectionReset => { s with closed := true }
    | _ => s

/-- What can happen to a session that is read from. -/
inductive Event where
  | readDone (ec : ErrorCode) (length messages : Nat) (closing : Option Nat)
  /-- A call of `close()` between two handlers. -/
  | close

/-- A read gives at most the bytes that were asked for. -/
def step (s : SessionReader U) : Event → Option (SessionReader U)
  | .readDone ec length messages closing =>
      if 0 < s.buffer.reading ∧ length ≤ defaultBufferSize then
        let s := s.onRead unpacker ec length messages closing
        some { s with closed := s.closed || closing.isSome }
      else none
  | .close => some { s with closed := true }

/-! ## What the handler does -/

/-- The loop changes the unpacker only, and no further than its tests. -/
theorem loop_frame (closing : Option Nat) (messages : Nat)
    (s : SessionReader U) :
    (s.loop unpacker closing messages).buffer.issued = s.buffer.issued ∧
      (s.loop unpacker closing messages).buffer.reading = s.buffer.reading ∧
      (s.loop unpacker closing messages).closed = s.closed := by
  induction messages generalizing s with
  | zero => exact ⟨rfl, rfl, rfl⟩
  | succ messages ih =>
      unfold loop
      dsimp only
      split
      · exact ⟨rfl, rfl, rfl⟩
      · exact ih _

/-- A test that has found the session closed is followed by such tests only:
whoever has found it closed in the loop does so at the end as well. -/
theorem loop_tests (closing : Option Nat) (messages : Nat)
    {s : SessionReader U} (hopen : true ∉ s.tests) :
    true ∈ (s.loop unpacker closing messages).tests →
      (s.loop unpacker closing messages).isClosed closing = true := by
  induction messages generalizing s with
  | zero => exact fun hfound => absurd hfound hopen
  | succ messages ih =>
      unfold loop
      dsimp only
      split
      · rename_i hclosed
        intro _
        -- the flag stays up, and later tests have greater numbers
        unfold isClosed at hclosed ⊢
        rcases Bool.or_eq_true_iff.mp hclosed with hflag | hlate
        · exact Bool.or_eq_true_iff.mpr (Or.inl hflag)
        · refine Bool.or_eq_true_iff.mpr (Or.inr ?_)
          cases closing with
          | none => cases hlate
          | some n =>
              have hle : n ≤ s.tests.length := of_decide_eq_true hlate
              have hle' : n ≤ s.tests.length + 1 := Nat.le_succ_of_le hle
              simpa [tested, onNext] using hle'
      · rename_i hnot
        apply ih
        have hfalse : (s.onNext unpacker).isClosed closing = false := by
          simpa using hnot
        show true ∉ s.tests ++ [(s.onNext unpacker).isClosed closing]
        rw [hfalse]
        simp [hopen]

/-- The end of a handler reads again, once, exactly when it finds the session
open. -/
theorem readAgain_frame (closing : Option Nat) (s : SessionReader U) :
    (s.readAgain unpacker closing).tests = s.tests ++ [s.isClosed closing] ∧
      (s.readAgain unpacker closing).closed = s.closed ∧
      (s.readAgain unpacker closing).buffer =
        if s.isClosed closing then s.buffer
        else (s.buffer.makeRoom unpacker).asyncReadSome unpacker := by
  unfold readAgain
  dsimp only
  split <;> exact ⟨rfl, rfl, rfl⟩

/-- When a test in the handler finds the session closed, so does its last
one. -/
theorem isClosed_of_found {closing : Option Nat} {s : SessionReader U}
    (hloop : true ∈ s.tests → s.isClosed closing = true)
    (hfound : true ∈ (s.readAgain unpacker closing).tests) :
    s.isClosed closing = true := by
  rw [(readAgain_frame unpacker closing s).1] at hfound
  rcases List.mem_append.mp hfound with hold | hlast
  · exact hloop hold
  · exact (List.mem_singleton.mp hlast).symm

theorem readAgain_of_found {closing : Option Nat} {s : SessionReader U}
    (hclosed : s.isClosed closing = true) :
    (s.readAgain unpacker closing).buffer = s.buffer := by
  rw [(readAgain_frame unpacker closing s).2.2, hclosed]
  rfl

/-- When none does, the handler reads again, once. -/
theorem readAgain_of_open {closing : Option Nat} {s : SessionReader U}
    (hopen : true ∉ (s.readAgain unpacker closing).tests) :
    ∃ issue, (s.readAgain unpacker closing).buffer.issued =
      s.buffer.issued ++ [issue] := by
  obtain ⟨htests, -, hbuffer⟩ := readAgain_frame unpacker closing s
  have hfalse : s.isClosed closing = false := by
    rw [Bool.eq_false_iff]
    intro htrue
    apply hopen
    rw [htests, htrue]
    simp
  rw [hbuffer, hfalse]
  exact ReadBuffer.readAgain_issued unpacker s.buffer

/-- What the handler makes of the reads: it reads again, once, after a
successful read, if none of its tests has found the session closed, and
otherwise not at all. -/
structure Reads (s : SessionReader U) (ec : ErrorCode)
    (s' : SessionReader U) : Prop where
  again : ec = .success → true ∉ s'.tests →
    ∃ issue, s'.buffer.issued = s.buffer.issued ++ [issue]
  ends : ec ≠ .success ∨ true ∈ s'.tests →
    s'.buffer.issued = s.buffer.issued
  /-- A handler after which the session is open has found it open. -/
  open_ : s'.closed = false → true ∉ s'.tests

/-- The handler after its first test. -/
def begun (s : SessionReader U) (closing : Option Nat) : SessionReader U :=
  { s with buffer := s.buffer.completed, tests := [] }.tested closing

/-- The session with the bytes of its chunk. -/
def received (s : SessionReader U) (closing : Option Nat) (length : Nat) :
    SessionReader U :=
  { s.begun closing with
    buffer := s.buffer.completed.bufferConsumed unpacker length }

/-- What a handler does, by what its first test has found and by the error
code: it ends at once, reads on, or ends the session. -/
inductive Effect (s : SessionReader U) (closing : Option Nat) :
    ErrorCode → Nat → Nat → SessionReader U → Prop
  | found (ec : ErrorCode) (length messages : Nat)
      (hfound : true ∈ (s.begun closing).tests) :
      Effect s closing ec length messages (s.begun closing)
  | read (length messages : Nat) (hopen : true ∉ (s.begun closing).tests) :
      Effect s closing .success length messages
        (((s.received unpacker closing length).loop unpacker closing
          messages).readAgain unpacker closing)
  | failed {ec : ErrorCode} (length messages : Nat) (closed : Bool)
      (herror : ec ≠ .success) (hopen : true ∉ (s.begun closing).tests)
      (hclosed : s.closed = true → closed = true) :
      Effect s closing ec length messages
        { s.begun closing with closed := closed }

theorem effect_of_onRead (s : SessionReader U) (ec : ErrorCode)
    (length messages : Nat) (closing : Option Nat) :
    Effect unpacker s closing ec length messages
      (s.onRead unpacker ec length messages closing) := by
  have htests : (s.begun closing).tests =
      [isClosed closing { s with buffer := s.buffer.completed, tests := [] }] :=
    rfl
  unfold onRead
  dsimp only
  split
  · rename_i hfound
    exact .found ec length messages (by rw [htests, hfound]; simp)
  · rename_i hnot
    have hopen : true ∉ (s.begun closing).tests := by
      rw [htests, Bool.eq_false_iff.mpr hnot]
      simp
    cases ec with
    | success => exact .read length messages hopen
    | eof => exact .failed length messages true (by simp) hopen fun _ => rfl
    | connectionReset =>
        exact .failed length messages true (by simp) hopen fun _ => rfl
    | brokenPipe => exact .failed length messages _ (by simp) hopen id
    | other value => exact .failed length messages _ (by simp) hopen id

/-- The result of a handler with the flag as other threads have left it. -/
def withClosing (s : SessionReader U) (closing : Option Nat) :
    SessionReader U :=
  { s with closed := s.closed || closing.isSome }

/-- Where a test finds the session closed, the flag is up in the end. -/
theorem closed_of_isClosed {s : SessionReader U} {closing : Option Nat}
    (hfound : s.isClosed closing = true) :
    (s.withClosing closing).closed = true := by
  unfold isClosed at hfound
  unfold withClosing
  cases closing with
  | none => simpa using hfound
  | some n => simp

/-- The handler makes of the reads what it should. -/
theorem onRead_reads (s : SessionReader U) (ec : ErrorCode)
    (length messages : Nat) (closing : Option Nat) :
    Reads s ec ((s.onRead unpacker ec length messages closing).withClosing
      closing) := by
  have heffect := effect_of_onRead unpacker s ec length messages closing
  generalize s.onRead unpacker ec length messages closing = s' at heffect ⊢
  cases heffect with
  | found ec length messages hfound =>
      refine ⟨fun _ hnot => absurd hfound hnot, fun _ => rfl,
        fun hopen _ => ?_⟩
      have htest := closed_of_isClosed (List.mem_singleton.mp hfound).symm
      cases Eq.trans (Eq.symm hopen) htest
  | read length messages hopen =>
      obtain ⟨hissued, -, hflag⟩ := loop_frame unpacker closing messages
        (s.received unpacker closing length)
      have hfound := loop_tests unpacker closing messages
        (s := s.received unpacker closing length) hopen
      generalize (s.received unpacker closing length).loop unpacker closing
        messages = r at hissued hflag hfound ⊢
      refine ⟨fun _ hnot => ?_, fun hmem => ?_, fun hopen' hmem => ?_⟩
      · obtain ⟨issue, hagain⟩ := readAgain_of_open unpacker hnot
        exact ⟨issue, hagain.trans (congrArg (· ++ [issue]) hissued)⟩
      · have hclosed := isClosed_of_found unpacker hfound
          (hmem.resolve_left (by simp))
        exact (congrArg ReadBuffer.issued
          (readAgain_of_found unpacker hclosed)).trans hissued
      · have htest : (r.closed || closing.isSome) = true :=
          closed_of_isClosed (isClosed_of_found unpacker hfound hmem)
        have hnone : ((r.readAgain unpacker closing).closed ||
            closing.isSome) = false := hopen'
        rw [(readAgain_frame unpacker closing r).2.1] at hnone
        cases hnone.symm.trans htest
  | failed length messages closed herror hopen hclosed =>
      exact ⟨fun hsuccess => absurd hsuccess herror, fun _ => rfl,
        fun _ => hopen⟩

/-- The buffer of a session that is read from stays safe. -/
theorem onRead_safe {s : SessionReader U} (h : s.buffer.Safe unpacker)
    (ec : ErrorCode) (length messages : Nat) (closing : Option Nat) :
    (s.onRead unpacker ec length messages closing).buffer.Safe unpacker := by
  have hnone := h.completed_reading
  have heffect := effect_of_onRead unpacker s ec length messages closing
  generalize s.onRead unpacker ec length messages closing = s' at heffect ⊢
  cases heffect with
  | found ec length messages hfound => exact h.of_idle rfl hnone
  | read length messages hopen =>
      obtain ⟨hissued, hreading, -⟩ := loop_frame unpacker closing messages
        (s.received unpacker closing length)
      rw [(readAgain_frame unpacker closing _).2.2]
      split
      · exact h.of_idle hissued (hreading.trans hnone)
      · exact h.readAgain hissued (hreading.trans hnone)
  | failed length messages closed herror hopen hclosed =>
      exact h.of_idle rfl hnone

/-- A completion runs the handler. -/
theorem onRead_of_step {s s' : SessionReader U} {ec : ErrorCode}
    {length messages : Nat} {closing : Option Nat}
    (hstep : step unpacker s (.readDone ec length messages closing) =
      some s') :
    (s.onRead unpacker ec length messages closing).withClosing closing =
      s' := by
  dsimp only [step] at hstep
  split at hstep
  · exact Option.some.inj hstep
  · cases hstep

theorem step_safe {s s' : SessionReader U} {e : Event}
    (h : s.buffer.Safe unpacker) (hstep : step unpacker s e = some s') :
    s'.buffer.Safe unpacker := by
  cases e with
  | readDone ec length messages closing =>
      obtain rfl := onRead_of_step unpacker hstep
      exact onRead_safe unpacker h ec length messages closing
  | close =>
      obtain rfl := Option.some.inj hstep
      exact h

/-- Every completion is followed by the reads that it should be. -/
def ReadsFollow (s : SessionReader U) (e : Event) : Prop :=
  ∀ ec length messages closing, e = .readDone ec length messages closing →
    ∀ s', step unpacker s e = some s' → Reads s ec s'

/-- Over any run of completions and closes, at every `async_read_some` of the
session it is the only read in progress and there is room for it, and every
completion is followed by the reads that it should be. -/
theorem session_readLoop (es : List Event) :
    Always (step unpacker) (fun s => s.buffer.Safe unpacker)
        (started unpacker) es ∧
      EachStep (step unpacker) (ReadsFollow unpacker) (started unpacker)
        es := by
  refine ⟨?_, eachStep_of_forall (fun e _ s => ?_) _⟩
  · have hstarted : (started unpacker).buffer.Safe unpacker :=
      ReadBuffer.Safe.constructed.asyncReadSome rfl
        (unpacker.capacity_reserve _ _)
    exact always_of_eachStep (fun _ h => h)
      (fun _ _ _ h _ _ hstep => step_safe unpacker h hstep) hstarted
      (eachStep_unguarded _ _ es) (eachStep_unguarded _ _ es)
  · rintro ec length messages closing rfl s' hstep
    obtain rfl := onRead_of_step unpacker hstep
    exact onRead_reads unpacker s ec length messages closing

/-! ## A session of the server -/

section OfServer

variable {ω V Buf : Type} (mp : MsgPack Buf) (decoder : Decoder Object UInt8)
  (disp : Dispatcher ω V)

/-- The reads in progress, and whether the session is closed. -/
def view (s : SessionReader U) : Nat × Bool := (s.buffer.reading, s.closed)

/-- The same of a session of the server. -/
def viewOf (c : Connection ω V Buf) : Nat × Bool := (c.reading, c.writer.exit)

/-- Both after a read has completed, if nothing closes the session during the
handler. -/
def viewAfter : Nat × Bool → ErrorCode → Nat × Bool
  | (reading, true), _ => (reading - 1, true)
  | (reading, false), .success => (reading - 1 + 1, false)
  | (reading, false), .eof | (reading, false), .connectionReset =>
      (reading - 1, true)
  | (reading, false), _ => (reading - 1, false)

theorem isClosed_none (s : SessionReader U) : s.isClosed none = s.closed :=
  Bool.or_false _

/-- The end of a handler on an open session reads again. -/
theorem view_readAgain {s : SessionReader U} (hopen : s.closed = false) :
    (s.readAgain unpacker none).view = (s.buffer.reading + 1, false) := by
  obtain ⟨-, hclosed, hbuffer⟩ := readAgain_frame unpacker none s
  rw [isClosed_none, hopen] at hbuffer
  have hreading : (s.readAgain unpacker none).buffer.reading =
      s.buffer.reading + 1 := by
    rw [hbuffer]
    exact congrArg (· + 1) (ReadBuffer.makeRoom_frame unpacker s.buffer).1
  exact Prod.ext hreading (hclosed.trans hopen)

theorem view_onRead (s : SessionReader U) (ec : ErrorCode)
    (length messages : Nat) :
    (s.onRead unpacker ec length messages none).view =
      viewAfter s.view ec := by
  have hfirst := isClosed_none { s with
    buffer := s.buffer.completed
    tests := [] }
  unfold onRead
  dsimp only
  rw [hfirst]
  obtain ⟨buffer, closed, posted, tests⟩ := s
  cases closed with
  | true => rfl
  | false =>
      rw [if_neg Bool.false_ne_true]
      cases ec with
      | success =>
          obtain ⟨-, hreading, hclosed⟩ := loop_frame unpacker none messages
            (received unpacker ⟨buffer, false, posted, tests⟩ none length)
          exact (view_readAgain unpacker hclosed).trans
            (congrArg (fun n => (n + 1, false)) hreading)
      | _ => rfl

/-- No chunk is longer than what was asked for, and `next` does not throw. -/
def ReadsWhole (s : State ω V Buf) (e : Server.Event) : Prop :=
  ∀ t k ec chunk, e = .readDone t k ec chunk →
    chunk.length ≤ defaultBufferSize ∧
      (decoder.drain ((s.connection k).unparsed ++ chunk)).failed = false

/-- The session `k` of the server, once there is one, is where the reader
is. -/
structure Follows (k : SessionNumber) (s : State ω V Buf)
    (r : SessionReader U) : Prop where
  running : k < s.created → viewOf (s.connection k) = r.view
  unborn : s.created ≤ k → r = started unpacker

namespace Follows

variable {unpacker}

theorem initial (app : ω) (k : SessionNumber) :
    Follows unpacker k (.initial disp app : State ω V Buf)
      (started unpacker) :=
  ⟨fun hk => absurd hk (Nat.not_lt_zero k), fun _ => rfl⟩

/-- A step that the read handler does not notice. -/
theorem of_viewOf {k : SessionNumber} {s s' : State ω V Buf}
    {r : SessionReader U} (h : Follows unpacker k s r)
    (hcreated : s'.created = s.created)
    (hview : viewOf (s'.connection k) = viewOf (s.connection k)) :
    Follows unpacker k s' r :=
  ⟨fun hk => hview.trans (h.running (hcreated ▸ hk)),
    fun hk => h.unborn (hcreated ▸ hk)⟩

/-- A change of what the read handler does not notice about a session. -/
theorem setConnection {k j : SessionNumber} {s : State ω V Buf}
    {c : Connection ω V Buf} {r : SessionReader U}
    (h : Follows unpacker k s r) (hview : viewOf c = viewOf (s.connection j)) :
    Follows unpacker k (s.setConnection j c) r :=
  h.of_viewOf rfl (State.setConnection_proj viewOf s hview k)

theorem popStrand {k j : SessionNumber} {s : State ω V Buf}
    {r : SessionReader U} (h : Follows unpacker k s r)
    (rest : List StrandTask) : Follows unpacker k (s.popStrand j rest) r :=
  h.setConnection rfl

/-- A new session is read from as a started one. -/
theorem accepted {k : SessionNumber} {s : State ω V Buf}
    {r : SessionReader U} (h : Follows unpacker k s r) (t : ThreadId)
    (address : SessionId) :
    Follows unpacker k (s.accepted disp t address) r := by
  refine ⟨fun hk => ?_, fun hk => h.unborn (Nat.le_of_succ_le hk)⟩
  by_cases hnew : k = s.created
  · subst hnew
    rw [h.unborn (Nat.le_refl _)]
    show viewOf ((s.setConnection s.created _).connection s.created) = _
    rw [State.setConnection_self]
    rfl
  · have hold : k < s.created :=
      Nat.lt_of_le_of_ne (Nat.le_of_lt_succ hk) hnew
    show viewOf ((s.setConnection s.created _).connection k) = _
    rw [State.setConnection_other s hnew]
    exact h.running hold

/-- `ServerSession::close`. -/
theorem close {k : SessionNumber} {s : State ω V Buf} {r : SessionReader U}
    (h : Follows unpacker k s r) (j : SessionNumber) :
    ∃ r', Reachable (step unpacker) unguarded r r' ∧
      Follows unpacker k (s.close j) r' := by
  by_cases hk : k = j ∧ k < s.created
  · -- from here on every handler of the session finds it closed
    obtain ⟨rfl, hborn⟩ := hk
    refine ⟨{ r with closed := true }, .single (e := .close) trivial rfl, ?_⟩
    refine ⟨fun _ => ?_, fun hk => absurd hborn (Nat.not_lt_of_le hk)⟩
    have hreading := congrArg Prod.fst (h.running hborn)
    show viewOf ((s.setConnection k _).connection k) = _
    rw [State.setConnection_self]
    exact Prod.ext hreading rfl
  · refine ⟨r, .start, fun hborn => ?_, h.unborn⟩
    have hother : k ≠ j := fun hsame => hk ⟨hsame, hborn⟩
    show viewOf ((s.setConnection j _).connection k) = _
    rw [State.setConnection_other s hother]
    exact h.running hborn

end Follows

/-- The end of a read, as the read handler sees it. -/
theorem viewOf_endRead (s : State ω V Buf) (k : SessionNumber) :
    viewOf ((s.endRead k).connection k) =
      ((s.connection k).reading - 1, (s.connection k).writer.exit) := by
  unfold State.endRead
  rw [State.setConnection_self]
  rfl

/-- What a completion leaves of the session that it is for. -/
theorem viewOf_readDone {s : State ω V Buf} {k : SessionNumber}
    {chunk : List UInt8} (ec : ErrorCode)
    (hwhole : (decoder.drain
      ((s.connection k).unparsed ++ chunk)).failed = false) :
    viewOf ((s.readDone decoder k chunk ec).connection k) =
      viewAfter (viewOf (s.connection k)) ec := by
  have hend := viewOf_endRead s k
  have hunparsed : ((s.endRead k).connection k).unparsed =
      (s.connection k).unparsed := by
    simp [State.endRead]
  unfold State.readDone
  dsimp only
  generalize s.endRead k = s' at hend hunparsed ⊢
  obtain ⟨hreading, hexit⟩ := Prod.mk.inj hend
  rw [hexit]
  cases hclosed : (s.connection k).writer.exit with
  | true =>
      rw [if_pos rfl, hend]
      simp [viewOf, viewAfter, hclosed]
  | false =>
      rw [if_neg Bool.false_ne_true]
      cases ec <;>
        simp [viewOf, viewAfter, hclosed, hreading, hexit, hunparsed, hwhole,
          State.readChunk, State.close, AsyncWriter.close]

/-- A completion for a session leaves the others alone. -/
theorem readDone_other (s : State ω V Buf) {j k : SessionNumber}
    (hother : k ≠ j) (chunk : List UInt8) (ec : ErrorCode) :
    (s.readDone decoder j chunk ec).connection k = s.connection k := by
  have hend : (s.endRead j).connection k = s.connection k :=
    State.setConnection_other s hother _
  unfold State.readDone
  dsimp only
  split
  · exact hend
  · cases ec with
    | success => exact s.setConnection_twice hother _ _
    | eof => exact s.setConnection_twice hother _ _
    | connectionReset => exact s.setConnection_twice hother _ _
    | brokenPipe => exact hend
    | other value => exact hend

namespace Follows

variable {unpacker}

/-- The completion of a read. -/
theorem readDone {k j : SessionNumber} {s : State ω V Buf}
    {r : SessionReader U} (h : Follows unpacker k s r) (ec : ErrorCode)
    {chunk : List UInt8} (hlength : chunk.length ≤ defaultBufferSize)
    (hwhole : (decoder.drain
      ((s.connection j).unparsed ++ chunk)).failed = false)
    (hj : j < s.created) (hreading : 0 < (s.connection j).reading) :
    ∃ r', Reachable (step unpacker) unguarded r r' ∧
      Follows unpacker k (s.readDone decoder j chunk ec) r' := by
  have hcreated : (s.readDone decoder j chunk ec).created = s.created := by
    unfold State.readDone
    dsimp only
    split
    · rfl
    · cases ec <;> rfl
  by_cases hsame : k = j
  · subst hsame
    let messages :=
      (decoder.drain ((s.connection k).unparsed ++ chunk)).items.length
    have hview := h.running hj
    have hcount : (s.connection k).reading = r.buffer.reading :=
      congrArg Prod.fst hview
    have hread : 0 < r.buffer.reading := hcount ▸ hreading
    refine ⟨_, .single (e := .readDone ec chunk.length messages none) trivial
      (if_pos ⟨hread, hlength⟩), fun _ => ?_, fun hk => ?_⟩
    · rw [viewOf_readDone decoder ec hwhole, hview,
        ← view_onRead unpacker r ec chunk.length messages]
      exact congrArg (Prod.mk _) (Bool.or_false _).symm
    · rw [hcreated] at hk
      exact absurd hj (Nat.not_lt_of_le hk)
  · exact ⟨r, .start, h.of_viewOf hcreated
      (congrArg viewOf (readDone_other decoder s hsame chunk ec))⟩

/-- A step of the server is a step of the reader, or none. -/
theorem step {k : SessionNumber} {s s' : State ω V Buf} {e : Server.Event}
    {r : SessionReader U} (h : Follows unpacker k s r)
    (hwhole : ReadsWhole decoder s e)
    (hstep : Server.step mp decoder disp s e = some s') :
    ∃ r', Reachable (SessionReader.step unpacker) unguarded r r' ∧
      Follows unpacker k s' r' := by
  by_cases hread : ∃ t j ec chunk, e = .readDone t j ec chunk
  · obtain ⟨t, j, ec, chunk, rfl⟩ := hread
    obtain ⟨hlength, hdrained⟩ := hwhole t j ec chunk rfl
    obtain ⟨-, ⟨hj, hreading⟩, rfl⟩ :
        (s.escaped = false ∧ s.admits (.readDone t j ec chunk) = true) ∧
          (j < s.created ∧ 0 < (s.connection j).reading) ∧
            s.readDone decoder j chunk ec = s' := by
      simpa [Server.step, freeStep] using hstep
    exact h.readDone decoder ec hlength hdrained hj hreading
  have hunread : ∀ {t j ec chunk}, e ≠ .readDone t j ec chunk :=
    fun hsame => hread ⟨_, _, _, _, hsame⟩
  -- all that the reader notices of the other steps is `close`
  cases (effect_of_step mp decoder disp hstep).2 with
  | readClosed => exact absurd rfl hunread
  | readChunk => exact absurd rfl hunread
  | readLost => exact absurd rfl hunread
  | readFailed => exact absurd rfl hunread
  | accepted address => exact ⟨r, .start, h.accepted disp _ address⟩
  | @acceptFailed t =>
      obtain ⟨_, _, hnext⟩ := s.acceptFailed_eq t
      rw [hnext]
      exact ⟨r, .start, h.of_viewOf rfl rfl⟩
  | @register t j =>
      obtain ⟨_, _, hnext⟩ := s.register_eq t j
      rw [hnext]
      exact ⟨r, .start, h.of_viewOf rfl rfl⟩
  | @closeNext t posted j rest =>
      obtain ⟨r', hreach, hclosed⟩ := h.close j
      exact ⟨r', hreach, hclosed.of_viewOf rfl rfl⟩
  | @close t j rest => exact (h.popStrand rest).close j
  | dispatch htask =>
      exact ⟨r, .start, h.of_viewOf rfl
        (State.setConnection_proj viewOf s (by rfl) k)⟩
  | @writeReply t j resp rest =>
      refine ⟨r, .start, (h.popStrand rest).setConnection (j := j) ?_⟩
      exact congrArg (Prod.mk _) (AsyncWriter.write_exit mp _ _)
  | @closeSocket t j rest =>
      exact ⟨r, .start, (h.popStrand rest).setConnection (j := j) rfl⟩
  | @closeSession t j rest =>
      have hclosed := (h.popStrand rest).setConnection (j := j) (c :=
        { (s.popStrand j rest).connection j with unregistered := true }) rfl
      exact ⟨r, .start, hclosed.of_viewOf rfl rfl⟩
  | @closeSessionsPosted t j rest =>
      exact ⟨r, .start, (h.popStrand (j := j) rest).of_viewOf rfl rfl⟩
  | @written t j i ec =>
      have hexit := (AsyncWriter.onWritten_frame mp
        ((s.connection j).writer.taken i) ec).1
      refine ⟨r, .start, (h.setConnection (j := j) (c := { s.connection j with
        writer := (((s.connection j).writer.taken i).onWritten mp ec).1
        }) ?_).of_viewOf rfl rfl⟩
      exact congrArg (Prod.mk _) hexit
  | _ => exact ⟨r, .start, h.of_viewOf rfl rfl⟩

end Follows

/-- In every reachable state of the server, each of its sessions reads as a
reader of its own does. -/
theorem reader_of_reachable {app : ω} {s : State ω V Buf}
    (hreach : Reachable (Server.step mp decoder disp) (ReadsWhole decoder)
      (.initial disp app) s) (k : SessionNumber) :
    ∃ r, Reachable (step unpacker) unguarded (started unpacker) r ∧
      Follows unpacker k s r :=
  hreach.simulate (.initial disp app k)
    fun _ _ _ _ h hwhole hstep => h.step mp decoder disp hwhole hstep

end OfServer

end SessionReader
end Server
end RpcLib
