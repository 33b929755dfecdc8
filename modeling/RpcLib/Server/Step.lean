import RpcLib.Foundation.TransitionSystem
import RpcLib.Server.Impl

/-!
# What one step of the server does

`Effect` lists the effects of a step once, one constructor for each handler or
part of one, and `effect_of_step` says that there are no others; every
invariant is a case split on it.  `MessageStep` is the coarser list of those
that move messages.
-/

namespace RpcLib
namespace Server

open Protocol Transport Foundation TransitionSystem

variable {ω V Buf : Type} (mp : MsgPack Buf) (unpacker : Decoder Object UInt8)
  (disp : Dispatcher ω V)

/-- The error codes for which the read handler has no branch of its own. -/
def UnhandledRead (ec : ErrorCode) : Prop :=
  ec ≠ .success ∧ ec ≠ .eof ∧ ec ≠ .connectionReset

namespace State

@[simp] theorem setConnection_self (s : State ω V Buf) (k : SessionNumber)
    (c : Connection ω V Buf) : (s.setConnection k c).connection k = c :=
  Function.update_self _ _ _

theorem setConnection_other (s : State ω V Buf) {k k' : SessionNumber}
    (hother : k' ≠ k) (c : Connection ω V Buf) :
    (s.setConnection k c).connection k' = s.connection k' :=
  Function.update_of_ne hother _ _

/-- Two changes of one session in a row leave the others alone. -/
theorem setConnection_twice (s : State ω V Buf) {k k' : SessionNumber}
    (hother : k' ≠ k) (c c' : Connection ω V Buf) :
    ((s.setConnection k c).setConnection k c').connection k' =
      s.connection k' := by
  rw [setConnection_other _ hother, setConnection_other s hother]

/-- What a change of one session leaves alone about it, it leaves alone about
every session. -/
theorem setConnection_proj {α : Type} (f : Connection ω V Buf → α)
    (s : State ω V Buf) {k : SessionNumber} {c : Connection ω V Buf}
    (hsame : f c = f (s.connection k)) (j : SessionNumber) :
    f ((s.setConnection k c).connection j) = f (s.connection j) := by
  by_cases hj : j = k
  · subst hj
    rw [setConnection_self, hsame]
  · rw [setConnection_other s hj]

/-- The end of an accept handler may start an accept; it does nothing else. -/
theorem acceptNext_eq (s : State ω V Buf) (t : ThreadId) :
    ∃ accepting acceptor, s.acceptNext t =
      { s with accepting := accepting, acceptor := acceptor } := by
  unfold acceptNext
  split
  · exact ⟨_, _, rfl⟩
  · exact ⟨_, _, rfl⟩

theorem acceptFailed_eq (s : State ω V Buf) (t : ThreadId) :
    ∃ accepting acceptor, s.acceptFailed t =
      { s with accepting := accepting, acceptor := acceptor } := by
  obtain ⟨accepting, acceptor, hnext⟩ :=
    acceptNext_eq { s with accepting := s.accepting - 1 } t
  exact ⟨accepting, acceptor, hnext⟩

theorem register_eq (s : State ω V Buf) (t : ThreadId) (k : SessionNumber) :
    ∃ accepting acceptor, s.register t k =
      { s with
        sessions := s.sessions ++ [k]
        jobs := Function.update s.jobs t none
        accepting := accepting
        acceptor := acceptor } := by
  obtain ⟨accepting, acceptor, hnext⟩ :=
    acceptNext_eq ({ s with sessions := s.sessions ++ [k] }.setJob t none) t
  exact ⟨accepting, acceptor, hnext⟩

end State

/-- The states that an event leads to, with what enables it. -/
inductive Effect (s : State ω V Buf) : Event → State ω V Buf → Prop
  | accepted {t : ThreadId} (address : SessionId) (hfree : s.jobs t = none)
      (haccepting : 0 < s.accepting) :
      Effect s (.acceptDone t .success address) (s.accepted disp t address)
  | acceptFailed {t : ThreadId} {ec : ErrorCode} (address : SessionId)
      (hfree : s.jobs t = none) (haccepting : 0 < s.accepting)
      (herror : ec ≠ .success) :
      Effect s (.acceptDone t ec address) (s.acceptFailed t)
  | acceptThrows {t : ThreadId} (haccepting : 0 < s.accepting) :
      Effect s (.acceptThrows t) s.acceptThrows
  | register {t : ThreadId} {k : SessionNumber}
      (hjob : s.jobs t = some (.registering k)) :
      Effect s (.resume t) (s.register t k)
  | closeNext {t : ThreadId} {posted : Bool} {k : SessionNumber}
      {rest : List SessionNumber}
      (hjob : s.jobs t = some (.closing posted (k :: rest))) :
      Effect s (.resume t) (s.closeNext t posted k rest)
  | closedAll {t : ThreadId} {posted : Bool}
      (hjob : s.jobs t = some (.closing posted [])) :
      Effect s (.resume t) (s.closedAll t posted)
  | readClosed {t : ThreadId} {k : SessionNumber} (ec : ErrorCode)
      (chunk : List UInt8) (hk : k < s.created)
      (hreading : 0 < (s.connection k).reading)
      (hexit : (s.connection k).writer.exit = true) :
      Effect s (.readDone t k ec chunk) (s.endRead k)
  | readChunk {t : ThreadId} {k : SessionNumber} (chunk : List UInt8)
      (hk : k < s.created) (hreading : 0 < (s.connection k).reading)
      (hopen : (s.connection k).writer.exit = false) :
      Effect s (.readDone t k .success chunk)
        ((s.endRead k).readChunk unpacker k chunk)
  | readLost {t : ThreadId} {k : SessionNumber} {ec : ErrorCode}
      (chunk : List UInt8) (hk : k < s.created)
      (hreading : 0 < (s.connection k).reading)
      (hopen : (s.connection k).writer.exit = false)
      (hlost : ec = .eof ∨ ec = .connectionReset) :
      Effect s (.readDone t k ec chunk) ((s.endRead k).close k)
  | readFailed {t : ThreadId} {k : SessionNumber} {ec : ErrorCode}
      (chunk : List UInt8) (hk : k < s.created)
      (hreading : 0 < (s.connection k).reading)
      (hopen : (s.connection k).writer.exit = false)
      (hunhandled : UnhandledRead ec) :
      Effect s (.readDone t k ec chunk) (s.endRead k)
  | dispatch {t : ThreadId} {i : Nat} {k : SessionNumber} {msg : Object}
      (htask : s.tasks[i]? = some (k, msg)) :
      Effect s (.dispatch t i) (s.dispatch mp t i k msg)
  | writeReply {t : ThreadId} {k : SessionNumber} {resp : Response}
      {rest : List StrandTask} (hk : k < s.created)
      (hstrand : (s.connection k).writeStrand =
        .posted (.write resp) :: rest) :
      Effect s (.runStrand t k) ((s.popStrand k rest).writeReply mp k resp)
  | close {t : ThreadId} {k : SessionNumber} {rest : List StrandTask}
      (hk : k < s.created)
      (hstrand : (s.connection k).writeStrand = .posted .close :: rest) :
      Effect s (.runStrand t k) ((s.popStrand k rest).close k)
  | closeSessionsPosted {t : ThreadId} {k : SessionNumber}
      {rest : List StrandTask} (hk : k < s.created)
      (hstrand : (s.connection k).writeStrand =
        .posted .closeSessions :: rest) (hfree : s.jobs t = none) :
      Effect s (.runStrand t k) ((s.popStrand k rest).closeSessions t true)
  | closeSocket {t : ThreadId} {k : SessionNumber} {rest : List StrandTask}
      (hk : k < s.created)
      (hstrand : (s.connection k).writeStrand = .closeSocket :: rest) :
      Effect s (.runStrand t k) ((s.popStrand k rest).closeSocket k)
  | closeSession {t : ThreadId} {k : SessionNumber} {rest : List StrandTask}
      (hk : k < s.created)
      (hstrand : (s.connection k).writeStrand = .closeSession :: rest) :
      Effect s (.runStrand t k) ((s.popStrand k rest).closeSession k)
  | written {t : ThreadId} {k : SessionNumber} {i : Nat} (ec : ErrorCode)
      (hk : k < s.created)
      (houtstanding : i < (s.connection k).writer.outstanding.length) :
      Effect s (.written t k i ec) (s.written mp k i ec)
  | closeSessions {t : ThreadId} (hfree : s.jobs t = none) :
      Effect s (.closeSessions t) (s.closeSessions t false)
  | suppressExceptions (suppress : Bool) :
      Effect s (.suppressExceptions suppress)
        { s with suppressException := suppress }

/-- A step is taken by a live process and has one of the effects. -/
theorem effect_of_step {s s' : State ω V Buf} {e : Event}
    (hstep : step mp unpacker disp s e = some s') :
    s.escaped = false ∧ Effect mp unpacker disp s e s' := by
  unfold step at hstep
  split at hstep
  · rename_i hlive
    refine ⟨hlive.1, ?_⟩
    have hadmits := hlive.2
    unfold State.admits at hadmits
    cases e with
    | acceptDone t ec address =>
        have hfree : s.jobs t = none := by simpa [Event.thread] using hadmits
        obtain ⟨haccepting, rfl⟩ : 0 < s.accepting ∧
            (if ec = .success then s.accepted disp t address
              else s.acceptFailed t) = s' := by
          simpa [freeStep] using hstep
        by_cases hsuccess : ec = .success
        · subst hsuccess
          exact .accepted address hfree haccepting
        · rw [if_neg hsuccess]
          exact .acceptFailed address hfree haccepting hsuccess
    | acceptThrows t =>
        obtain ⟨haccepting, rfl⟩ : 0 < s.accepting ∧ s.acceptThrows = s' := by
          simpa [freeStep] using hstep
        exact .acceptThrows haccepting
    | resume t =>
        unfold freeStep at hstep
        dsimp only at hstep
        split at hstep
        · cases hstep
        · obtain rfl := Option.some.inj hstep
          exact .register ‹_›
        · obtain rfl := Option.some.inj hstep
          exact .closedAll ‹_›
        · obtain rfl := Option.some.inj hstep
          exact .closeNext ‹_›
    | readDone t k ec chunk =>
        obtain ⟨⟨hk, hreading⟩, rfl⟩ :
            (k < s.created ∧ 0 < (s.connection k).reading) ∧
              s.readDone unpacker k chunk ec = s' := by
          simpa [freeStep] using hstep
        have hsame : ((s.endRead k).connection k).writer.exit =
            (s.connection k).writer.exit := by
          simp [State.endRead]
        unfold State.readDone
        dsimp only
        rw [hsame]
        cases hexit : (s.connection k).writer.exit with
        | true => exact .readClosed ec chunk hk hreading hexit
        | false =>
            rw [if_neg Bool.false_ne_true]
            cases ec with
            | success => exact .readChunk chunk hk hreading hexit
            | eof => exact .readLost chunk hk hreading hexit (Or.inl rfl)
            | connectionReset =>
                exact .readLost chunk hk hreading hexit (Or.inr rfl)
            | brokenPipe =>
                exact .readFailed chunk hk hreading hexit
                  (by simp [UnhandledRead])
            | other value =>
                exact .readFailed chunk hk hreading hexit
                  (by simp [UnhandledRead])
    | dispatch t i =>
        obtain ⟨⟨k, msg⟩, htask, rfl⟩ := Option.map_eq_some_iff.mp hstep
        exact .dispatch htask
    | runStrand t k =>
        have hfree : s.jobs t = none := by simpa [Event.thread] using hadmits
        unfold freeStep at hstep
        dsimp only at hstep
        split at hstep
        · rename_i hk
          split at hstep
          · cases hstep
          · rename_i task rest hstrand
            obtain rfl := Option.some.inj hstep
            cases task with
            | posted p =>
                cases p with
                | write resp => exact .writeReply hk hstrand
                | close => exact .close hk hstrand
                | closeSessions =>
                    exact .closeSessionsPosted hk hstrand hfree
            | closeSocket => exact .closeSocket hk hstrand
            | closeSession => exact .closeSession hk hstrand
        · cases hstep
    | written t k i ec =>
        obtain ⟨⟨hk, houtstanding⟩, rfl⟩ : (k < s.created ∧
            i < (s.connection k).writer.outstanding.length) ∧
              s.written mp k i ec = s' := by
          simpa [freeStep] using hstep
        exact .written ec hk houtstanding
    | closeSessions t =>
        have hfree : s.jobs t = none := by simpa [Event.thread] using hadmits
        obtain rfl := Option.some.inj hstep
        exact .closeSessions hfree
    | suppressExceptions suppress =>
        obtain rfl := Option.some.inj hstep
        exact .suppressExceptions suppress
  · cases hstep

/-! ## What a step does about messages -/

/-- The step leaves the messages and the application alone. -/
structure Quiet (s s' : State ω V Buf) : Prop where
  created : s'.created = s.created
  app : s'.app = s.app
  invocations : s'.invocations = s.invocations
  dispatched : s'.dispatched = s.dispatched
  tasks : s'.tasks = s.tasks
  disp : ∀ k, (s'.connection k).disp = (s.connection k).disp
  stream : ∀ k, ((s'.connection k).received, (s'.connection k).unparsed) =
    ((s.connection k).received, (s.connection k).unparsed)

namespace Quiet

theorem trans {s s' s'' : State ω V Buf} (h : Quiet s s')
    (h' : Quiet s' s'') : Quiet s s'' where
  created := h'.created.trans h.created
  app := h'.app.trans h.app
  invocations := h'.invocations.trans h.invocations
  dispatched := h'.dispatched.trans h.dispatched
  tasks := h'.tasks.trans h.tasks
  disp k := (h'.disp k).trans (h.disp k)
  stream k := (h'.stream k).trans (h.stream k)

/-- A change of a session's writer, strand or read operations. -/
theorem setConnection (s : State ω V Buf) (k : SessionNumber)
    {c : Connection ω V Buf} (hdisp : c.disp = (s.connection k).disp)
    (hstream : (c.received, c.unparsed) =
      ((s.connection k).received, (s.connection k).unparsed)) :
    Quiet s (s.setConnection k c) where
  created := rfl
  app := rfl
  invocations := rfl
  dispatched := rfl
  tasks := rfl
  disp := State.setConnection_proj (fun c => c.disp) s hdisp
  stream :=
    State.setConnection_proj (fun c => (c.received, c.unparsed)) s hstream

/-- A change of what the server keeps beside its sessions. -/
theorem of_connection {s s' s'' : State ω V Buf} (h : Quiet s s')
    (hconnection : s''.connection = s'.connection)
    (hcreated : s''.created = s'.created) (happ : s''.app = s'.app)
    (hcalls : s''.invocations = s'.invocations)
    (hdispatched : s''.dispatched = s'.dispatched)
    (htasks : s''.tasks = s'.tasks) : Quiet s s'' where
  created := hcreated.trans h.created
  app := happ.trans h.app
  invocations := hcalls.trans h.invocations
  dispatched := hdispatched.trans h.dispatched
  tasks := htasks.trans h.tasks
  disp := by
    rw [hconnection]
    exact h.disp
  stream := by
    rw [hconnection]
    exact h.stream

theorem refl (s : State ω V Buf) : Quiet s s :=
  ⟨rfl, rfl, rfl, rfl, rfl, fun _ => rfl, fun _ => rfl⟩

theorem endRead (s : State ω V Buf) (k : SessionNumber) :
    Quiet s (s.endRead k) := .setConnection s k rfl rfl

theorem popStrand (s : State ω V Buf) (k : SessionNumber)
    (rest : List StrandTask) : Quiet s (s.popStrand k rest) :=
  .setConnection s k rfl rfl

theorem close (s : State ω V Buf) (k : SessionNumber) :
    Quiet s (s.close k) := .setConnection s k rfl rfl

end Quiet

/-- The steps that move messages, and all others. -/
inductive MessageStep (s : State ω V Buf) : Event → State ω V Buf → Prop
  | accepted (t : ThreadId) (address : SessionId) {e : Event} :
      MessageStep s e (s.accepted disp t address)
  | readChunk {k : SessionNumber} (hk : k < s.created) (chunk : List UInt8)
      {e : Event} :
      MessageStep s e ((s.endRead k).readChunk unpacker k chunk)
  | dispatch {t : ThreadId} {i : Nat} {k : SessionNumber} {msg : Object}
      (htask : s.tasks[i]? = some (k, msg)) :
      MessageStep s (.dispatch t i) (s.dispatch mp t i k msg)
  | quiet {e : Event} {s' : State ω V Buf} (hquiet : Quiet s s') :
      MessageStep s e s'

theorem messageStep_of_step {s s' : State ω V Buf} {e : Event}
    (hstep : step mp unpacker disp s e = some s') :
    MessageStep mp unpacker disp s e s' := by
  cases (effect_of_step mp unpacker disp hstep).2 with
  | accepted address => exact .accepted _ address
  | readChunk chunk hk => exact .readChunk hk chunk
  | dispatch htask => exact .dispatch htask
  | @acceptFailed t =>
      obtain ⟨_, _, hnext⟩ := s.acceptFailed_eq t
      rw [hnext]
      exact .quiet ((Quiet.refl s).of_connection rfl rfl rfl rfl rfl rfl)
  | @register t k =>
      obtain ⟨_, _, hnext⟩ := s.register_eq t k
      rw [hnext]
      exact .quiet ((Quiet.refl s).of_connection rfl rfl rfl rfl rfl rfl)
  | @closeNext t posted k rest =>
      exact .quiet ((Quiet.close s k).of_connection rfl rfl rfl rfl rfl rfl)
  | readClosed => exact .quiet (.endRead s _)
  | readFailed => exact .quiet (.endRead s _)
  | readLost => exact .quiet ((Quiet.endRead s _).trans (.close _ _))
  | writeReply =>
      exact .quiet ((Quiet.popStrand s _ _).trans (.setConnection _ _ rfl rfl))
  | close => exact .quiet ((Quiet.popStrand s _ _).trans (.close _ _))
  | closeSocket =>
      exact .quiet ((Quiet.popStrand s _ _).trans (.setConnection _ _ rfl rfl))
  | @closeSession t k rest =>
      have hquiet : Quiet s ((s.popStrand k rest).setConnection k
          { (s.popStrand k rest).connection k with unregistered := true }) :=
        (Quiet.popStrand s k rest).trans (.setConnection _ _ rfl rfl)
      exact .quiet (hquiet.of_connection rfl rfl rfl rfl rfl rfl)
  | @closeSessionsPosted t k rest =>
      exact .quiet ((Quiet.popStrand s k rest).of_connection rfl rfl rfl rfl
        rfl rfl)
  | @written t k i ec =>
      have hquiet : Quiet s (s.setConnection k
          { s.connection k with
            writer := (((s.connection k).writer.taken i).onWritten mp ec).1 }) :=
        .setConnection s k rfl rfl
      exact .quiet (hquiet.of_connection rfl rfl rfl rfl rfl rfl)
  | _ => exact .quiet ((Quiet.refl s).of_connection rfl rfl rfl rfl rfl rfl)

end Server
end RpcLib
