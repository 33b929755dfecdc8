import RpcLib.Client.ConnectionFlags
import RpcLib.Client.Robustness
import RpcLib.Transport.ReadBuffer

/-!
# `Client::impl::do_read`: the read loop of the client

The client reads into its unpacker as a session does, but the loop of its
completion handler can throw: `Response` does not take every object, and
`set_exception` throws when the promise is satisfied.  An exception leaves the
handler before it makes room and reads again.

* `client_readDone`, `client_of_reachable`: up to the unpacker, the handler is
  the read handler of the client, and a reader is a client.
* `always_safe`: over any run of the client the buffer is safe.
* `eachStep_readsFollow_iff`: reads follow completions as they should exactly
  as long as every chunk can be digested.
-/

namespace RpcLib
namespace Client

open Protocol Transport Foundation TransitionSystem

variable {Buf U : Type} (mp : MsgPack Buf) (unpacker : Unpacker U)

/-- The client with the unpacker that it reads into. -/
structure Reader (Buf U : Type) where
  client : State Buf
  buffer : ReadBuffer U

namespace Reader

/-- The client after its constructor. -/
def initial : Reader Buf U := ⟨.initial, .constructed unpacker⟩

/-- `do_read`. -/
def doRead (s : Reader Buf U) : Reader Buf U where
  client := { s.client with reading := s.client.reading + 1 }
  buffer := s.buffer.asyncReadSome unpacker

/-- A read has come to its end. -/
def completed (s : Reader Buf U) : Reader Buf U where
  client := { s.client with reading := s.client.reading - 1 }
  buffer := s.buffer.completed

def onNext (s : Reader Buf U) : Reader Buf U :=
  { s with buffer := s.buffer.next unpacker }

/-- `while(unpac.next(result))` over the objects that the chunk completes.  The
last call of `next` finds none. -/
def handleResponses : List Object → Reader Buf U → Reader Buf U
  | [], s => s.onNext unpacker
  | obj :: objs, s =>
      let s := s.onNext unpacker
      let s := { s with client := s.client.handleResponse mp obj }
      if s.client.escaped.isSome then s else handleResponses objs s

/-- The completion handler of `async_read_some`. -/
def readDone (s : Reader Buf U) (ec : ErrorCode) (length : Nat)
    (objs : List Object) : Reader Buf U :=
  let s := s.completed
  match ec with
  | .success =>
      let s := { s with buffer := s.buffer.bufferConsumed unpacker length }
      let s := s.handleResponses mp unpacker objs
      -- an exception out of the loop leaves the handler here
      if s.client.escaped.isSome then s
      else { s with buffer := s.buffer.makeRoom unpacker }.doRead unpacker
  | .eof => { s with client := { s.client with state := .disconnected } }
  | .connectionReset =>
      { s with client := { s.client with state := .disconnected } }
  | _ => s

/-- The connect handler without an error, which calls `do_read`. -/
def connected (s : Reader Buf U) : Reader Buf U where
  client := s.client.connected
  buffer := s.buffer.asyncReadSome unpacker

/-- What can happen to a client that reads: a read completes with so many
bytes, which complete some objects, or anything else. -/
inductive Event where
  | readDone (ec : ErrorCode) (length : Nat) (objs : List Object)
  | connectDone
  | other (e : Client.Event)

/-- What the client sees of an event. -/
def Event.toClient : Event → Client.Event
  | .readDone ec _ objs => .readDone ec objs
  | .connectDone => .connectDone
  | .other e => e

/-- The events that do not touch the unpacker. -/
def unrelated : Client.Event → Bool
  | .readDone .. | .connectDone => false
  | _ => true

/-- A read gives at most the bytes that were asked for. -/
def step (s : Reader Buf U) : Event → Option (Reader Buf U)
  | .readDone ec length objs =>
      if s.client.escaped = none ∧ 0 < s.client.reading ∧
          length ≤ defaultBufferSize then
        some (s.readDone mp unpacker ec length objs)
      else none
  | .connectDone =>
      if s.client.escaped = none ∧ 0 < s.client.connecting then
        some (s.connected unpacker)
      else none
  | .other e =>
      if unrelated e then
        (Client.step mp s.client e).map fun client =>
          { s with client := client }
      else none

/-! ## The handler and the client -/

/-- Up to the unpacker the loop is the loop of the client, and of the buffer
it changes the unpacker only. -/
theorem handleResponses_frame (objs : List Object) (s : Reader Buf U) :
    (s.handleResponses mp unpacker objs).client =
        s.client.handleResponses mp objs ∧
      (s.handleResponses mp unpacker objs).buffer.issued = s.buffer.issued ∧
      (s.handleResponses mp unpacker objs).buffer.reading =
        s.buffer.reading := by
  induction objs generalizing s with
  | nil => exact ⟨rfl, rfl, rfl⟩
  | cons obj objs ih =>
      have hnext : (s.onNext unpacker).client = s.client := rfl
      unfold handleResponses State.handleResponses
      dsimp only
      rw [hnext]
      split
      · exact ⟨rfl, rfl, rfl⟩
      · exact ih _

/-- The client with the bytes of its chunk. -/
def received (s : Reader Buf U) (length : Nat) : Reader Buf U :=
  { s.completed with
    buffer := s.completed.buffer.bufferConsumed unpacker length }

/-- The end of the handler of a successful read. -/
def readAgain (s : Reader Buf U) : Reader Buf U :=
  if s.client.escaped.isSome then s
  else { s with buffer := s.buffer.makeRoom unpacker }.doRead unpacker

theorem client_readAgain (s : Reader Buf U) :
    (s.readAgain unpacker).client =
      if s.client.escaped.isSome then s.client
      else { s.client with reading := s.client.reading + 1 } := by
  unfold readAgain
  split <;> rfl

theorem buffer_readAgain (s : Reader Buf U) :
    (s.readAgain unpacker).buffer =
      if s.client.escaped.isSome then s.buffer
      else (s.buffer.makeRoom unpacker).asyncReadSome unpacker := by
  unfold readAgain
  split <;> rfl

theorem readDone_success (s : Reader Buf U) (length : Nat)
    (objs : List Object) :
    s.readDone mp unpacker .success length objs =
      ((s.received unpacker length).handleResponses mp unpacker
        objs).readAgain unpacker := rfl

/-- Up to the unpacker the handler is the read handler of the client. -/
theorem client_readDone (s : Reader Buf U) (ec : ErrorCode) (length : Nat)
    (objs : List Object) :
    (s.readDone mp unpacker ec length objs).client =
      s.client.readDone mp objs ec := by
  cases ec with
  | success =>
      obtain ⟨hclient, -⟩ := handleResponses_frame mp unpacker objs
        (s.received unpacker length)
      rw [readDone_success, client_readAgain, hclient]
      rfl
  | eof => rfl
  | connectionReset => rfl
  | brokenPipe => rfl
  | other value => rfl

/-- What a handler leaves of the buffer: it makes room and reads again when
no exception has left the loop, and otherwise it does not read. -/
inductive Handled (s : Reader Buf U) (objs : List Object) :
    ErrorCode → ReadBuffer U → Prop
  | readAgain {b : ReadBuffer U}
      (hsurvived : (s.client.handleResponses mp objs).escaped = none)
      (hissued : b.issued = s.buffer.issued)
      (hreading : b.reading = s.buffer.completed.reading) :
      Handled s objs .success ((b.makeRoom unpacker).asyncReadSome unpacker)
  | thrown {b : ReadBuffer U}
      (hthrown : (s.client.handleResponses mp objs).escaped ≠ none)
      (hissued : b.issued = s.buffer.issued)
      (hreading : b.reading = s.buffer.completed.reading) :
      Handled s objs .success b
  | failed {ec : ErrorCode} (herror : ec ≠ .success) :
      Handled s objs ec s.buffer.completed

theorem handled_readDone (s : Reader Buf U) (ec : ErrorCode) (length : Nat)
    (objs : List Object) :
    Handled mp unpacker s objs ec
      (s.readDone mp unpacker ec length objs).buffer := by
  by_cases hsuccess : ec = .success
  · subst hsuccess
    obtain ⟨hclient, hissued, hreading⟩ := handleResponses_frame mp unpacker
      objs (s.received unpacker length)
    have hescaped : ((s.received unpacker length).client.handleResponses mp
        objs).escaped = (s.client.handleResponses mp objs).escaped := by
      show ({ s.client with
        reading := s.client.reading - 1 }.handleResponses mp objs).escaped = _
      rw [handleResponses_reading]
    rw [readDone_success, buffer_readAgain, hclient, hescaped]
    split
    · rename_i hthrown
      exact .thrown (Option.isSome_iff_ne_none.mp hthrown) hissued hreading
    · rename_i hsurvived
      exact .readAgain (by simpa using hsurvived) hissued hreading
  · have hbuffer : (s.readDone mp unpacker ec length objs).buffer =
        s.buffer.completed := by
      cases ec with
      | success => exact absurd rfl hsuccess
      | _ => rfl
    rw [hbuffer]
    exact .failed hsuccess

/-! ## Runs -/

/-- The states that an event leads to, with what enables it. -/
inductive Effect (s : Reader Buf U) : Event → Reader Buf U → Prop
  | readDone (ec : ErrorCode) (length : Nat) (objs : List Object)
      (halive : s.client.escaped = none) (hreading : 0 < s.client.reading) :
      Effect s (.readDone ec length objs)
        (s.readDone mp unpacker ec length objs)
  | connected (halive : s.client.escaped = none)
      (hconnecting : 0 < s.client.connecting) :
      Effect s .connectDone (s.connected unpacker)
  | other {e : Client.Event} {client : State Buf}
      (hother : unrelated e = true)
      (hstep : Client.step mp s.client e = some client) :
      Effect s (.other e) { s with client := client }

theorem effect_of_step {s s' : Reader Buf U} {e : Event}
    (hstep : step mp unpacker s e = some s') :
    Effect mp unpacker s e s' := by
  cases e with
  | readDone ec length objs =>
      obtain ⟨⟨halive, hreading, -⟩, rfl⟩ : (s.client.escaped = none ∧
          0 < s.client.reading ∧ length ≤ defaultBufferSize) ∧
          s.readDone mp unpacker ec length objs = s' := by
        simpa [step] using hstep
      exact .readDone ec length objs halive hreading
  | connectDone =>
      obtain ⟨⟨halive, hconnecting⟩, rfl⟩ : (s.client.escaped = none ∧
          0 < s.client.connecting) ∧ s.connected unpacker = s' := by
        simpa [step] using hstep
      exact .connected halive hconnecting
  | other e =>
      obtain ⟨hother, client, hclient, rfl⟩ : unrelated e = true ∧
          ∃ client, Client.step mp s.client e = some client ∧
            { s with client := client } = s' := by
        simpa [step] using hstep
      exact .other hother hclient

/-- A step of the reader is a step of the client. -/
theorem client_of_step {s s' : Reader Buf U} {e : Event}
    (hstep : step mp unpacker s e = some s') :
    Client.step mp s.client e.toClient = some s'.client := by
  cases effect_of_step mp unpacker hstep with
  | readDone ec length objs halive hreading =>
      rw [client_readDone]
      simp [Event.toClient, Client.step, liveStep, halive, hreading]
  | connected halive hconnecting =>
      simp [Event.toClient, Client.step, liveStep, halive, hconnecting,
        connected]
  | other hother hclient => exact hclient

/-- The client of a reachable reader is a reachable client. -/
theorem client_of_reachable {s : Reader Buf U}
    (hreach : Reachable (step mp unpacker) unguarded (initial unpacker) s) :
    Reachable (Client.step mp) unguarded State.initial s.client := by
  induction hreach with
  | start => exact .start
  | next _ _ hstep ih =>
      exact ih.next trivial (client_of_step mp unpacker hstep)

/-- Other steps of the client leave the reads and the connection alone. -/
theorem unrelated_link {s s' : State Buf} {e : Client.Event}
    (hother : unrelated e = true) (heffect : Client.Effect mp s e s') :
    s'.isConnected = s.isConnected ∧ s'.reading = s.reading := by
  cases heffect with
  | @insertCall c rest hstrand =>
      obtain ⟨hconnected, -, -, hreading⟩ :=
        insertCall_link mp { s with strand := rest } c
      exact ⟨hconnected, hreading⟩
  | connected hconnecting => cases hother
  | readDone ec objs hreading => cases hother
  | _ => exact ⟨rfl, rfl⟩

/-- The buffer and the client count the same reads. -/
theorem reading_readDone {s : Reader Buf U}
    (hsame : s.buffer.reading = s.client.reading) (ec : ErrorCode)
    (length : Nat) (objs : List Object) :
    (s.readDone mp unpacker ec length objs).buffer.reading =
      (s.readDone mp unpacker ec length objs).client.reading := by
  have hcompleted : s.completed.buffer.reading = s.completed.client.reading :=
    congrArg (· - 1) hsame
  cases ec with
  | success =>
      obtain ⟨hclient, -, hreading⟩ := handleResponses_frame mp unpacker objs
        (s.received unpacker length)
      rw [readDone_success]
      generalize (s.received unpacker length).handleResponses mp unpacker
        objs = r at hclient hreading ⊢
      have hloop : r.buffer.reading = r.client.reading := by
        rw [hclient, (handleResponses_link mp _ objs).2.2, hreading]
        exact hcompleted
      unfold readAgain
      split
      · exact hloop
      · show (r.buffer.makeRoom unpacker).reading + 1 = r.client.reading + 1
        rw [(ReadBuffer.makeRoom_frame unpacker r.buffer).1, hloop]
  | _ => exact hcompleted

/-- What every step maintains. -/
structure Kept (s : Reader Buf U) : Prop where
  tracked : Tracked s.client
  phases : Phases s.client
  reading : s.buffer.reading = s.client.reading
  safe : s.buffer.Safe unpacker
  /-- The room that the constructor has made is there for the first read. -/
  room : s.client.isConnected = false →
    defaultBufferSize ≤ unpacker.bufferCapacity s.buffer.unpac

namespace Kept

theorem initial : Kept unpacker (initial unpacker : Reader Buf U) where
  tracked := .initial
  phases := .initial
  reading := rfl
  safe := .constructed
  room := fun _ => unpacker.capacity_reserve _ _

variable {unpacker}

/-- A read in progress, its handler, and the buffer after it. -/
theorem readDone {s : Reader Buf U} (h : Kept unpacker s) {ec : ErrorCode}
    {objs : List Object} {b : ReadBuffer U}
    (hhandled : Handled mp unpacker s objs ec b) : b.Safe unpacker := by
  have hnone := h.safe.completed_reading
  cases hhandled with
  | readAgain _ hissued hreading =>
      exact h.safe.readAgain hissued (hreading.trans hnone)
  | thrown _ hissued hreading =>
      exact h.safe.of_idle hissued (hreading.trans hnone)
  | failed _ => exact h.safe.of_idle rfl hnone

theorem step {s s' : Reader Buf U} {e : Event} (h : Kept unpacker s)
    (hstep : step mp unpacker s e = some s') : Kept unpacker s' := by
  obtain ⟨halive, hclient⟩ :=
    Client.effect_of_step mp (client_of_step mp unpacker hstep)
  have htracked := h.tracked.step hclient
  have hphases := h.phases.step halive hclient
  cases effect_of_step mp unpacker hstep with
  | readDone ec length objs _ hreading =>
      -- a client that reads is connected, so the first read is behind it
      have hconnected :
          (s.readDone mp unpacker ec length objs).client.isConnected =
            true := by
        rw [client_readDone, (ReadFrame.readDone mp _ _ _).isConnected]
        exact h.phases.isConnected_of_reading hreading
      have hhandled := handled_readDone mp unpacker s ec length objs
      refine ⟨htracked, hphases, ?_, h.readDone mp hhandled, fun hnot => ?_⟩
      · exact reading_readDone mp unpacker h.reading ec length objs
      · cases hnot.symm.trans hconnected
  | connected _ hconnecting =>
      -- the room that the constructor has made has not been used
      obtain ⟨hnot, hnone, -⟩ := h.phases.connect hconnecting
      refine ⟨htracked, hphases, ?_, ?_, fun hnot' => ?_⟩
      · exact congrArg (· + 1) h.reading
      · exact h.safe.asyncReadSome (h.reading.trans hnone) (h.room hnot)
      · cases hnot'
  | other hother _ =>
      obtain ⟨hconnected, hreading⟩ := unrelated_link mp hother hclient
      exact ⟨htracked, hphases, h.reading.trans hreading.symm, h.safe,
        fun hnot => h.room (hconnected.symm.trans hnot)⟩

end Kept

/-- Over any run of the client, at every `async_read_some` it is the only read
in progress and there is room for it. -/
theorem always_safe (es : List Event) :
    Always (step mp unpacker) (fun s => s.buffer.Safe unpacker)
      (initial unpacker) es :=
  always_of_eachStep (J := Kept unpacker) (fun _ h => h.safe)
    (fun _ _ _ h _ _ hstep => h.step mp hstep) (.initial unpacker)
    (eachStep_unguarded _ _ es) (eachStep_unguarded _ _ es)

/-- What a handler should make of the reads. -/
structure Reads (s : Reader Buf U) (ec : ErrorCode) (s' : Reader Buf U) :
    Prop where
  again : ec = .success →
    ∃ issue, s'.buffer.issued = s.buffer.issued ++ [issue]
  ends : ec ≠ .success → s'.buffer.issued = s.buffer.issued

/-- Every completion is followed by the reads that it should be. -/
def ReadsFollow (s : Reader Buf U) (e : Event) : Prop :=
  ∀ ec length objs, e = .readDone ec length objs →
    ∀ s', step mp unpacker s e = some s' → Reads s ec s'

/-- A chunk that is read can be digested. -/
def Digested (s : Reader Buf U) (e : Event) : Prop :=
  ∀ length objs, e = .readDone .success length objs →
    Digestible mp s.client objs

/-- The handler reads again as it should exactly when it can digest what it
has read. -/
theorem reads_iff {s s' : Reader Buf U} {ec : ErrorCode} {objs : List Object}
    (htable : TableTracked s.client) (halive : s.client.escaped = none)
    (hhandled : Handled mp unpacker s objs ec s'.buffer) :
    Reads s ec s' ↔ (ec = .success → Digestible mp s.client objs) := by
  have hescaped := handleResponses_escaped_iff_digestible mp htable halive objs
  generalize hbuffer : s'.buffer = b at hhandled
  cases hhandled with
  | @readAgain b hsurvived hissued hreading =>
      refine iff_of_true ⟨fun _ => ?_, fun herror => absurd rfl herror⟩
        fun _ => hescaped.mp hsurvived
      obtain ⟨issue, hagain⟩ := ReadBuffer.readAgain_issued unpacker b
      rw [hbuffer, hagain, hissued]
      exact ⟨issue, rfl⟩
  | thrown hthrown hissued hreading =>
      -- a successful completion without another read
      refine iff_of_false (fun hreads => ?_) fun hdigested =>
        hthrown (hescaped.mpr (hdigested rfl))
      obtain ⟨issue, hagain⟩ := hreads.again rfl
      rw [hbuffer, hissued] at hagain
      simp at hagain
  | failed herror =>
      refine iff_of_true ⟨fun hsuccess => absurd hsuccess herror, fun _ => ?_⟩
        fun hsuccess => absurd hsuccess herror
      rw [hbuffer]
      rfl

/-- For one step of a run. -/
theorem readsFollow_iff {s s' : Reader Buf U} {e : Event}
    (h : Kept unpacker s) (hstep : step mp unpacker s e = some s') :
    ReadsFollow mp unpacker s e ↔ Digested mp s e := by
  cases effect_of_step mp unpacker hstep with
  | readDone ec length objs halive hreading =>
      have hreads := reads_iff mp unpacker h.tracked.table halive
        (handled_readDone mp unpacker s ec length objs)
      constructor
      · rintro hfollow _ _ ⟨⟩
        exact hreads.mp (hfollow _ _ _ rfl _ hstep) rfl
      · rintro hdigested _ _ _ ⟨⟩ s'' hstep'
        obtain rfl := Option.some.inj (hstep.symm.trans hstep')
        refine hreads.mpr fun hsuccess => ?_
        subst hsuccess
        exact hdigested length objs rfl
  | connected => simp [ReadsFollow, Digested]
  | other => simp [ReadsFollow, Digested]

/-- Over any run, reads follow completions as they should exactly as long as
every chunk that is read can be digested. -/
theorem eachStep_readsFollow_iff (es : List Event) :
    EachStep (step mp unpacker) (ReadsFollow mp unpacker) (initial unpacker)
        es ↔
      EachStep (step mp unpacker) (Digested mp) (initial unpacker) es :=
  eachStep_congr (J := Kept unpacker)
    (fun _ _ _ h hstep => h.step mp hstep)
    (fun _ _ _ h hstep => readsFollow_iff mp unpacker h hstep)
    (.initial unpacker) es

end Reader

end Client
end RpcLib
