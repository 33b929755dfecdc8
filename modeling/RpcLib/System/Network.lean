import RpcLib.Client.Step
import RpcLib.Foundation.Component
import RpcLib.Foundation.Link
import RpcLib.Server.Step

/-!
# Clients and a server over a network

Any number of clients and one server, each with its own transition system, and
the connections between them.  The components are unchanged; the network
decides when an asynchronous operation on a socket completes and what a read
gives.  A write in progress is taken byte by byte and completes without an
error once all of it was taken; a read gives any piece of what has arrived, so
that neither the writes nor the messages of a stream can be told from the
chunks.

A connection stands before either side knows of it: the connect handler of the
client and the accept handler of the server run later, in any order.  The
acceptor gives connections out in the order in which they were established, so
a connection has the number of its session.

`bytes` are the bytes in an `sbuffer`.
-/

namespace RpcLib
namespace System
namespace Network

open Protocol Transport Foundation TransitionSystem Server

variable {ι ω V Buf : Type} [DecidableEq ι] (mp : MsgPack Buf)
  (bytes : Buf → List UInt8) (unpacker : Decoder Object UInt8)
  (disp : Dispatcher ω V)

/-- An established connection. -/
structure Channel (ι : Type) where
  client : ι
  /-- How many writes of the client had failed before, for want of a
  connection. -/
  failed : Nat
  /-- From the client to the server. -/
  up : Link UInt8
  /-- From the server to the client. -/
  down : Link UInt8
  /-- The bytes in the client's `unpac` that no response has taken. -/
  unparsed : List UInt8

/-- The clients, the server and the connections, by session number. -/
structure State (ι ω V Buf : Type) where
  client : ι → Client.State Buf
  server : Server.State ω V Buf
  channels : List (Channel ι)

namespace State

/-- The clients and the server after their constructors. -/
def initial (app : ω) : State ι ω V Buf where
  client := fun _ => .initial
  server := .initial disp app
  channels := []

/-- What the client has given to the socket since the connection stands. -/
def upStream (s : State ι ω V Buf) (ch : Channel ι) : List UInt8 :=
  ((s.client ch.client).writer.started.drop ch.failed).flatMap bytes

/-- What the session has given to the socket. -/
def downStream (s : State ι ω V Buf) (k : SessionNumber) : List UInt8 :=
  (s.server.connection k).writer.started.flatMap bytes

def setChannel (s : State ι ω V Buf) (k : SessionNumber) (ch : Channel ι) :
    State ι ω V Buf :=
  { s with channels := s.channels.set k ch }

def setClient (s : State ι ω V Buf) (i : ι) (c : Client.State Buf) :
    State ι ω V Buf :=
  { s with client := Function.update s.client i c }

/-- The client has a connection. -/
def established (s : State ι ω V Buf) (i : ι) : Bool :=
  s.channels.any fun ch => ch.client = i

/-! ## The clients -/

/-- A connection of the client is established. -/
def establish (s : State ι ω V Buf) (i : ι) : State ι ω V Buf :=
  let writer := (s.client i).writer
  let ch : Channel ι :=
    { client := i
      -- every write but the one in progress has come to its end, by an error
      failed := writer.started.length - writer.outstanding.length
      up := .idle
      down := .idle
      unparsed := [] }
  { s with channels := s.channels ++ [ch] }

/-- What the network asks of a completion at a client. -/
def clientAdmits (s : State ι ω V Buf) (i : ι) : Client.Event → Bool
  | .connectDone => s.established i
  | .connectFailed _ => !s.established i
  | .readDone .success _ => false
  | .writeDone _ .success => s.channels.any fun ch =>
      ch.client = i && !ch.up.cut && (ch.up.rest (s.upStream bytes ch)).isEmpty
  | _ => true

/-- A write that fails cuts the connection off. -/
def channelsAfter (s : State ι ω V Buf) (i : ι) :
    Client.Event → List (Channel ι)
  | .writeDone _ .success => s.channels
  | .writeDone _ _ => s.channels.map fun ch =>
      if ch.client = i then { ch with up := ch.up.cutOff } else ch
  | _ => s.channels

/-- The read handler of the client is given the first `n` bytes on the way to
it.  A malformed stream ends its process and has no step here. -/
def readDown (s : State ι ω V Buf) (k : SessionNumber) (ch : Channel ι)
    (n : Nat) : Option (State ι ω V Buf) :=
  let drained := unpacker.drain (ch.unparsed ++ ch.down.wire.take n)
  if 0 < n ∧ n ≤ ch.down.wire.length ∧ drained.failed = false then
    (Client.step mp (s.client ch.client)
      (.readDone .success drained.items)).map fun c =>
        (s.setClient ch.client c).setChannel k
          { ch with down := ch.down.deliver n, unparsed := drained.rest }
  else none

/-! ## The server -/

/-- What the network asks of a completion at the server. -/
def serverAdmits (s : State ι ω V Buf) : Server.Event → Bool
  | .acceptDone _ .success _ => s.server.created < s.channels.length
  | .readDone _ _ .success _ => false
  | .written _ k _ .success => s.channels[k]?.any fun ch =>
      !ch.down.cut && (ch.down.rest (s.downStream bytes k)).isEmpty
  | _ => true

/-- A write that fails cuts the connection off. -/
def channelsBehind (s : State ι ω V Buf) : Server.Event → List (Channel ι)
  | .written _ _ _ .success => s.channels
  | .written _ k _ _ =>
      s.channels.modify k fun ch => { ch with down := ch.down.cutOff }
  | _ => s.channels

/-- The read handler of the session is given the first `n` bytes on the way to
it. -/
def readUp (s : State ι ω V Buf) (t : ThreadId) (k : SessionNumber)
    (ch : Channel ι) (n : Nat) : Option (State ι ω V Buf) :=
  if 0 < n ∧ n ≤ ch.up.wire.length then
    (Server.step mp unpacker disp s.server
      (.readDone t k .success (ch.up.wire.take n))).map fun server =>
        ({ s with server := server }).setChannel k
          { ch with up := ch.up.deliver n }
  else none

end State

/-! ## The transition system -/

/-- What can happen next: a connection is established, something happens at a
client or at the server, or bytes move. -/
inductive Event (ι : Type) where
  | establish (i : ι)
  | client (i : ι) (e : Client.Event)
  | server (e : Server.Event)
  /-- The socket of the client takes bytes of the write in progress. -/
  | takeUp (k : SessionNumber) (n : Nat)
  /-- The socket of the session does. -/
  | takeDown (k : SessionNumber) (n : Nat)
  | readUp (t : ThreadId) (k : SessionNumber) (n : Nat)
  | readDown (k : SessionNumber) (n : Nat)

/-- The step of the network. -/
def step (s : State ι ω V Buf) : Event ι → Option (State ι ω V Buf)
  | .establish i =>
      if (s.client i).escaped = none ∧ 0 < (s.client i).connecting ∧
        s.established i = false then some (s.establish i)
      else none
  | .client i e =>
      if s.clientAdmits bytes i e then
        (Client.step mp (s.client i) e).map fun c =>
          { s.setClient i c with channels := s.channelsAfter i e }
      else none
  | .server e =>
      if s.serverAdmits bytes e then
        (Server.step mp unpacker disp s.server e).map fun server =>
          { s with server := server, channels := s.channelsBehind e }
      else none
  | .takeUp k n =>
      s.channels[k]?.bind fun ch =>
        if ch.up.cut = false ∧ 0 < n ∧
          n ≤ (ch.up.rest (s.upStream bytes ch)).length then
          some (s.setChannel k
            { ch with up := ch.up.take (s.upStream bytes ch) n })
        else none
  | .takeDown k n =>
      s.channels[k]?.bind fun ch =>
        if k < s.server.created ∧ ch.down.cut = false ∧ 0 < n ∧
          n ≤ (ch.down.rest (s.downStream bytes k)).length then
          some (s.setChannel k
            { ch with down := ch.down.take (s.downStream bytes k) n })
        else none
  | .readUp t k n =>
      s.channels[k]?.bind fun ch => s.readUp mp unpacker disp t k ch n
  | .readDown k n =>
      s.channels[k]?.bind fun ch => s.readDown mp unpacker k ch n

/-- The states that an event leads to, with what enables it. -/
inductive Effect (s : State ι ω V Buf) : Event ι → State ι ω V Buf → Prop
  | establish {i : ι} (hlive : (s.client i).escaped = none)
      (hconnecting : 0 < (s.client i).connecting)
      (hfresh : s.established i = false) :
      Effect s (.establish i) (s.establish i)
  | client {i : ι} {e : Client.Event} {c : Client.State Buf}
      (hadmits : s.clientAdmits bytes i e = true)
      (hstep : Client.step mp (s.client i) e = some c) :
      Effect s (.client i e)
        { s.setClient i c with channels := s.channelsAfter i e }
  | server {e : Server.Event} {server : Server.State ω V Buf}
      (hadmits : s.serverAdmits bytes e = true)
      (hstep : Server.step mp unpacker disp s.server e = some server) :
      Effect s (.server e)
        { s with server := server, channels := s.channelsBehind e }
  | takeUp {k : SessionNumber} {n : Nat} {ch : Channel ι}
      (hch : s.channels[k]? = some ch) (hopen : ch.up.cut = false)
      (hpos : 0 < n) (hn : n ≤ (ch.up.rest (s.upStream bytes ch)).length) :
      Effect s (.takeUp k n)
        (s.setChannel k { ch with up := ch.up.take (s.upStream bytes ch) n })
  | takeDown {k : SessionNumber} {n : Nat} {ch : Channel ι}
      (hch : s.channels[k]? = some ch) (hk : k < s.server.created)
      (hopen : ch.down.cut = false) (hpos : 0 < n)
      (hn : n ≤ (ch.down.rest (s.downStream bytes k)).length) :
      Effect s (.takeDown k n)
        (s.setChannel k
          { ch with down := ch.down.take (s.downStream bytes k) n })
  | readUp {t : ThreadId} {k : SessionNumber} {n : Nat} {ch : Channel ι}
      {server : Server.State ω V Buf} (hch : s.channels[k]? = some ch)
      (hpos : 0 < n) (hn : n ≤ ch.up.wire.length)
      (hstep : Server.step mp unpacker disp s.server
        (.readDone t k .success (ch.up.wire.take n)) = some server) :
      Effect s (.readUp t k n)
        (({ s with server := server } : State ι ω V Buf).setChannel k
          { ch with up := ch.up.deliver n })
  | readDown {k : SessionNumber} {n : Nat} {ch : Channel ι}
      {c : Client.State Buf} (hch : s.channels[k]? = some ch)
      (hpos : 0 < n) (hn : n ≤ ch.down.wire.length)
      (hok : (unpacker.drain (ch.unparsed ++ ch.down.wire.take n)).failed =
        false)
      (hstep : Client.step mp (s.client ch.client) (.readDone .success
        (unpacker.drain (ch.unparsed ++ ch.down.wire.take n)).items) =
          some c) :
      Effect s (.readDown k n)
        ((s.setClient ch.client c).setChannel k
          { ch with
            down := ch.down.deliver n
            unparsed :=
              (unpacker.drain (ch.unparsed ++ ch.down.wire.take n)).rest })

/-- A step has one of the effects. -/
theorem effect_of_step {s s' : State ι ω V Buf} {e : Event ι}
    (hstep : step mp bytes unpacker disp s e = some s') :
    Effect mp bytes unpacker disp s e s' := by
  cases e with
  | establish i =>
      obtain ⟨⟨hlive, hconnecting, hfresh⟩, rfl⟩ :
          ((s.client i).escaped = none ∧ 0 < (s.client i).connecting ∧
            s.established i = false) ∧ s.establish i = s' := by
        simpa [step] using hstep
      exact .establish hlive hconnecting hfresh
  | client i e =>
      dsimp only [step] at hstep
      split at hstep
      · rename_i hadmits
        obtain ⟨c, hc, rfl⟩ := Option.map_eq_some_iff.mp hstep
        exact .client hadmits hc
      · cases hstep
  | server e =>
      dsimp only [step] at hstep
      split at hstep
      · rename_i hadmits
        obtain ⟨server, hserver, rfl⟩ := Option.map_eq_some_iff.mp hstep
        exact .server hadmits hserver
      · cases hstep
  | takeUp k n =>
      obtain ⟨ch, hch, hstep⟩ := Option.bind_eq_some_iff.mp hstep
      split at hstep
      · rename_i hcond
        obtain rfl := Option.some.inj hstep
        exact .takeUp hch hcond.1 hcond.2.1 hcond.2.2
      · cases hstep
  | takeDown k n =>
      obtain ⟨ch, hch, hstep⟩ := Option.bind_eq_some_iff.mp hstep
      split at hstep
      · rename_i hcond
        obtain rfl := Option.some.inj hstep
        exact .takeDown hch hcond.1 hcond.2.1 hcond.2.2.1 hcond.2.2.2
      · cases hstep
  | readUp t k n =>
      obtain ⟨ch, hch, hstep⟩ := Option.bind_eq_some_iff.mp hstep
      unfold State.readUp at hstep
      split at hstep
      · rename_i hcond
        obtain ⟨server, hserver, rfl⟩ := Option.map_eq_some_iff.mp hstep
        exact .readUp hch hcond.1 hcond.2 hserver
      · cases hstep
  | readDown k n =>
      obtain ⟨ch, hch, hstep⟩ := Option.bind_eq_some_iff.mp hstep
      unfold State.readDown at hstep
      dsimp only at hstep
      split at hstep
      · rename_i hcond
        obtain ⟨c, hc, rfl⟩ := Option.map_eq_some_iff.mp hstep
        exact .readDown hch hcond.1 hcond.2.1 hcond.2.2 hc
      · cases hstep

/-- The step that the server takes. -/
def serverEvent (s : State ι ω V Buf) : Event ι → Option Server.Event
  | .server e => some e
  | .readUp t k n =>
      s.channels[k]?.map fun ch =>
        .readDone t k .success (ch.up.wire.take n)
  | _ => none

/-- The server is a component of the network. -/
def serverPart :
    Component (step (ι := ι) mp bytes unpacker disp)
      (Server.step mp unpacker disp) where
  get := State.server
  set := fun s server => { s with server := server }
  label := serverEvent
  get_set := fun _ _ => rfl
  set_get := fun _ => rfl
  follows := by
    intro s e s' hstep
    cases effect_of_step mp bytes unpacker disp hstep with
    | server hadmits hserver => exact hserver
    | @readUp t k n ch server hch hpos hn hserver =>
        have hlabel : serverEvent s (.readUp t k n) =
            some (.readDone t k .success (ch.up.wire.take n)) :=
          congrArg (Option.map _) hch
        rw [hlabel]
        exact hserver
    | _ => rfl

end Network
end System
end RpcLib
