import RpcLib.Client.ReadLoop
import RpcLib.Server.SessionReader

/-!
# Both read loops

A session reads on until it is closed or a read fails.  The client does so as
long as it can digest what it reads: an object that is no response, or a
response whose promise is satisfied already, makes an exception leave the
handler, and nothing is read after a completion that has succeeded.
`readsRight_iff` is the exact condition.  That the buffers are safe needs none
(`SessionReader.session_readLoop`, `Reader.always_safe`).
-/

namespace RpcLib
namespace System

open Protocol Client Server Transport Foundation TransitionSystem

variable {Buf U : Type} (mp : MsgPack Buf) (unpacker : Unpacker U)

/-- What the read loops are for, over a run of a session and a run of a
client: wherever a read begins it is the only one and there is room for it, a
successful completion is followed by one read, and a failed one, or one that
finds the session closed, by none. -/
structure ReadsRight (es : List SessionReader.Event)
    (es' : List Reader.Event) : Prop where
  sessionSafe : Always (SessionReader.step unpacker)
    (fun s => s.buffer.Safe unpacker)
    (SessionReader.started unpacker) es
  sessionReads : EachStep (SessionReader.step unpacker)
    (SessionReader.ReadsFollow unpacker)
    (SessionReader.started unpacker) es
  clientSafe : Always (Reader.step mp unpacker)
    (fun s => s.buffer.Safe unpacker) (Reader.initial unpacker) es'
  clientReads : EachStep (Reader.step mp unpacker)
    (Reader.ReadsFollow mp unpacker) (Reader.initial unpacker) es'

/-- Both loops do what they are for exactly when every chunk that the client
reads can be digested: its objects are responses with different ids, and no
entry of theirs has a satisfied promise. -/
theorem readsRight_iff (es : List SessionReader.Event)
    (es' : List Reader.Event) :
    ReadsRight mp unpacker es es' ↔
      EachStep (Reader.step mp unpacker) (Reader.Digested mp)
        (Reader.initial unpacker) es' := by
  rw [← Reader.eachStep_readsFollow_iff mp unpacker es']
  constructor
  · exact fun h => h.clientReads
  · intro hreads
    obtain ⟨hsafe, hfollow⟩ :=
      SessionReader.session_readLoop unpacker es
    exact ⟨hsafe, hfollow, Reader.always_safe mp unpacker es', hreads⟩

/-- An unpacker that keeps the number of free bytes. -/
def countingUnpacker : Unpacker Nat where
  init := 0
  bufferCapacity := id
  reserveBuffer free n := max free n
  bufferConsumed free k := free - k
  next := id
  capacity_reserve _ _ := Nat.le_max_right _ _

/-- A first chunk after which nothing is read again. -/
theorem not_readsRight {length : Nat} {objs : List Object} {s : Reader Buf U}
    (hrun : run (Reader.step mp unpacker) (Reader.initial unpacker)
      [.connectDone, .readDone .success length objs] = some s)
    (hissued : s.buffer.issued.length = 1) :
    ¬ ReadsRight mp unpacker []
      [.connectDone, .readDone .success length objs] := by
  intro hright
  obtain ⟨t, hconnect, hrest⟩ := Option.bind_eq_some_iff.mp hrun
  obtain ⟨_, hstep, hnil⟩ := Option.bind_eq_some_iff.mp hrest
  obtain rfl := Option.some.inj hnil
  obtain rfl := Option.some.inj hconnect
  obtain ⟨-, hlast⟩ := hright.clientReads _ hconnect
  obtain ⟨hfollow, -⟩ := hlast _ hstep
  obtain ⟨issue, hagain⟩ := (hfollow _ _ _ rfl _ hstep).again rfl
  have hlength := congrArg List.length hagain
  rw [hissued] at hlength
  cases hlength

/-- The server sends a response that answers no call twice in one chunk. -/
def repeatedChunk : List Reader.Event :=
  [.connectDone, .readDone .success 10
    [Response.Message.toObject ⟨1, 7, .nil, .nil⟩,
      Response.Message.toObject ⟨1, 7, .nil, .nil⟩]]

/-- The server sends an object that is no response. -/
def strayObject : List Reader.Event :=
  [.connectDone, .readDone .success 1 [.nil]]

/-- After either chunk the client does not read again. -/
theorem exception_ends_reading :
    ¬ ReadsRight .reference countingUnpacker [] repeatedChunk ∧
      (run (Reader.step .reference countingUnpacker)
        (Reader.initial countingUnpacker) repeatedChunk).map
          (fun s => s.client.escaped) =
        some (some (.read .alreadySatisfied)) ∧
      ¬ ReadsRight .reference countingUnpacker [] strayObject ∧
      (run (Reader.step .reference countingUnpacker)
        (Reader.initial countingUnpacker) strayObject).map
          (fun s => s.client.escaped) =
        some (some (.read .typeError)) := by
  refine ⟨not_readsRight .reference countingUnpacker rfl rfl, rfl,
    not_readsRight .reference countingUnpacker rfl rfl, rfl⟩

end System
end RpcLib
