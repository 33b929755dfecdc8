import Mathlib.Data.List.Infix
import RpcLib.Client.Sending
import RpcLib.Server.Answering
import RpcLib.System.Network

/-!
# What the network keeps

The invariant that ties the clients to the server, through the connections
between them.  It holds in every run in which no client makes `2 ^ 32` calls,
whatever fails, and needs of msgpack only that the unpacker reads the messages
of the run (`Legible`).

* `Carried`: what a link has taken is a first part of what was written; a
  session has received what was delivered to it, and a client has handled the
  first of the replies of its session.
* `Carried.dispatched_ids_nodup`, `Carried.reply_requested`: a session runs no
  request twice, and answers only what its client has asked.
* `Carried.answersRequests`: so every chunk that a client reads is one that
  `Correlated` asks for, and none is malformed.
* `sound_of_reachable`: the invariant of the whole network.
-/

namespace RpcLib
namespace System
namespace Network

open Protocol Transport Foundation TransitionSystem Server

variable {ι ω V Buf : Type} (mp : MsgPack Buf)
  (bytes : Buf → List UInt8) (unpacker : Decoder Object UInt8)
  (disp : Dispatcher ω V)

/-- The bytes of a message. -/
def encode (msg : Object) : List UInt8 := bytes (mp.pack msg)

/-- The unpacker reads the messages in the buffers. -/
def Readable (buffers : List Buf) : Prop :=
  ∀ buffer ∈ buffers, ∀ msg, mp.unpack buffer = some msg →
    unpacker.Reads (encode mp bytes) msg

/-- What the run needs of msgpack: a buffer that was moved from has no bytes,
and the unpacker reads the messages that were written. -/
structure Legible (s : State ι ω V Buf) : Prop where
  movedFrom : bytes mp.movedFrom = []
  requests : ∀ i, Readable mp bytes unpacker (s.client i).posted
  replies : ∀ k < s.server.created,
    Readable mp bytes unpacker (s.server.connection k).writer.started

/-! ## One connection -/

/-- What holds between a client and the session at the other end of its
connection. -/
structure Carried (server : Server.State ω V Buf) (client : Client.State Buf)
    (k : SessionNumber) (ch : Channel ι) : Prop where
  up : ch.up.Carries ((client.writer.started.drop ch.failed).flatMap bytes)
  /-- Before the session exists nothing was read or written on its side. -/
  before : server.created ≤ k → ch.up.delivered = [] ∧ ch.down.sent = []
  down : k < server.created →
    ch.down.Carries ((server.connection k).writer.started.flatMap bytes)
  received : k < server.created →
    (server.connection k).received <+: ch.up.delivered
  /-- An open session has decoded everything it was given. -/
  whole : k < server.created → (server.connection k).writer.exit = false →
    (server.connection k).received = ch.up.delivered
  read : ∃ replies, replies <+: server.repliesOf k ∧
    client.responses = replies.map (fun r => r.message.decoded) ∧
    unpacker.Decodes ch.down.delivered (replies.map Response.frame)
      ch.unparsed

namespace Carried

variable {mp bytes unpacker disp} {server server' : Server.State ω V Buf}
  {client client' : Client.State Buf} {k : SessionNumber} {ch : Channel ι}

/-- The client goes on, and reads nothing. -/
theorem of_client (h : Carried bytes unpacker server client k ch)
    (hgrown : Client.Grown client client')
    (hresponses : client'.responses = client.responses) :
    Carried bytes unpacker server client' k ch := by
  have hstarted := hgrown.started.drop ch.failed
  exact { h with
    up := h.up.extend (flatMap_isPrefix hstarted bytes)
    read := hresponses.symm ▸ h.read }

/-- The server goes on, and this session reads nothing. -/
theorem of_server (h : Carried bytes unpacker server client k ch)
    {e : Server.Event}
    (hstep : Server.step mp unpacker disp server e = some server')
    (hnone : e.chunkFor server k = []) :
    Carried bytes unpacker server' client k ch := by
  obtain ⟨replies, hreplies, hresponses, hdecodes⟩ := h.read
  have hread : ∃ replies, replies <+: server'.repliesOf k ∧
      client.responses = replies.map (fun r => r.message.decoded) ∧
      unpacker.Decodes ch.down.delivered (replies.map Response.frame)
        ch.unparsed :=
    ⟨replies, hreplies.trans (repliesOf_of_step mp unpacker disp hstep k),
      hresponses, hdecodes⟩
  by_cases hk : k < server.created
  · obtain ⟨-, hmove, hreceived⟩ := touched_of_step mp unpacker disp hstep hk
    rw [hnone, List.append_nil] at hreceived
    refine ⟨h.up, fun hk' => ?_, fun _ => ?_, fun _ => ?_, fun _ hopen => ?_,
      hread⟩
    · have hle := created_le_of_step mp unpacker disp hstep
      exact absurd hk (Nat.not_lt.mpr (Nat.le_trans hle hk'))
    · exact (h.down hk).extend (flatMap_isPrefix (hmove.started mp) bytes)
    · rw [hreceived]
      exact h.received hk
    · rw [hreceived]
      exact h.whole hk (hmove.open_of_open mp hopen)
  · obtain ⟨hdelivered, hsent⟩ := h.before (Nat.le_of_not_lt hk)
    refine ⟨h.up, fun _ => ⟨hdelivered, hsent⟩, fun hk' => ?_, fun hk' => ?_,
      fun hk' _ => ?_, hread⟩
    all_goals
      obtain ⟨session, hfresh⟩ :=
        connection_of_new mp unpacker disp hstep (Nat.le_of_not_lt hk) hk'
      rw [hfresh]
    · show ch.down.sent <+: _
      rw [hsent]
      exact List.nil_prefix
    · exact List.nil_prefix
    · exact hdelivered.symm

/-- A piece of what has arrived is given to the session. -/
theorem readUp (h : Carried bytes unpacker server client k ch)
    {t : ThreadId} {n : Nat}
    (hstep : Server.step mp unpacker disp server
      (.readDone t k .success (ch.up.wire.take n)) = some server') :
    Carried bytes unpacker server' client k
      { ch with up := ch.up.deliver n } := by
  have hk := created_of_readDone mp unpacker disp hstep
  obtain ⟨-, hmove, hreceived⟩ := touched_of_step mp unpacker disp hstep hk
  have hle := created_le_of_step mp unpacker disp hstep
  obtain ⟨replies, hreplies, hresponses, hdecodes⟩ := h.read
  refine ⟨h.up.deliver n, fun hk' => ?_, fun _ => ?_, fun _ => ?_,
    fun _ hopen => ?_, replies, ?_, hresponses, hdecodes⟩
  · exact absurd hk (Nat.not_lt.mpr (Nat.le_trans hle hk'))
  · exact (h.down hk).extend (flatMap_isPrefix (hmove.started mp) bytes)
  · rw [hreceived]
    cases hexit : (server.connection k).writer.exit with
    | true =>
        -- a closed session drops what it is given
        rw [chunkFor_of_exit hexit, List.append_nil]
        exact (h.received hk).trans (List.prefix_append _ _)
    | false =>
        rw [h.whole hk hexit]
        simp [Server.Event.chunkFor, hexit, Link.deliver]
  · have hopen' := hmove.open_of_open mp hopen
    rw [hreceived, h.whole hk hopen']
    simp [Server.Event.chunkFor, hopen', Link.deliver]
  · exact hreplies.trans (repliesOf_of_step mp unpacker disp hstep k)

/-! ## What the two sides know of each other -/

section Known

variable {app : ω} (hserving : Serving mp unpacker disp app server)
  (hsending : Client.Sending mp client)
  (hmoved : bytes mp.movedFrom = [])
  (hrequests : Readable mp bytes unpacker client.posted)

include hsending hmoved in
/-- The client's bytes are those of the messages that it has handed over. -/
theorem upStream_eq (n : Nat) :
    (client.writer.started.drop n).flatMap bytes =
      ((client.writer.started.drop n).filterMap mp.unpack).flatMap
        (encode mp bytes) := by
  refine flatMap_of_holdsItem fun buffer hbuffer => ?_
  rcases hsending.of_started (List.mem_of_mem_drop hbuffer) with
    rfl | ⟨-, msg, rfl⟩
  · simp [HoldsItem, hmoved]
  · simp [HoldsItem, encode]

include hsending hrequests in
/-- They are readable. -/
theorem upStream_reads {n : Nat} :
    ∀ msg ∈ (client.writer.started.drop n).filterMap mp.unpack,
      unpacker.Reads (encode mp bytes) msg := by
  intro msg hmsg
  obtain ⟨buffer, hbuffer, hunpack⟩ := List.mem_filterMap.mp hmsg
  rcases hsending.of_started (List.mem_of_mem_drop hbuffer) with
    rfl | ⟨hposted, -⟩
  · simp at hunpack
  · exact hrequests buffer hposted msg hunpack

include hserving hsending hmoved hrequests in
/-- What the session has decoded are the first messages on its connection, in
some order. -/
theorem decoded_perm (h : Carried bytes unpacker server client k ch)
    (hk : k < server.created) :
    ∃ arrived, (server.decodedOf k).Perm arrived ∧
      arrived <+:
        (client.writer.started.drop ch.failed).filterMap mp.unpack := by
  obtain ⟨arrived, hperm, hdecodes⟩ := hserving.arriving k hk
  refine ⟨arrived, hperm, hdecodes.isPrefix
    (upStream_reads hsending hrequests) ?_⟩
  rw [← upStream_eq hsending hmoved]
  exact (h.received hk).trans h.up.delivered_isPrefix

include hserving hsending hmoved hrequests in
/-- A session dispatches messages that are on its connection. -/
theorem started_of_dispatched (h : Carried bytes unpacker server client k ch)
    {d : Dispatched ω V} (hd : d ∈ server.dispatchedOf k) :
    ∃ buffer ∈ client.writer.started, mp.unpack buffer = some d.msg := by
  by_cases hk : k < server.created
  · obtain ⟨arrived, hperm, harrived⟩ :=
      h.decoded_perm hserving hsending hmoved hrequests hk
    have hmem : d.msg ∈ server.decodedOf k :=
      List.mem_append_left _ (List.mem_map_of_mem hd)
    obtain ⟨buffer, hbuffer, hunpack⟩ :=
      List.mem_filterMap.mp (harrived.subset (hperm.subset hmem))
    exact ⟨buffer, List.mem_of_mem_drop hbuffer, hunpack⟩
  · rw [hserving.dispatchedOf_eq_nil (Nat.le_of_not_lt hk)] at hd
    cases hd

variable (hcorrelated : Client.Correlated mp client)

include hserving hsending hmoved hrequests hcorrelated in
/-- A session runs no request twice. -/
theorem dispatched_ids_nodup (h : Carried bytes unpacker server client k ch) :
    (((server.dispatchedOf k).map Dispatched.msg).filterMap
      (Request.replyId mp)).Nodup := by
  by_cases hk : k < server.created
  · obtain ⟨arrived, hperm, harrived⟩ :=
      h.decoded_perm hserving hsending hmoved hrequests hk
    have hids : (arrived.filterMap (Request.replyId mp)).Nodup := by
      have hfirst := (harrived.filterMap (Request.replyId mp)).sublist
      rw [Request.filterMap_bufferId] at hfirst
      have hdropped := (List.drop_sublist ch.failed
        client.writer.started).filterMap (Request.bufferId mp)
      exact (hfirst.trans hdropped).nodup hcorrelated.requestIds_nodup
    have hall := ((hperm.filterMap (Request.replyId mp)).nodup_iff).mpr hids
    have hsublist : ((server.dispatchedOf k).map Dispatched.msg).Sublist
        (server.decodedOf k) := List.sublist_append_left _ _
    exact (hsublist.filterMap _).nodup hall
  · rw [hserving.dispatchedOf_eq_nil (Nat.le_of_not_lt hk)]
    exact List.nodup_nil

include hserving hsending hmoved hrequests hcorrelated in
/-- So it answers no request twice. -/
theorem replies_nodup (h : Carried bytes unpacker server client k ch) :
    ((server.repliesOf k).map Response.id).Nodup :=
  (hserving.replyIds_sublist k).nodup
    (h.dispatched_ids_nodup hserving hsending hmoved hrequests hcorrelated)

include hserving hsending hmoved hrequests in
/-- It answers only what its client has asked. -/
theorem reply_requested (h : Carried bytes unpacker server client k ch)
    {r : Response} (hr : r ∈ server.repliesOf k) :
    Client.Requested mp client r.id := by
  have hid := (hserving.replyIds_sublist k).subset (List.mem_map_of_mem hr)
  obtain ⟨msg, hmsg, hid⟩ := List.mem_filterMap.mp hid
  obtain ⟨d, hd, rfl⟩ := List.mem_map.mp hmsg
  obtain ⟨buffer, hbuffer, hunpack⟩ :=
    h.started_of_dispatched hserving hsending hmoved hrequests hd
  refine Client.requested_of_bufferId mp hbuffer ?_
  rw [Request.bufferId, hunpack]
  exact hid

/-! ## What the client reads -/

/-- What the session has given to its socket is readable. -/
def RepliesReadable (mp : MsgPack Buf) (bytes : Buf → List UInt8)
    (unpacker : Decoder Object UInt8) (server : Server.State ω V Buf)
    (k : SessionNumber) : Prop :=
  Readable mp bytes unpacker (server.connection k).writer.started

variable (hreplies : k < server.created →
  RepliesReadable mp bytes unpacker server k)

include hserving hreplies in
/-- The objects in a chunk are the next replies of the session, and the chunk
is not malformed. -/
theorem next_replies (h : Carried bytes unpacker server client k ch)
    {replies : List Response} (hknown : replies <+: server.repliesOf k)
    (hdecodes : unpacker.Decodes ch.down.delivered
      (replies.map Response.frame) ch.unparsed)
    {n : Nat} (hpos : 0 < n) (hn : n ≤ ch.down.wire.length) :
    (unpacker.drain (ch.unparsed ++ ch.down.wire.take n)).failed = false ∧
      ∃ more, replies ++ more <+: server.repliesOf k ∧
        (unpacker.drain (ch.unparsed ++ ch.down.wire.take n)).items =
          more.map Response.frame := by
  have hk : k < server.created := by
    by_contra hnot
    -- nothing is on the way from a session that does not exist
    have hsent := (h.before (Nat.le_of_not_lt hnot)).2
    have hwire : ch.down.wire = [] := (List.append_eq_nil_iff.mp hsent).2
    rw [hwire, List.length_nil] at hn
    omega
  obtain ⟨sent, hsent, hstarted⟩ := hserving.started_eq hk
  have hdown := (h.down hk).deliver n |>.delivered_isPrefix
  have hstream : (server.connection k).writer.started.flatMap bytes =
      (sent.map Response.frame).flatMap (encode mp bytes) := by
    rw [hstarted, List.flatMap_map, List.flatMap_map]
    rfl
  have hreads : ∀ o ∈ sent.map Response.frame,
      unpacker.Reads (encode mp bytes) o := by
    intro o ho
    obtain ⟨r, hr, rfl⟩ := List.mem_map.mp ho
    refine hreplies hk (r.data mp) ?_ r.frame (mp.unpack_pack _)
    rw [hstarted]
    exact List.mem_map_of_mem hr
  rw [hstream] at hdown
  refine ⟨hdecodes.not_failed hreads hdown, ?_⟩
  have hitems := (hdecodes.chunk _).isPrefix hreads hdown
  obtain ⟨all, hall, hmap⟩ := List.prefix_map_iff.mp hitems
  -- the replies read before are the first of them
  have hfirst : replies <+: all := by
    refine List.prefix_of_prefix_length_le hknown (hall.trans hsent) ?_
    have hlength := congrArg List.length hmap
    simp only [List.length_append, List.length_map] at hlength
    omega
  obtain ⟨more, rfl⟩ := hfirst
  refine ⟨more, hall.trans hsent, ?_⟩
  rw [List.map_append] at hmap
  exact List.append_cancel_left hmap

include hserving hsending hmoved hrequests hcorrelated in
/-- The next replies of the session answer requests of the client, each once. -/
theorem answersRequests (h : Carried bytes unpacker server client k ch)
    {replies more : List Response} (hall : replies ++ more <+: server.repliesOf k)
    (hresponses : client.responses =
      replies.map fun r => r.message.decoded) :
    Client.AnswersRequests mp client
      (.readDone .success (more.map Response.frame)) := by
  have hnodup := h.replies_nodup hserving hsending hmoved hrequests hcorrelated
  have hids := (hall.sublist.map Response.id).nodup hnodup
  rw [List.map_append, List.nodup_append] at hids
  obtain ⟨-, hmore, hapart⟩ := hids
  refine ⟨fun _ _ hdraw => (nomatch hdraw), fun objs hread => ?_⟩
  obtain rfl : more.map Response.frame = objs := by
    simpa using hread
  refine ⟨more.map Response.message, by simp [Response.frame_eq],
    by simpa [Function.comp_def, Response.message] using hmore, ?_⟩
  intro m hm
  obtain ⟨r, hr, rfl⟩ := List.mem_map.mp hm
  refine ⟨?_, h.reply_requested hserving hsending hmoved hrequests
    (hall.subset (List.mem_append_right _ hr))⟩
  rw [hresponses]
  intro hanswered
  obtain ⟨d, hd, hid⟩ := List.mem_map.mp hanswered
  obtain ⟨r', hr', rfl⟩ := List.mem_map.mp hd
  exact hapart r'.id (List.mem_map_of_mem hr') r.id (List.mem_map_of_mem hr) hid

include hserving hsending hmoved hrequests hcorrelated hreplies in
/-- A piece of what has arrived is given to the client. -/
theorem readDown (h : Carried bytes unpacker server client k ch)
    {n : Nat} (hpos : 0 < n) (hn : n ≤ ch.down.wire.length)
    (hstep : Client.step mp client (.readDone .success
      (unpacker.drain (ch.unparsed ++ ch.down.wire.take n)).items) =
        some client') :
    Client.Correlated mp client' ∧
      Carried bytes unpacker server client' k
        { ch with
          down := ch.down.deliver n
          unparsed :=
            (unpacker.drain (ch.unparsed ++ ch.down.wire.take n)).rest } := by
  obtain ⟨replies, hknown, hresponses, hdecodes⟩ := h.read
  obtain ⟨-, more, hall, hitems⟩ :=
    h.next_replies hserving hreplies hknown hdecodes hpos hn
  have hguard := h.answersRequests hserving hsending hmoved hrequests
    hcorrelated hall hresponses
  rw [← hitems] at hguard
  have hcorrelated' := hcorrelated.step hguard hstep
  have hgrown := Client.grown_of_effect mp (Client.effect_of_step mp hstep).2
  refine ⟨hcorrelated', ⟨h.up.extend ?_, fun hk => ?_, fun hk => ?_, h.received,
    h.whole, replies ++ more, hall, ?_, ?_⟩⟩
  · exact flatMap_isPrefix (hgrown.started.drop ch.failed) bytes
  · exact ⟨(h.before hk).1, by rw [Link.sent_deliver, (h.before hk).2]⟩
  · exact (h.down hk).deliver n
  · rw [Client.readDone_responses mp hcorrelated' hstep, hresponses, hitems]
    simp [Response.frame_eq, List.filterMap_map, Function.comp_def]
  · have hchunk := hdecodes.chunk (ch.down.wire.take n)
    rw [hitems, ← List.map_append] at hchunk
    exact hchunk

end Known

end Carried

end Network
end System
end RpcLib
