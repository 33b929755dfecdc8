import RpcLib.Client.Causality
import RpcLib.System.EndToEnd

/-!
# What a client has done before a call

With one thread the server dispatches the messages of a connection in the order
in which the socket of the client was given them.  So a call sees what its
client has posted before it, notifications included, unless a write failed
before the connection was established.

* `OneThread`: the runs of a network whose server has one thread.
* `server_of_reachable`: the server of such a run is one of its own.
* `decodedOf_isPrefix`: a session takes up the messages in the order of the
  socket.
* `calls_see_posted`: the result.
-/

namespace RpcLib
namespace System
namespace Network

open Protocol Transport Foundation TransitionSystem Server

variable {ι ω V Buf : Type} [DecidableEq ι] {mp : MsgPack Buf}
  {bytes : Buf → List UInt8} {unpacker : Decoder Object UInt8}
  {disp : Dispatcher ω V}

/-- One thread runs the server. -/
def OnThread (s : State ι ω V Buf) : Event ι → Prop
  | .server e => SingleThread s.server e
  | .readUp t _ _ => t = 0
  | _ => True

/-- One thread runs the server, and no client makes `2 ^ 32` calls. -/
def OneThread (s : State ι ω V Buf) (e : Event ι) : Prop :=
  FewCalls s e ∧ OnThread s e

/-- A short list of such events. -/
theorem oneThread_of_length {s : State ι ω V Buf} {es : List (Event ι)}
    (hshort : ∀ i, (s.client i).issued.length + es.length < UInt32.size)
    (hthread : ∀ e ∈ es, ∀ s : State ι ω V Buf, OnThread s e) :
    EachStep (step mp bytes unpacker disp) OneThread s es :=
  eachStep_and (fewCalls_of_length hshort) (eachStep_of_forall hthread s)

/-- What the server has done it has done as a server of its own. -/
theorem server_of_reachable {app : ω} {s : State ι ω V Buf}
    (hreach : Reachable (step mp bytes unpacker disp) OneThread
      (.initial disp app) s) :
    Reachable (Server.step mp unpacker disp) SingleThread
      (.initial disp app) s.server := by
  refine hreach.invariant
    (I := fun s => Reachable (Server.step mp unpacker disp) SingleThread
      (.initial disp app) s.server) .start fun s e s' h hguard hstep => ?_
  cases effect_of_step mp bytes unpacker disp hstep with
  | server hadmits hserver => exact h.next hguard.2 hserver
  | readUp hch hpos hn hserver =>
      exact h.next (e := .readDone _ _ _ _) hguard.2 hserver
  | _ => exact h

/-- What was posted before a call is before it at every client. -/
theorem causal_of_reachable {guard : State ι ω V Buf → Event ι → Prop}
    {app : ω} {s : State ι ω V Buf}
    (hreach : Reachable (step mp bytes unpacker disp) guard
      (.initial disp app) s) (i : ι) : Client.Causal mp (s.client i) := by
  refine (hreach.invariant
    (I := fun s => ∀ i, Client.Sending mp (s.client i) ∧
      Client.Causal mp (s.client i))
    (fun _ => ⟨.initial mp, .initial mp⟩) (fun s e s' h _ hstep => ?_) i).2
  have hgoesOn : ∀ {j : ι} {e : Client.Event} {c : Client.State Buf},
      Client.step mp (s.client j) e = some c →
        Client.Sending mp c ∧ Client.Causal mp c := by
    intro j e c hstep
    obtain ⟨hsending, hcausal⟩ := h j
    have heffect := (Client.effect_of_step mp hstep).2
    exact ⟨hsending.step heffect, hcausal.step hsending.conserved heffect⟩
  cases effect_of_step mp bytes unpacker disp hstep with
  | client hadmits hclient' =>
      exact Sound.everyClient (P := fun c => Client.Sending mp c ∧
        Client.Causal mp c) h (hgoesOn hclient')
  | readDown hch hpos hn hok hclient' =>
      exact Sound.everyClient (P := fun c => Client.Sending mp c ∧
        Client.Causal mp c) h (hgoesOn hclient')
  | _ => exact h

/-- A session takes up the messages of its client in the order in which the
socket of the client was given them. -/
theorem decodedOf_isPrefix {app : ω} {s : State ι ω V Buf}
    (hreach : Reachable (step mp bytes unpacker disp) OneThread
      (.initial disp app) s) (hlegible : Legible mp bytes unpacker s)
    {k : SessionNumber} {ch : Channel ι} (hch : s.channels[k]? = some ch) :
    s.server.decodedOf k <+:
      ((s.client ch.client).writer.started.drop ch.failed).filterMap
        mp.unpack := by
  have hsound := sound_of_reachable
    (hreach.mono fun _ _ hguard => hguard.1) hlegible
  have hsending := hsound.sending ch.client
  by_cases hk : k < s.server.created
  · obtain ⟨hnumbered, hdecoding⟩ := (server_of_reachable hreach).invariant
      (I := fun s => Numbered s ∧ Decoding unpacker s)
      ⟨.initial disp app, .initial unpacker disp app⟩
      fun _ _ _ ⟨hnumbered, hdecoding⟩ hsingle hstep =>
        ⟨hnumbered.step mp unpacker disp hstep,
          hdecoding.step mp unpacker disp hnumbered hsingle hstep⟩
    have hcarried := hsound.carried k ch hch
    obtain ⟨future, hfuture⟩ :=
      (hcarried.received hk).trans hcarried.up.delivered_isPrefix
    rw [Carried.upStream_eq hsending hlegible.movedFrom] at hfuture
    obtain ⟨unread, hsplit, -⟩ := hdecoding k hk _ _ future
      (Carried.upStream_reads hsending (hlegible.requests ch.client)) hfuture
    exact ⟨unread, hsplit⟩
  · rw [hsound.serving.decodedOf_eq_nil (Nat.le_of_not_lt hk)]
    exact List.nil_prefix

/-- Before the message of a dispatch the socket was given the messages that the
session has dispatched before. -/
theorem exists_given {app : ω} {s : State ι ω V Buf}
    (hreach : Reachable (step mp bytes unpacker disp) OneThread
      (.initial disp app) s) (hlegible : Legible mp bytes unpacker s)
    {d : Dispatched ω V} {ch : Channel ι}
    (hch : s.channels[d.number]? = some ch)
    {before after : List (Dispatched ω V)}
    (hsplit : s.server.dispatched = before ++ d :: after) :
    ∃ sent buffer unsent,
      (s.client ch.client).writer.started.drop ch.failed =
        sent ++ buffer :: unsent ∧
      mp.unpack buffer = some d.msg ∧
      sent.filterMap mp.unpack =
        (before.filter fun d' => d'.number = d.number).map
          Dispatched.msg := by
  obtain ⟨rest, hrest⟩ := decodedOf_isPrefix hreach hlegible hch
  have hdispatched : s.server.dispatchedOf d.number =
      before.filter (fun d' => d'.number = d.number) ++
        d :: after.filter fun d' => d'.number = d.number := by
    rw [State.dispatchedOf, hsplit]
    simp
  rw [State.decodedOf, hdispatched, List.map_append, List.map_cons,
    List.append_assoc, List.append_assoc] at hrest
  obtain ⟨sent, given, hdrop, hsent, hgiven⟩ :=
    List.filterMap_eq_append_iff.mp hrest.symm
  obtain ⟨empty, buffer, unsent, rfl, hempty, hunpack, -⟩ :=
    List.filterMap_eq_cons_iff.mp hgiven
  refine ⟨sent ++ empty, buffer, unsent, by rw [hdrop, List.append_assoc],
    hunpack, ?_⟩
  rw [List.filterMap_append, hsent, List.filterMap_eq_nil_iff.mpr hempty,
    List.append_nil]

omit [DecidableEq ι] in
/-- An answered call is answered on the connection of its client. -/
theorem AnsweredBy.number_eq {app : ω} {s : State ι ω V Buf}
    (hsound : Sound mp bytes unpacker disp app s) {k : SessionNumber}
    {ch : Channel ι} (hch : s.channels[k]? = some ch) {c : Client.Call}
    {d : Dispatched ω V} {resp : Response}
    (h : AnsweredBy mp s ch.client c d resp) : d.number = k := by
  have hclient : s.clients[k]? = some ch.client := by
    rw [State.clients, List.getElem?_map, hch]
    rfl
  obtain ⟨hlt, -⟩ := List.getElem?_eq_some_iff.mp h.connection
  exact (List.getElem?_inj hlt hsound.oneEach).mp
    (h.connection.trans hclient.symm)

/-- Everything that a client has posted before a call that is answered was
dispatched before the call, unless it was written before the connection was
established. -/
theorem AnsweredBy.sees_posted {app : ω} {s : State ι ω V Buf}
    (hreach : Reachable (step mp bytes unpacker disp) OneThread
      (.initial disp app) s) (hlegible : Legible mp bytes unpacker s)
    {k : SessionNumber} {ch : Channel ι} (hch : s.channels[k]? = some ch)
    {c : Client.Call} (hc : c ∈ (s.client ch.client).issued)
    {d : Dispatched ω V} {resp : Response}
    (hanswered : AnsweredBy mp s ch.client c d resp) {first later : List Buf}
    (hposted : (s.client ch.client).posted = first ++ c.buffer mp :: later) :
    ∃ before after, s.server.dispatched = before ++ d :: after ∧
      (first.filterMap mp.unpack).Subperm
        (((s.client ch.client).writer.started.take ch.failed).filterMap
          mp.unpack ++
            (before.filter fun d' => d'.number = k).map Dispatched.msg) := by
  have hsound := sound_of_reachable
    (hreach.mono fun _ _ hguard => hguard.1) hlegible
  have hcorrelated := hsound.correlated ch.client
  obtain ⟨hd, hid⟩ := hanswered.recorded
  obtain rfl := hanswered.number_eq hsound hch
  obtain ⟨before, after, hsplit⟩ := List.append_of_mem hd
  refine ⟨before, after, hsplit, ?_⟩
  obtain ⟨sent, buffer, unsent, hdrop, hunpack, hsent⟩ :=
    exists_given hreach hlegible hch hsplit
  obtain rfl : buffer = c.buffer mp := by
    have hbufferId : Request.bufferId mp buffer = some c.idx.toUInt32 := by
      rw [Request.bufferId, hunpack]
      exact hid
    exact hcorrelated.buffer_of_id
      (List.mem_of_mem_drop (hdrop ▸ List.mem_append_right _
        List.mem_cons_self)) hc hbufferId
  -- the socket was given the call behind what was posted before it
  have hstarted : (s.client ch.client).writer.started =
      ((s.client ch.client).writer.started.take ch.failed ++ sent) ++
        c.buffer mp :: unsent := by
    rw [List.append_assoc, ← hdrop, List.take_append_drop]
  obtain ⟨earlier, others, hstarted', hearlier⟩ :=
    (causal_of_reachable hreach ch.client).before_of_started mp hcorrelated
      hposted (hstarted ▸ List.mem_append_right _ List.mem_cons_self)
  have hnodup := hcorrelated.started_nodup mp
  rw [hstarted'] at hnodup
  obtain ⟨rfl, -⟩ := Client.before_unique (Client.isRequest_buffer mp c)
    hnodup (hstarted'.symm.trans hstarted)
  have hmessages := subperm_filterMap hearlier mp.unpack
  rw [filterMap_unpack_messages, List.filterMap_append] at hmessages
  rw [← hsent]
  exact hmessages

variable (mp bytes unpacker disp)

/-- When a call is answered, everything that its client has posted before it
was dispatched before it, apart from what was written before the connection was
established. -/
theorem calls_see_posted {app : ω} {s : State ι ω V Buf}
    (hreach : Reachable (step mp bytes unpacker disp) OneThread
      (.initial disp app) s) (hlegible : Legible mp bytes unpacker s)
    {k : SessionNumber} {ch : Channel ι} (hch : s.channels[k]? = some ch)
    {c : Client.Call} (hc : c ∈ (s.client ch.client).issued)
    {outcome : Client.Outcome}
    (hready : (s.client ch.client).shared (.call c.number) = some outcome)
    {first later : List Buf}
    (hposted : (s.client ch.client).posted = first ++ c.buffer mp :: later) :
    ∃ before d after resp, s.server.dispatched = before ++ d :: after ∧
      AnsweredBy mp s ch.client c d resp ∧
      outcome = outcomeOfResponse resp c.funcName ∧
      (first.filterMap mp.unpack).Subperm
        (((s.client ch.client).writer.started.take ch.failed).filterMap
          mp.unpack ++
            (before.filter fun d' => d'.number = k).map Dispatched.msg) := by
  have hsound := sound_of_reachable
    (hreach.mono fun _ _ hguard => hguard.1) hlegible
  obtain ⟨d, resp, hanswered, hvalue⟩ := hsound.answered hlegible hc hready
  obtain ⟨before, after, hsplit, hseen⟩ :=
    hanswered.sees_posted hreach hlegible hch hc hposted
  exact ⟨before, d, after, resp, hsplit, hanswered, hvalue, hseen⟩

/-- The bytes of the messages of a run. -/
def notifiedBytes : Option Object → List UInt8
  | some (.array [_, .str _, _]) => [0x93, 2, 0xa1, 0x6e, 0x90]
  | some (.array [.positiveInteger 0, _, _, _]) => [0x94, 0, 1, 0xa1, 0x67, 0x90]
  | some (.array [_, _, _, _]) => [0x94, 1, 1, 0xc0, 1]
  | _ => []

/-- A client notifies `n` and calls `g`. -/
def notifyThenAsk : List (Event Unit) :=
  [.establish (), .server (.acceptDone 0 .success 10),
    .client () .connectDone, .server (.resume 0), .client () .runStrand,
    .client () (.notify "n" []), .client () (.draw "g" []),
    .client () (.post 0), .client () .runStrand, .client () .runStrand,
    .takeUp 0 5, .client () (.writeDone 0 .success), .takeUp 0 6,
    .readUp 0 0 7, .readUp 0 0 4, .server (.dispatch 0 0),
    .server (.dispatch 0 0), .server (.runStrand 0 0), .takeDown 0 5,
    .readDown 0 5]

theorem notified_reads {msg : Object}
    (hmsg : msg = .array [.positiveInteger 2, .str "n", .array []] ∨
      msg = .array [.positiveInteger 0, .positiveInteger 1, .str "g",
        .array []] ∨
      msg = .array [.positiveInteger 1, .positiveInteger 1, .nil,
        .positiveInteger 1]) :
    MsgPack.shortForms.Reads (encode .reference notifiedBytes) msg := by
  rcases hmsg with rfl | rfl | rfl
  · exact .of_waits (fun rest => rfl) rfl
  · exact .of_waits (fun rest => rfl) rfl
  · exact .of_waits (fun rest => by cases rest <;> rfl) rfl

/-- The answer to the call counts the notification. -/
theorem calls_see_posted_notified :
    ∃ (s : State Unit Nat Unit (Option Object)) (before : List _)
      (d : Dispatched Nat Unit) (after : List _) (resp : Response),
      s.server.dispatched = before ++ d :: after ∧
      AnsweredBy .reference s () ⟨0, 1, "g", []⟩ d resp ∧
      .value (.positiveInteger 1) = outcomeOfResponse resp "g" ∧
      [Object.array [.positiveInteger 2, .str "n", .array []]].Subperm
        ((before.filter fun d' => d'.number = 0).map Dispatched.msg) := by
  have hends : (run (step .reference notifiedBytes MsgPack.shortForms counting)
      (.initial counting 0) notifyThenAsk).map (fun s =>
        ((s.client ()).issued, (s.client ()).shared (.call 0),
          (s.client ()).posted, s.channels.map fun ch => (ch.client, ch.failed),
          s.server.created, (s.server.connection 0).writer.started)) =
      some ([⟨0, 1, "g", []⟩], some (.value (.positiveInteger 1)),
        [some (.array [.positiveInteger 2, .str "n", .array []]),
          some (.array [.positiveInteger 0, .positiveInteger 1, .str "g",
            .array []])], [((), 0)], 1,
        [some (.array [.positiveInteger 1, .positiveInteger 1, .nil,
          .positiveInteger 1])]) := rfl
  obtain ⟨s, hrun, hend⟩ := Option.map_eq_some_iff.mp hends
  simp only [Prod.mk.injEq] at hend
  obtain ⟨hissued, hready, hposted, hchannels, hcreated, hstarted⟩ := hend
  have hreach : Reachable
      (step .reference notifiedBytes MsgPack.shortForms counting) OneThread
      (.initial counting 0) s := by
    have hfew : 0 + notifyThenAsk.length < UInt32.size := by decide
    exact reachable_of_run (oneThread_of_length (fun _ => hfew)
      (by simp [notifyThenAsk, OnThread, SingleThread])) hrun
  have hlegible : Legible .reference notifiedBytes MsgPack.shortForms s := by
    refine ⟨rfl, fun i buffer hbuffer msg hmsg => ?_,
      fun k hk buffer hbuffer msg hmsg => ?_⟩
    · rw [hposted] at hbuffer
      rcases List.mem_pair.mp hbuffer with rfl | rfl
      · exact notified_reads (Or.inl (Option.some.inj hmsg).symm)
      · exact notified_reads (Or.inr (Or.inl (Option.some.inj hmsg).symm))
    · obtain rfl : k = 0 := by omega
      rw [hstarted, List.mem_singleton] at hbuffer
      subst hbuffer
      exact notified_reads (Or.inr (Or.inr (Option.some.inj hmsg).symm))
  obtain ⟨ch, hch, hfailed⟩ : ∃ ch, s.channels[0]? = some ch ∧
      ch.failed = 0 := by
    obtain ⟨ch, hone, hch⟩ := List.map_eq_singleton_iff.mp hchannels
    exact ⟨ch, by rw [hone]; rfl, (Prod.mk.inj hch).2⟩
  have hbehind : (s.client ()).posted =
      [some (.array [.positiveInteger 2, .str "n", .array []])] ++
        Client.Call.buffer .reference ⟨0, 1, "g", []⟩ :: [] := hposted
  obtain ⟨before, d, after, resp, hsplit, hanswered, hvalue, hseen⟩ :=
    calls_see_posted .reference notifiedBytes MsgPack.shortForms counting
      hreach hlegible hch (by rw [hissued]; simp) hready hbehind
  rw [hfailed] at hseen
  exact ⟨s, before, d, after, resp, hsplit, hanswered, hvalue, hseen⟩

end Network
end System
end RpcLib
