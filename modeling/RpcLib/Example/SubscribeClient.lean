import RpcLib.Example.SubscribeServer
import RpcLib.MsgPack.ShortForms
import RpcLib.System.SessionOrder

/-!
# The clients of the example server

`subscribe_client.cpp` notifies `subscribe` with its own name, calls `list` and
prints what comes back.  `main` of the server runs one thread, so that the
`Master`, whose set is not locked, is called by one thread.

* `list_answered`: what a client reads from the answer to `list`: the names in
  the set; its own name is in it unless the notification was written before the
  connection was established, which the comment of the client warns of.
* `registrations_last`: nothing that one client has seen is gone when another
  asks later.
-/

namespace RpcLib
namespace Example

open Protocol Transport Foundation TransitionSystem Server RpcLib.System
  RpcLib.System.Network

variable {ι Buf : Type} [DecidableEq ι] (mp : MsgPack Buf)
  (bytes : Buf → List UInt8) (unpacker : Decoder Object UInt8)

/-! ## A run with two clients -/

/-- The bytes of the messages of this run. -/
def controlBytes : Option Object → List UInt8
  | some (.array [_, .str _, .array [_]]) =>
      [0x93, 2, 0xa9, 0x73, 0x75, 0x62, 0x73, 0x63, 0x72, 0x69, 0x62, 0x65,
        0x91, 0xa1, 0x61]
  | some (.array [.positiveInteger 0, .positiveInteger id, _, .array [_]]) =>
      [0x94, 0, id.toUInt8, 0xa9, 0x73, 0x75, 0x62, 0x73, 0x63, 0x72, 0x69,
        0x62, 0x65, 0x91, 0xa1, 0x62]
  | some (.array [.positiveInteger 0, .positiveInteger id, _, _]) =>
      [0x94, 0, id.toUInt8, 0xa4, 0x6c, 0x69, 0x73, 0x74, 0x90]
  | some (.array [_, .positiveInteger id, _, .nil]) =>
      [0x94, 1, id.toUInt8, 0xc0, 0xc0]
  | some (.array [_, .positiveInteger id, _, _]) =>
      [0x94, 1, id.toUInt8, 0xc0, 0x92, 0xa1, 0x61, 0xa1, 0x62]
  | _ => []

/-- One client notifies `subscribe`, calls it and asks. -/
def subscribeAndList : List (Network.Event Bool) :=
  [.establish false, .server (.acceptDone 0 .success 10),
    .client false .connectDone, .server (.resume 0),
    .client false .runStrand, .client false (.notify "subscribe" [.str "a"]),
    .client false (.draw "subscribe" [.str "b"]), .client false (.post 0),
    .client false (.draw "list" []), .client false (.post 0),
    .client false .runStrand, .client false .runStrand,
    .client false .runStrand, .takeUp 0 15,
    .client false (.writeDone 0 .success), .takeUp 0 16,
    .client false (.writeDone 0 .success), .takeUp 0 9, .readUp 0 0 20,
    .readUp 0 0 20, .server (.dispatch 0 0), .server (.dispatch 0 0),
    .server (.dispatch 0 0), .server (.runStrand 0 0),
    .server (.runStrand 0 0), .takeDown 0 5,
    .server (.written 0 0 0 .success), .takeDown 0 9, .readDown 0 14]

/-- Then another one asks. -/
def thenList : List (Network.Event Bool) :=
  [.establish true, .client true .connectDone, .client true .runStrand,
    .client true (.draw "list" []), .client true (.post 0),
    .client true .runStrand, .takeUp 1 9,
    .server (.acceptDone 0 .success 11), .server (.resume 0), .readUp 0 1 9,
    .server (.dispatch 0 0), .server (.runStrand 0 1), .takeDown 1 9,
    .readDown 1 9]

/-- The network of this run. -/
def controlStep (s : Network.State Bool Master String (Option Object))
    (e : Network.Event Bool) :
    Option (Network.State Bool Master String (Option Object)) :=
  step .reference controlBytes MsgPack.shortForms (control .reference) s e

/-- The messages of this run. -/
def subscribeMessage : Object :=
  .array [.positiveInteger 2, .str "subscribe", .array [.str "a"]]

def subscribeCall : Object :=
  .array [.positiveInteger 0, .positiveInteger 1, .str "subscribe",
    .array [.str "b"]]

def subscribedMessage : Object :=
  .array [.positiveInteger 1, .positiveInteger 1, .nil, .nil]

def listMessage (id : UInt64) : Object :=
  .array [.positiveInteger 0, .positiveInteger id, .str "list", .array []]

def namesMessage (id : UInt64) : Object :=
  .array [.positiveInteger 1, .positiveInteger id, .nil,
    .array [.str "a", .str "b"]]

/-- The calls of the first client. -/
def firstCalls : List Client.Call :=
  [⟨0, 1, "subscribe", [.str "b"]⟩, ⟨1, 2, "list", []⟩]

/-- What both are answered with. -/
def bothNames : Client.Outcome := .value (.array [.str "a", .str "b"])

theorem control_reads {msg : Object}
    (hmsg : msg ∈ [subscribeMessage, subscribeCall, subscribedMessage,
      listMessage 1, listMessage 2, namesMessage 1, namesMessage 2]) :
    MsgPack.shortForms.Reads (encode .reference controlBytes) msg := by
  simp only [List.mem_cons, List.not_mem_nil, or_false] at hmsg
  rcases hmsg with rfl | rfl | rfl | rfl | rfl | rfl | rfl <;>
    exact .of_waits (fun rest => by cases rest <;> rfl) rfl

/-- The states after the two parts of the run. -/
structure Controlled
    (s s' : Network.State Bool Master String (Option Object)) : Prop where
  first : Reachable controlStep OneThread (.initial (control .reference)
    .initial) s
  second : Reachable controlStep OneThread s s'
  legible : Legible .reference controlBytes MsgPack.shortForms s'
  issued : (s.client false).issued = firstCalls
  subscribed : (s.client false).shared (.call 0) = some (.value .nil)
  listed : (s.client false).shared (.call 1) = some bothNames
  posted : (s.client false).posted =
    [some subscribeMessage, some subscribeCall, some (listMessage 2)]
  channels : s.channels.map (fun ch => (ch.client, ch.failed)) = [(false, 0)]
  unasked : (s.client true).issued = []
  asked : (s'.client true).issued = [⟨0, 1, "list", []⟩] ∧
    (s'.client true).shared (.call 0) = some bothNames

namespace Controlled

variable {s s' : Network.State Bool Master String (Option Object)}

theorem has_subscribed (h : Controlled s s') :
    ⟨0, 1, "subscribe", [.str "b"]⟩ ∈ (s.client false).issued := by
  rw [h.issued]
  exact List.mem_cons_self

theorem has_listed (h : Controlled s s') :
    ⟨1, 2, "list", []⟩ ∈ (s.client false).issued := by
  rw [h.issued]
  exact List.mem_cons_of_mem _ List.mem_cons_self

end Controlled

theorem controlled_run : ∃ s s', Controlled s s' := by
  have hends : (run controlStep (.initial (control .reference) .initial)
      subscribeAndList).map (fun s =>
        ((s.client false).issued, (s.client false).shared (.call 0),
          (s.client false).shared (.call 1), (s.client false).posted,
          s.channels.map fun ch => (ch.client, ch.failed),
          (s.client true).issued,
          (run controlStep s thenList).map fun s' =>
            ((s'.client true).issued, (s'.client true).shared (.call 0),
              (s'.client false).posted, (s'.client true).posted,
              s'.server.created, (s'.server.connection 0).writer.started,
              (s'.server.connection 1).writer.started))) =
      some (firstCalls, some (.value .nil), some bothNames,
        [some subscribeMessage, some subscribeCall, some (listMessage 2)],
        [(false, 0)], [],
        some ([⟨0, 1, "list", []⟩], some bothNames,
          [some subscribeMessage, some subscribeCall, some (listMessage 2)],
          [some (listMessage 1)], 2,
          [some subscribedMessage, some (namesMessage 2)],
          [some (namesMessage 1)])) := rfl
  obtain ⟨s, hrun, hend⟩ := Option.map_eq_some_iff.mp hends
  simp only [Prod.mk.injEq] at hend
  obtain ⟨hissued, hsubscribed, hlisted, hposted, hchannels, hnone, hlast⟩ :=
    hend
  obtain ⟨s', hrun', hend'⟩ := Option.map_eq_some_iff.mp hlast
  simp only [Prod.mk.injEq] at hend'
  obtain ⟨hissued', hready', hrequests, hrequests', hcreated, hstarted,
    hstarted'⟩ := hend'
  refine ⟨s, s', reachable_of_run ?_ hrun, reachable_of_run ?_ hrun', ?_,
    hissued, hsubscribed, hlisted, hposted, hchannels, hnone,
    ⟨hissued', hready'⟩⟩
  · have hfew : 0 + subscribeAndList.length < UInt32.size := by decide
    exact oneThread_of_length (fun _ => hfew)
      (by simp [subscribeAndList, OnThread, SingleThread])
  · refine oneThread_of_length (fun i => ?_)
      (by simp [thenList, OnThread, SingleThread])
    cases i with
    | false => simp [hissued, firstCalls, thenList, UInt32.size]
    | true => simp [hnone, thenList, UInt32.size]
  · have hall : ∀ (buffers : List (Option Object)),
        buffers ⊆ [some subscribeMessage, some subscribeCall,
          some subscribedMessage, some (listMessage 1), some (listMessage 2),
          some (namesMessage 1), some (namesMessage 2)] →
        Readable .reference controlBytes MsgPack.shortForms buffers := by
      intro buffers hsubset buffer hbuffer msg hmsg
      have hmem := hsubset hbuffer
      rw [show buffer = some msg from hmsg] at hmem
      exact control_reads (by simpa using hmem)
    refine ⟨rfl, fun i => hall _ ?_, fun k hk => hall _ ?_⟩
    · cases i with
      | false => simp [hrequests]
      | true => simp [hrequests']
    · rw [hcreated] at hk
      obtain rfl | rfl : k = 0 ∨ k = 1 := by omega
      · simp [hstarted]
      · simp [hstarted']

/-! ## What a client reads -/

/-- What the answer to a call of `list` says: the names in the set at the
dispatch `d`, which are those that were subscribed by a dispatch before it.
They are without repetition, every one of them was subscribed by some client,
and among them are those that the caller had subscribed before, apart from what
was lost. -/
structure Listed (s : Network.State ι Master String Buf)
    (d : Dispatched Master String) (first lost : List Buf)
    (names : List String) : Prop where
  found : names = d.before.clients
  all : ∃ before after, s.server.dispatched = before ++ d :: after ∧
    ∀ id, id ∈ names ↔ ∃ d' ∈ before, Subscribes mp d'.msg id
  sorted : names.Pairwise (· < ·)
  subscribed : ∀ id ∈ names, ∃ i, ∃ buffer ∈ (s.client i).posted, ∃ msg,
    mp.unpack buffer = some msg ∧ Subscribes mp msg id
  own : ∀ msg ∈ first.filterMap mp.unpack, ∀ id, Subscribes mp msg id →
    id ∈ names ∨ msg ∈ lost.filterMap mp.unpack

variable {mp bytes unpacker}

omit [DecidableEq ι] in
/-- A call of `list` that is answered is answered with the set that its
dispatch has found. -/
theorem outcome_of_list {s : Network.State ι Master String Buf}
    (hsound : Sound mp bytes unpacker (control mp) .initial s) {i : ι}
    {c : Client.Call} (hname : c.funcName = "list") (hargs : c.args = [])
    {d : Dispatched Master String} {resp : Response}
    (hanswered : AnsweredBy mp s i c d resp) :
    outcomeOfResponse resp c.funcName =
      .value (.array (d.before.clients.map .str)) := by
  have hresponses := responses_of_list hsound.serving hanswered.recorded.1
    hanswered.msg hname hargs
  rw [hanswered.responses] at hresponses
  rw [List.singleton_inj.mp hresponses, outcomeOfResponse_makeResultHandle]

variable (mp bytes unpacker)

/-- What a client reads from the answer to its call of `list`. -/
theorem list_answered {s : Network.State ι Master String Buf}
    (hreach : Reachable (step mp bytes unpacker (control mp)) OneThread
      (.initial (control mp) .initial) s)
    (hlegible : Legible mp bytes unpacker s) {k : SessionNumber}
    {ch : Channel ι} (hch : s.channels[k]? = some ch) {c : Client.Call}
    (hc : c ∈ (s.client ch.client).issued) (hname : c.funcName = "list")
    (hargs : c.args = []) {outcome : Client.Outcome}
    (hready : (s.client ch.client).shared (.call c.number) = some outcome)
    {first later : List Buf}
    (hposted : (s.client ch.client).posted = first ++ c.buffer mp :: later) :
    ∃ d resp, AnsweredBy mp s ch.client c d resp ∧
      ∃ names : List String, outcome = .value (.array (names.map .str)) ∧
        Listed mp s d first
          ((s.client ch.client).writer.started.take ch.failed) names := by
  have hsound := sound_of_reachable
    (hreach.mono fun _ _ hguard => hguard.1) hlegible
  obtain ⟨d, resp, hanswered, rfl⟩ := hsound.answered hlegible hc hready
  obtain ⟨before, after, hsplit, hseen⟩ :=
    hanswered.sees_posted hreach hlegible hch hc hposted
  have hfound := mem_before_iff hsound.serving hsplit
  refine ⟨d, resp, hanswered, d.before.clients,
    outcome_of_list hsound hname hargs hanswered, rfl,
    ⟨before, after, hsplit, hfound⟩, d.before.sorted, fun id hid => ?_,
    fun msg hmsg id hid => ?_⟩
  · obtain ⟨d', hd', hsubscribes⟩ := (hfound id).mp hid
    obtain ⟨i, buffer, hbuffer, hunpack⟩ := hsound.posted_of_dispatched
      hlegible (hsplit ▸ List.mem_append_left _ hd')
    exact ⟨i, buffer, hbuffer, _, hunpack, hsubscribes⟩
  · rcases List.mem_append.mp (hseen.subset hmsg) with hlost | hdispatched
    · exact Or.inr hlost
    · obtain ⟨d', hd', rfl⟩ := List.mem_map.mp hdispatched
      exact Or.inl ((hfound id).mpr ⟨d', List.mem_of_mem_filter hd', hid⟩)

/-- A client that has notified a name finds it. -/
theorem list_answered_controlled :
    ∃ (s : Network.State Bool Master String (Option Object))
      (d : Dispatched Master String) (names : List String),
      bothNames = .value (.array (names.map .str)) ∧
      Listed .reference s d [some subscribeMessage, some subscribeCall] []
        names ∧ "a" ∈ names := by
  obtain ⟨s, s', h⟩ := controlled_run
  obtain ⟨ch, hone, hch⟩ := List.map_eq_singleton_iff.mp h.channels
  obtain ⟨hclient, hfailed⟩ := Prod.mk.inj hch
  have hfirst : s.channels[0]? = some ch := by
    rw [hone]
    rfl
  have hbehind : (s.client ch.client).posted =
      [some subscribeMessage, some subscribeCall] ++
        Client.Call.buffer .reference ⟨1, 2, "list", []⟩ :: [] := by
    rw [hclient, h.posted]
    rfl
  have hlegible := legible_of_reachable h.second h.legible
  obtain ⟨d, resp, -, names, houtcome, hlisted⟩ := list_answered .reference
    controlBytes MsgPack.shortForms h.first hlegible hfirst
    (by rw [hclient]; exact h.has_listed) rfl rfl
    (by rw [hclient]; exact h.listed) hbehind
  rw [hfailed] at hlisted
  have hown := hlisted.own subscribeMessage List.mem_cons_self "a"
    (subscribes_notification .reference "a")
  exact ⟨s, d, names, houtcome, hlisted,
    hown.resolve_right List.not_mem_nil⟩

/-- Whoever asks after a call was answered finds the name that this call has
subscribed, and all the names that it has listed. -/
theorem registrations_last {s s' : Network.State ι Master String Buf}
    (hreach : Reachable (step mp bytes unpacker (control mp)) OneThread
      (.initial (control mp) .initial) s)
    (hlater : Reachable (step mp bytes unpacker (control mp)) OneThread s s')
    (hlegible : Legible mp bytes unpacker s') {i j : ι}
    {c c' : Client.Call} (hc : c ∈ (s.client i).issued)
    {outcome outcome' : Client.Outcome}
    (hready : (s.client i).shared (.call c.number) = some outcome)
    (hnew : c' ∉ (s.client j).issued) (hc' : c' ∈ (s'.client j).issued)
    (hname' : c'.funcName = "list") (hargs' : c'.args = [])
    (hready' : (s'.client j).shared (.call c'.number) = some outcome') :
    ∃ names : List String, outcome' = .value (.array (names.map .str)) ∧
      (∀ id, c.funcName = "subscribe" → c.args = [.str id] → id ∈ names) ∧
      (c.funcName = "list" → c.args = [] → ∃ earlier : List String,
        outcome = .value (.array (earlier.map .str)) ∧ earlier ⊆ names) := by
  have hreach' : Reachable (step mp bytes unpacker (control mp)) FewCalls
      (.initial (control mp) .initial) s :=
    hreach.mono fun _ _ hguard => hguard.1
  have hlater' : Reachable (step mp bytes unpacker (control mp)) FewCalls s s' :=
    hlater.mono fun _ _ hguard => hguard.1
  have hlegible' := legible_of_reachable hlater' hlegible
  have hsound := sound_of_reachable hreach' hlegible'
  have hsound' := sound_of_reachable (hreach'.trans hlater') hlegible
  have hextends := Extends.of_reachable hlater'
  obtain ⟨d, resp, hanswered, rfl⟩ := hsound.answered hlegible' hc hready
  obtain ⟨d', resp', hanswered', rfl⟩ :=
    hsound'.answered hlegible hc' hready'
  obtain ⟨before, between, after, hsplit⟩ :=
    hanswered.precedes hanswered' hsound hsound' hlegible' hextends hc' hnew
  have hfound' := mem_before_iff hsound'.serving hsplit
  refine ⟨d'.before.clients, outcome_of_list hsound' hname' hargs' hanswered',
    fun id hname hargs => ?_, fun hname hargs => ?_⟩
  · refine (hfound' id).mpr ⟨d, by simp, ?_⟩
    rw [hanswered.msg]
    exact subscribes_call mp hname hargs
  · refine ⟨d.before.clients, outcome_of_list hsound hname hargs hanswered,
      fun id hid => ?_⟩
    rw [List.append_assoc] at hsplit
    obtain ⟨d'', hd'', hsubscribes⟩ :=
      (mem_before_iff hsound'.serving hsplit id).mp hid
    exact (hfound' id).mpr ⟨d'', by simp [hd''], hsubscribes⟩

/-- The second client finds what the first one has subscribed and what it has
found. -/
theorem registrations_last_controlled :
    ∃ (s' : Network.State Bool Master String (Option Object))
      (names names' earlier : List String),
      (s'.client true).shared (.call 0) =
        some (.value (.array (names.map .str))) ∧ "b" ∈ names ∧
      (s'.client true).shared (.call 0) =
        some (.value (.array (names'.map .str))) ∧
      bothNames = .value (.array (earlier.map .str)) ∧ earlier ⊆ names' := by
  obtain ⟨s, s', h⟩ := controlled_run
  obtain ⟨hissued', hready'⟩ := h.asked
  have hnew : (⟨0, 1, "list", []⟩ : Client.Call) ∉ (s.client true).issued := by
    rw [h.unasked]
    exact List.not_mem_nil
  obtain ⟨names, houtcome, hsubscribes, -⟩ := registrations_last .reference
    controlBytes MsgPack.shortForms h.first h.second h.legible
    h.has_subscribed h.subscribed hnew
    (hissued' ▸ List.mem_singleton_self _) rfl rfl hready'
  obtain ⟨names', houtcome', -, hlists⟩ := registrations_last .reference
    controlBytes MsgPack.shortForms h.first h.second h.legible
    h.has_listed h.listed hnew (hissued' ▸ List.mem_singleton_self _) rfl rfl
    hready'
  obtain ⟨earlier, hearlier, hsubset⟩ := hlists rfl rfl
  exact ⟨s', names, names', earlier, houtcome ▸ hready',
    hsubscribes "b" rfl rfl, houtcome' ▸ hready', hearlier, hsubset⟩

end Example
end RpcLib
