import RpcLib.Server.Sequential
import RpcLib.Server.SingleThread
import RpcLib.System.CallSemantics
import RpcLib.System.Composition

/-!
# From the call to the promise

What the clients of a network can rely on, in every run and whatever fails.
What depends on the objects in a reply is stated beside the memory of the
replies, for runs in which no dispatch takes the zone of a reply that waits.

* `answered_end_to_end`: a promise that is ready holds what the one dispatch of
  its call has answered.
* `executed_at_most_once`: no message is dispatched more often than it was
  posted, and nothing else is dispatched.
* `streams_stay_readable`: neither side is ever given bytes or messages that it
  cannot read.
* `linearizable`: the dispatches of the server are a sequential run, in which a
  call that was answered comes before one that was made later.
-/

namespace RpcLib
namespace System
namespace Network

open Protocol Transport Foundation TransitionSystem Server

variable {ι ω V Buf : Type} [DecidableEq ι] (mp : MsgPack Buf)
  (bytes : Buf → List UInt8) (unpacker : Decoder Object UInt8)
  (disp : Dispatcher ω V)

/-! ## A run with two clients -/

/-- The bytes of the messages of this run. -/
def countedBytes : Option Object → List UInt8
  | some (.array [.positiveInteger code, .positiveInteger id, .str name,
      .array []]) =>
      [0x94, code.toUInt8, id.toUInt8, 0xa1,
        if name = "n" then 0x6e else 0x67, 0x90]
  | some (.array [.positiveInteger code, .positiveInteger id, .nil, .nil]) =>
      [0x94, code.toUInt8, id.toUInt8, 0xc0, 0xc0]
  | some (.array [.positiveInteger code, .positiveInteger id, .nil,
      .positiveInteger sum]) =>
      [0x94, code.toUInt8, id.toUInt8, 0xc0, sum.toUInt8]
  | _ => []

/-- One client calls `n` and reads the response in two pieces. -/
def countOnce : List (Event Bool) :=
  [.establish false, .server (.acceptDone 0 .success 10),
    .client false .connectDone, .establish true, .server (.resume 0),
    .client false .runStrand, .client false (.draw "n" []),
    .client false (.post 0), .client false .runStrand, .takeUp 0 2,
    .readUp 0 0 1, .takeUp 0 4, .readUp 0 0 5, .client true .connectDone,
    .server (.dispatch 0 0), .server (.runStrand 0 0), .takeDown 0 5,
    .readDown 0 3, .readDown 0 2]

/-- Then the other one calls `g`. -/
def thenAsk : List (Event Bool) :=
  [.client true .runStrand, .client true (.draw "g" []),
    .client true (.post 0), .client true .runStrand, .takeUp 1 6,
    .server (.acceptDone 0 .success 11), .server (.resume 0), .readUp 0 1 6,
    .server (.dispatch 0 0), .server (.runStrand 0 1), .takeDown 1 2,
    .takeDown 1 3, .readDown 1 5]

/-- The network of this run. -/
def countedStep (s : State Bool Nat Unit (Option Object)) (e : Event Bool) :
    Option (State Bool Nat Unit (Option Object)) :=
  step .reference countedBytes MsgPack.shortForms counting s e

/-- Its server. -/
def countedPart : Component countedStep
    (Server.step (.reference : MsgPack (Option Object)) MsgPack.shortForms
      counting) :=
  serverPart .reference countedBytes MsgPack.shortForms counting

/-- The messages of this run. -/
def isCounted : Option Object → Bool
  | some (.array [.positiveInteger 0, .positiveInteger 1, .str "n",
      .array []]) => true
  | some (.array [.positiveInteger 0, .positiveInteger 1, .str "g",
      .array []]) => true
  | some (.array [.positiveInteger 1, .positiveInteger 1, .nil, .nil]) => true
  | some (.array [.positiveInteger 1, .positiveInteger 1, .nil,
      .positiveInteger 1]) => true
  | _ => false

/-- The unpacker reads them. -/
theorem counted_reads {msg : Object} (hmsg : isCounted (some msg) = true) :
    MsgPack.shortForms.Reads (encode .reference countedBytes) msg := by
  unfold isCounted at hmsg
  split at hmsg
  · rename_i hsome
    obtain rfl := Option.some.inj hsome
    exact .of_waits (fun rest => rfl) rfl
  · rename_i hsome
    obtain rfl := Option.some.inj hsome
    exact .of_waits (fun rest => rfl) rfl
  · rename_i hsome
    obtain rfl := Option.some.inj hsome
    exact .of_waits (fun rest => by cases rest <;> rfl) rfl
  · rename_i hsome
    obtain rfl := Option.some.inj hsome
    exact .of_waits (fun rest => by cases rest <;> rfl) rfl
  · cases hmsg

/-- Nothing else was posted or sent. -/
def onlyCounted (s : State Bool Nat Unit (Option Object)) : Bool :=
  (s.client false).posted.all isCounted &&
    (s.client true).posted.all isCounted &&
    (List.range s.server.created).all fun k =>
      (s.server.connection k).writer.started.all isCounted

/-- So the state is readable. -/
theorem counted_legible {s : State Bool Nat Unit (Option Object)}
    (honly : onlyCounted s = true) :
    Legible .reference countedBytes MsgPack.shortForms s := by
  unfold onlyCounted at honly
  simp only [Bool.and_eq_true, List.all_eq_true, List.mem_range] at honly
  obtain ⟨⟨hposted, hposted'⟩, hstarted⟩ := honly
  refine ⟨rfl, fun i buffer hbuffer msg hmsg => ?_,
    fun k hk buffer hbuffer msg hmsg => ?_⟩
  · obtain rfl : buffer = some msg := hmsg
    cases i with
    | false => exact counted_reads (hposted _ hbuffer)
    | true => exact counted_reads (hposted' _ hbuffer)
  · obtain rfl : buffer = some msg := hmsg
    exact counted_reads (hstarted k hk _ hbuffer)

/-- The states after the first half of the run and at its end. -/
structure Counted (s s' : State Bool Nat Unit (Option Object)) : Prop where
  first : Reachable countedStep
    (fun s e => FewCalls s e ∧ isPrompt countedPart s e = true) (.initial counting 0) s
  second : Reachable countedStep
    (fun s e => FewCalls s e ∧ isPrompt countedPart s e = true) s s'
  legible : Legible .reference countedBytes MsgPack.shortForms s'
  counted : (s.client false).issued = [⟨0, 1, "n", []⟩] ∧
    (s.client false).shared (.call 0) = some (.value .nil)
  unasked : (s.client true).issued = []
  asked : (s'.client true).issued = [⟨0, 1, "g", []⟩] ∧
    (s'.client true).shared (.call 0) = some (.value (.positiveInteger 1))
  dispatched : s'.server.dispatched.length = 2

theorem Counted.reachable {s s' : State Bool Nat Unit (Option Object)}
    (h : Counted s s') :
    Reachable countedStep FewCalls (.initial counting 0) s' :=
  (h.first.trans h.second).mono fun _ _ hguard => hguard.1

theorem counted_run : ∃ s s', Counted s s' := by
  have hends : (run countedStep (.initial counting 0) countOnce).map
      (fun s => ((s.client false).issued,
        (s.client false).shared (.call 0), (s.client true).issued,
        checkRun countedStep (isPrompt countedPart) s thenAsk,
        (run countedStep s thenAsk).map fun s' =>
          ((s'.client true).issued, (s'.client true).shared (.call 0),
            s'.server.dispatched.length, onlyCounted s'))) =
      some ([⟨0, 1, "n", []⟩], some (.value .nil), [], true,
        some ([⟨0, 1, "g", []⟩], some (.value (.positiveInteger 1)), 2,
          true)) := rfl
  have hprompt : checkRun countedStep (isPrompt countedPart)
      (.initial counting 0) countOnce = true := rfl
  obtain ⟨s, hrun, hend⟩ := Option.map_eq_some_iff.mp hends
  simp only [Prod.mk.injEq] at hend
  obtain ⟨hissued, hready, hnone, hprompt', hlast⟩ := hend
  obtain ⟨s', hrun', hend'⟩ := Option.map_eq_some_iff.mp hlast
  simp only [Prod.mk.injEq] at hend'
  obtain ⟨hissued', hready', hdispatched, honly⟩ := hend'
  refine ⟨s, s', reachable_of_run ?_ hrun, reachable_of_run ?_ hrun',
    counted_legible honly, ⟨hissued, hready⟩, hnone, ⟨hissued', hready'⟩,
    hdispatched⟩
  · have hfew : 0 + countOnce.length < UInt32.size := by decide
    exact eachStep_and (fewCalls_of_length fun _ => hfew)
      (eachStep_of_checkRun (fun _ _ h => h) hprompt)
  · refine eachStep_and (fewCalls_of_length fun i => ?_)
      (eachStep_of_checkRun (fun _ _ h => h) hprompt')
    cases i with
    | false => simp [hissued, thenAsk, UInt32.size]
    | true => simp [hnone, thenAsk, UInt32.size]

/-- The dispatch `d` has answered the call `c` of client `i`: it is the only
one on the connection of the client with the id of the call. -/
structure AnsweredBy (s : State ι ω V Buf) (i : ι) (c : Client.Call)
    (d : Dispatched ω V) (resp : Response) : Prop where
  connection : s.clients[d.number]? = some i
  only : ((s.server.dispatchedOf d.number).filter fun d' =>
    Request.replyId mp d'.msg = some c.idx.toUInt32) = [d]
  msg : d.msg = c.message
  responses : d.responses = [resp]
  id : resp.id = c.idx.toUInt32

omit [DecidableEq ι] in
/-- The dispatch is recorded, and its message has the id of the call. -/
theorem AnsweredBy.recorded {s : State ι ω V Buf} {i : ι} {c : Client.Call}
    {d : Dispatched ω V} {resp : Response}
    (h : AnsweredBy mp s i c d resp) :
    d ∈ s.server.dispatched ∧
      Request.replyId mp d.msg = some c.idx.toUInt32 := by
  have hmem : d ∈ (s.server.dispatchedOf d.number).filter fun d' =>
      Request.replyId mp d'.msg = some c.idx.toUInt32 := by
    rw [h.only]
    exact List.mem_singleton_self d
  obtain ⟨hd, hid⟩ := List.mem_filter.mp hmem
  exact ⟨List.mem_of_mem_filter hd, by simpa using hid⟩

namespace Sound

variable {mp bytes unpacker disp} {app : ω} {s : State ι ω V Buf}

omit [DecidableEq ι] in
/-- The one dispatch with the id of a call is the dispatch of this call. -/
theorem dispatch_of_id (h : Sound mp bytes unpacker disp app s)
    (hlegible : Legible mp bytes unpacker s) {k : SessionNumber}
    {ch : Channel ι} (hch : s.channels[k]? = some ch) {c : Client.Call}
    (hc : c ∈ (s.client ch.client).issued) {d : Dispatched ω V}
    (hd : d ∈ s.server.dispatchedOf k)
    (hid : Request.replyId mp d.msg = some c.idx.toUInt32) :
    d.msg = c.message ∧
      ((s.server.dispatchedOf k).filter fun d' =>
        Request.replyId mp d'.msg = some c.idx.toUInt32) = [d] := by
  have hcarried := h.carried k ch hch
  have hcorrelated := h.correlated ch.client
  have hnodup := hcarried.dispatched_ids_nodup h.serving
    (h.sending ch.client) hlegible.movedFrom (hlegible.requests ch.client)
    hcorrelated
  rw [List.filterMap_map] at hnodup
  refine ⟨?_, filter_of_nodup_filterMap hnodup hd hid⟩
  obtain ⟨buffer, hbuffer, hunpack⟩ :=
    hcarried.started_of_dispatched h.serving (h.sending ch.client)
      hlegible.movedFrom (hlegible.requests ch.client) hd
  have hbufferId : Request.bufferId mp buffer = some c.idx.toUInt32 := by
    rw [Request.bufferId, hunpack]
    exact hid
  -- the buffer is that of the call with this index
  have hown := hcorrelated.buffer_of_id hbuffer hc hbufferId
  rw [hown, Client.Call.buffer, mp.unpack_pack] at hunpack
  exact (Option.some.inj hunpack).symm

/-- A response that a client has handled is that of a dispatch of its session. -/
theorem reply_of_response (h : Sound mp bytes unpacker disp app s)
    {i : ι} {r : Response} (hr : r ∈ (s.client i).responses) :
    ∃ k ch d resp, s.channels[k]? = some ch ∧ ch.client = i ∧
      d ∈ s.server.dispatchedOf k ∧ resp ∈ d.responses ∧
      r = resp.message.decoded := by
  by_cases hi : i ∈ s.clients
  · obtain ⟨ch, hmem, rfl⟩ := List.mem_map.mp hi
    obtain ⟨k, hch⟩ := List.getElem?_of_mem hmem
    obtain ⟨replies, hreplies, hresponses, -⟩ := (h.carried k ch hch).read
    rw [hresponses] at hr
    obtain ⟨resp, hresp, rfl⟩ := List.mem_map.mp hr
    obtain ⟨d, hd, hresp'⟩ := List.mem_flatMap.mp (hreplies.subset hresp)
    exact ⟨k, ch, d, resp, hch, rfl, hd, hresp', rfl⟩
  · rw [h.silent i hi] at hr
    cases hr

omit [DecidableEq ι] in
/-- What was dispatched is what some client has posted. -/
theorem posted_of_dispatched (h : Sound mp bytes unpacker disp app s)
    (hlegible : Legible mp bytes unpacker s) {d : Dispatched ω V}
    (hd : d ∈ s.server.dispatched) :
    ∃ i, ∃ buffer ∈ (s.client i).posted, mp.unpack buffer = some d.msg := by
  have hk : d.number < s.channels.length := by
    have hcreated := h.created
    rw [State.clients, List.length_map] at hcreated
    exact Nat.lt_of_lt_of_le (h.serving.numbered.dispatched d hd) hcreated
  have hsending := h.sending (s.channels[d.number]).client
  obtain ⟨buffer, hbuffer, hunpack⟩ :=
    (h.carried d.number _ (List.getElem?_eq_getElem hk)).started_of_dispatched
      h.serving hsending hlegible.movedFrom (hlegible.requests _)
      (List.mem_filter.mpr ⟨hd, by simp⟩)
  refine ⟨_, buffer, hsending.messages_subperm.subset ?_, hunpack⟩
  exact List.mem_filter.mpr ⟨hbuffer, by simp [Client.isMessage, hunpack]⟩

theorem number_of_dispatchedOf {server : Server.State ω V Buf}
    {k : SessionNumber} {d : Dispatched ω V} (hd : d ∈ server.dispatchedOf k) :
    d.number = k := by
  simpa using (List.mem_filter.mp hd).2

/-- A ready promise was satisfied by the one dispatch of its call. -/
theorem answered (h : Sound mp bytes unpacker disp app s)
    (hlegible : Legible mp bytes unpacker s) {i : ι} {c : Client.Call}
    (hc : c ∈ (s.client i).issued) {outcome : Client.Outcome}
    (hready : (s.client i).shared (.call c.number) = some outcome) :
    ∃ d resp, AnsweredBy mp s i c d resp ∧
      outcome = outcomeOfResponse resp c.funcName := by
  obtain ⟨r, hr, hid, rfl⟩ :=
    ((h.correlated i).shared_call_iff hc outcome).mp hready
  obtain ⟨k, ch, d, resp, hch, rfl, hd, hresp, rfl⟩ := h.reply_of_response hr
  obtain ⟨w, w', hran, -⟩ := h.serving.executed d (List.mem_of_mem_filter hd)
  obtain ⟨returned, -, hreply, hanswer, hone⟩ := hran.of_response mp hresp
  have hsame : resp.id = returned.id := by
    rw [hanswer, ServerSession.answer_id]
  have hown : resp.id = c.idx.toUInt32 := hid
  rw [← hsame, hown] at hreply
  obtain ⟨hmsg, honly⟩ := h.dispatch_of_id hlegible hch hc hd hreply
  obtain rfl := number_of_dispatchedOf hd
  refine ⟨d, resp, ⟨?_, honly, hmsg, hone, hown⟩, rfl⟩
  rw [State.clients, List.getElem?_map, hch]
  rfl

end Sound

/-! ## The answer of a call -/

variable (garbage : StoredObject → Object)

/-- A promise that is ready, of whichever client, holds what the dispatch of
its call has answered; there is one such dispatch, on the connection of the
client, and it has sent one response. -/
theorem answered_end_to_end {app : ω} {s : State ι ω V Buf × ReplyMemory}
    (hreach : Reachable
      (stepWithMemory garbage (serverPart mp bytes unpacker disp))
      (Sparing (serverPart mp bytes unpacker disp) FewCalls)
      (.initial disp app, .initial) s)
    (hlegible : Legible mp bytes unpacker s.1)
    {i : ι} {c : Client.Call} (hc : c ∈ (s.1.client i).issued)
    {outcome : Client.Outcome}
    (hready : (s.1.client i).shared (.call c.number) = some outcome) :
    ∃ d resp, AnsweredBy mp s.1 i c d resp ∧
      outcome = outcomeOfResponse resp c.funcName := by
  have hnetwork := (without_memory garbage
    (serverPart mp bytes unpacker disp) (.initial disp app, .initial)
    (.initial disp app) hreach).1
  exact (sound_of_reachable hnetwork hlegible).answered hlegible hc hready

/-- A server whose function `f` ends by `respond_error("no")`. -/
def refusing : Dispatcher Unit Unit :=
  ⟨AList.singleton "f"
    (ServerSession.constantFunctor ⟨[], .respondedError (.str "no")⟩)⟩

/-- The bytes of its messages. -/
def refusedBytes : Option Object → List UInt8
  | some (.array [.positiveInteger code, .positiveInteger id, .str _,
      .array []]) => [0x94, code.toUInt8, id.toUInt8, 0xa1, 0x66, 0x90]
  | some (.array [.positiveInteger code, .positiveInteger id, .str _,
      .nil]) => [0x94, code.toUInt8, id.toUInt8, 0xa2, 0x6e, 0x6f, 0xc0]
  | some (.array [.positiveInteger code, .positiveInteger id, .nil,
      .nil]) => [0x94, code.toUInt8, id.toUInt8, 0xc0, 0xc0]
  | _ => []

/-- A client has called `f` twice, and both calls have arrived. -/
def callTwice : List (Event Unit) :=
  [.establish (), .client () .connectDone, .server (.acceptDone 0 .success 10),
    .server (.resume 0), .client () .runStrand, .client () (.draw "f" []),
    .client () (.draw "f" []), .client () (.post 0), .client () (.post 0),
    .client () .runStrand, .client () .runStrand, .takeUp 0 6,
    .client () (.writeDone 0 .success), .takeUp 0 6, .readUp 0 0 12]

/-- The first reply is written before the second dispatch. -/
def writeFirst : List (Event Unit) :=
  callTwice ++ [.server (.dispatch 0 0), .server (.runStrand 0 0),
    .server (.dispatch 0 0), .takeDown 0 7, .readDown 0 7]

/-- The thread dispatches both calls before it writes the first reply. -/
def dispatchBoth : List (Event Unit) :=
  callTwice ++ [.server (.dispatch 0 0), .server (.dispatch 0 0),
    .server (.runStrand 0 0), .takeDown 0 5, .readDown 0 5]

/-- The network of these runs. -/
def refusedStep (s : State Unit Unit Unit (Option Object)) (e : Event Unit) :
    Option (State Unit Unit Unit (Option Object)) :=
  step .reference refusedBytes MsgPack.shortForms refusing s e

/-- Their server. -/
def refusedPart : Component refusedStep
    (Server.step (.reference : MsgPack (Option Object)) MsgPack.shortForms
      refusing) :=
  serverPart .reference refusedBytes MsgPack.shortForms refusing

/-- The message of a call of `f`. -/
def callOfF (id : UInt64) : Object :=
  .array [.positiveInteger 0, .positiveInteger id, .str "f", .array []]

/-- The answer to it. -/
def refusal (id : UInt64) : Object :=
  .array [.positiveInteger 1, .positiveInteger id, .str "no", .nil]

/-- The unpacker reads the messages of the first run. -/
theorem refused_reads {msg : Object}
    (hmsg : msg = callOfF 1 ∨ msg = callOfF 2 ∨ msg = refusal 1) :
    MsgPack.shortForms.Reads (encode .reference refusedBytes) msg := by
  rcases hmsg with rfl | rfl | rfl
  · exact .of_waits (fun rest => rfl) rfl
  · exact .of_waits (fun rest => rfl) rfl
  · exact .of_waits (fun rest => by cases rest <;> rfl) rfl

/-- The error of the first call has reached the client, although the second
call has failed on the same thread by then. -/
theorem answered_end_to_end_refused : ∃ s d resp,
    AnsweredBy (.reference : MsgPack (Option Object)) s ()
      (⟨0, 1, "f", []⟩ : Client.Call) (d : Dispatched Unit Unit) resp ∧
    Client.Outcome.rpcError "rpc::RpcError during call" "f" (.str "no") =
      outcomeOfResponse resp "f" ∧ s.server.dispatched.length = 2 := by
  have hends : (run refusedStep (.initial refusing ()) writeFirst).map
      (fun s => ((s.client ()).issued, (s.client ()).posted,
        s.server.created, (s.server.connection 0).writer.started,
        s.server.dispatched.length, (s.client ()).shared (.call 0))) =
      some ([⟨0, 1, "f", []⟩, ⟨1, 2, "f", []⟩],
        [some (callOfF 1), some (callOfF 2)], 1, [some (refusal 1)], 2,
        some (.rpcError "rpc::RpcError during call" "f" (.str "no"))) := rfl
  have hprompt : checkRun refusedStep (isPrompt refusedPart)
      (.initial refusing ()) writeFirst = true := rfl
  have hfew : 0 + writeFirst.length < UInt32.size := by decide
  obtain ⟨s, hrun, hend⟩ := Option.map_eq_some_iff.mp hends
  simp only [Prod.mk.injEq] at hend
  obtain ⟨hissued, hposted, hcreated, hstarted, hdispatched, hready⟩ := hend
  have hguard : EachStep refusedStep
      (fun s e => FewCalls s e ∧ isPrompt refusedPart s e = true)
      (.initial refusing ()) writeFirst :=
    eachStep_and (fewCalls_of_length fun _ => hfew)
      (eachStep_of_checkRun (fun _ _ h => h) hprompt)
  obtain ⟨m, hreach, -⟩ := with_memory (fun _ => .nil) refusedPart
    (.initial refusing ()) (.initial refusing ()) (reachable_of_run hguard hrun)
  have hlegible : Legible .reference refusedBytes MsgPack.shortForms s := by
    refine ⟨rfl, fun i buffer hbuffer msg hmsg => ?_,
      fun k hk buffer hbuffer msg hmsg => ?_⟩
    · rw [hposted] at hbuffer
      rcases List.mem_pair.mp hbuffer with rfl | rfl
      · exact refused_reads (Or.inl (Option.some.inj hmsg).symm)
      · exact refused_reads (Or.inr (Or.inl (Option.some.inj hmsg).symm))
    · obtain rfl : k = 0 := by omega
      rw [hstarted] at hbuffer
      obtain rfl := List.mem_singleton.mp hbuffer
      exact refused_reads (Or.inr (Or.inr (Option.some.inj hmsg).symm))
  obtain ⟨d, resp, hanswered, hvalue⟩ := answered_end_to_end .reference
    refusedBytes MsgPack.shortForms refusing (fun _ => .nil) hreach hlegible
    (c := ⟨0, 1, "f", []⟩) (by rw [hissued]; exact List.mem_cons_self) hready
  exact ⟨s, d, resp, hanswered, hvalue, hdispatched⟩

/-- In the other order the second dispatch has taken the zone of the error, and
the call returns what is read instead. -/
example : (run (stepWithMemory (fun _ => .nil) refusedPart)
    (.initial refusing (), .initial) dispatchBoth).map
      (fun s => (s.1.client ()).shared (.call 0)) =
    some (some (.value .nil)) := rfl

/-! ## At most once -/

/-- The messages in some buffers. -/
theorem filterMap_unpack_messages (buffers : List Buf) :
    (buffers.filter (Client.isMessage mp)).filterMap mp.unpack =
      buffers.filterMap mp.unpack := by
  rw [List.filterMap_filter]
  refine List.filterMap_congr fun buffer _ => ?_
  unfold Client.isMessage
  cases mp.unpack buffer <;> rfl

/-- What holds of the buffers holds of the messages in them. -/
theorem subperm_filterMap {α β : Type} {l l' : List α} (h : l.Subperm l')
    (f : α → Option β) : (l.filterMap f).Subperm (l'.filterMap f) := by
  obtain ⟨l'', hperm, hsublist⟩ := h
  exact (hperm.filterMap f).symm.subperm.trans
    (hsublist.filterMap f).subperm

/-- What a client has put on its connection is among what it has posted. -/
theorem messages_subperm {client : Client.State Buf}
    (hsending : Client.Sending mp client) (n : Nat) :
    ((client.writer.started.drop n).filterMap mp.unpack).Subperm
      (client.posted.filterMap mp.unpack) := by
  refine ((List.drop_sublist n _).filterMap mp.unpack).subperm.trans ?_
  rw [← filterMap_unpack_messages]
  exact subperm_filterMap hsending.messages_subperm mp.unpack

/-- What was executed is attributed to what was posted: every dispatch belongs
to a connection and has called what its message addresses, nothing else has
called a functor, and the messages of a session, dispatched or still waiting,
are among those that its client has posted, none more often. -/
structure ExecutedOnce (s : State ι ω V Buf) : Prop where
  connected : ∀ d ∈ s.server.dispatched, d.number < s.channels.length
  called : ∀ d ∈ s.server.dispatched, d.called = disp.callsOf mp d.msg
  invocations : s.server.invocations =
    s.server.dispatched.flatMap Dispatched.called
  posted : ∀ k i, s.clients[k]? = some i → (s.server.decodedOf k).Subperm
    ((s.client i).posted.filterMap mp.unpack)

theorem executed_at_most_once {app : ω} {s : State ι ω V Buf}
    (hreach : Reachable (step mp bytes unpacker disp) FewCalls
      (.initial disp app) s) (hlegible : Legible mp bytes unpacker s) :
    ExecutedOnce mp disp s := by
  have h := sound_of_reachable hreach hlegible
  refine ⟨fun d hd => ?_, h.serving.history.called,
    h.serving.history.invocations, fun k i hi => ?_⟩
  · have hcreated := h.created
    rw [State.clients, List.length_map] at hcreated
    exact Nat.lt_of_lt_of_le (h.serving.numbered.dispatched d hd) hcreated
  · rw [State.clients, List.getElem?_map] at hi
    obtain ⟨ch, hch, rfl⟩ := Option.map_eq_some_iff.mp hi
    have hcarried := h.carried k ch hch
    by_cases hk : k < s.server.created
    · obtain ⟨arrived, hperm, harrived⟩ := hcarried.decoded_perm h.serving
        (h.sending ch.client) hlegible.movedFrom
        (hlegible.requests ch.client) hk
      exact hperm.subperm.trans (harrived.sublist.subperm.trans
        (messages_subperm mp (h.sending ch.client) ch.failed))
    · rw [h.serving.decodedOf_eq_nil (Nat.le_of_not_lt hk)]
      exact List.nil_subperm

theorem executed_at_most_once_counted : ∃ s,
    ExecutedOnce (ι := Bool) .reference counting s ∧
      s.server.dispatched.length = 2 := by
  obtain ⟨s, s', h⟩ := counted_run
  exact ⟨s', executed_at_most_once .reference countedBytes MsgPack.shortForms
    counting h.reachable h.legible, h.dispatched⟩

/-! ## Nothing unreadable -/

/-- The message is one that a client sends. -/
def FromClient (msg : Object) : Prop :=
  (∃ c : Client.Call, msg = c.message) ∨
    ∃ funcName args, msg = .array
      [.ofInt8 Client.RequestType.notification.value, .str funcName,
        .array args]

theorem fromClient_of_packed {buffer : Buf}
    (hpacked : Client.PackedRequest mp buffer) {msg : Object}
    (hunpack : mp.unpack buffer = some msg) : FromClient msg := by
  rcases hpacked with ⟨c, rfl⟩ | ⟨funcName, args, rfl⟩
  · rw [Client.Call.buffer, mp.unpack_pack] at hunpack
    exact Or.inl ⟨c, (Option.some.inj hunpack).symm⟩
  · rw [Client.notificationBuffer, mp.unpack_pack] at hunpack
    exact Or.inr ⟨funcName, args, (Option.some.inj hunpack).symm⟩

/-- Neither side is brought down by the other: no read handler of a client has
thrown, whatever piece of a stream is read next it is not malformed, and every
message that was dispatched or waits is a call or a notification. -/
structure StreamsReadable (s : State ι ω V Buf) : Prop where
  noEscape : ∀ i failure, (s.client i).escaped ≠ some (.read failure)
  down : ∀ (k : SessionNumber) (ch : Channel ι) n, s.channels[k]? = some ch → 0 < n →
    n ≤ ch.down.wire.length →
    (unpacker.drain (ch.unparsed ++ ch.down.wire.take n)).failed = false
  up : ∀ (k : SessionNumber) (ch : Channel ι) n, s.channels[k]? = some ch →
    k < s.server.created →
    (s.server.connection k).writer.exit = false →
    (unpacker.drain ((s.server.connection k).unparsed ++
      ch.up.wire.take n)).failed = false
  messages : ∀ k < s.server.created, ∀ msg ∈ s.server.decodedOf k,
    FromClient msg

theorem streams_stay_readable {app : ω} {s : State ι ω V Buf}
    (hreach : Reachable (step mp bytes unpacker disp) FewCalls
      (.initial disp app) s) (hlegible : Legible mp bytes unpacker s) :
    StreamsReadable unpacker s := by
  have h := sound_of_reachable hreach hlegible
  refine ⟨fun i => (h.correlated i).answered.noEscape,
    fun k ch n hch hpos hn => ?_, fun k ch n hch hk hopen => ?_,
    fun k hk msg hmsg => ?_⟩
  · have hcarried := h.carried k ch hch
    obtain ⟨replies, hreplies, -, hdecodes⟩ := hcarried.read
    exact (hcarried.next_replies h.serving (hlegible.replies k) hreplies
      hdecodes hpos hn).1
  · have hcarried := h.carried k ch hch
    obtain ⟨arrived, -, hdecodes⟩ := h.serving.arriving k hk
    refine hdecodes.not_failed
      (Carried.upStream_reads (h.sending ch.client)
        (hlegible.requests ch.client) (n := ch.failed)) ?_
    rw [← Carried.upStream_eq (h.sending ch.client) hlegible.movedFrom,
      hcarried.whole hk hopen]
    exact (hcarried.up.deliver n).delivered_isPrefix
  · have hk' : k < s.channels.length := by
      have hcreated := h.created
      rw [State.clients, List.length_map] at hcreated
      exact Nat.lt_of_lt_of_le hk hcreated
    have hch : s.channels[k]? = some s.channels[k] := List.getElem?_eq_getElem hk'
    obtain ⟨arrived, hperm, harrived⟩ := (h.carried k _ hch).decoded_perm
      h.serving (h.sending _) hlegible.movedFrom (hlegible.requests _) hk
    obtain ⟨buffer, hbuffer, hunpack⟩ :=
      List.mem_filterMap.mp (harrived.subset (hperm.subset hmsg))
    have hhanded :=
      (h.sending _).started_subset (List.mem_of_mem_drop hbuffer)
    rcases (h.sending _).packed buffer hhanded with rfl | hpacked
    · rw [mp.unpack_movedFrom] at hunpack
      cases hunpack
    · exact fromClient_of_packed mp hpacked hunpack

theorem streams_stay_readable_counted :
    ∃ s : State Bool Nat Unit (Option Object),
      StreamsReadable MsgPack.shortForms s ∧
        s.server.dispatched.length = 2 := by
  obtain ⟨s, s', h⟩ := counted_run
  exact ⟨s', streams_stay_readable .reference countedBytes MsgPack.shortForms
    counting h.reachable h.legible, h.dispatched⟩

/-! ## One order of all calls -/

/-- What a run only adds to. -/
structure Extends (s s' : State ι ω V Buf) : Prop where
  issued : ∀ i, (s.client i).issued <+: (s'.client i).issued
  dispatched : s.server.dispatched <+: s'.server.dispatched
  clients : s.clients <+: s'.clients

namespace Extends

variable {mp bytes unpacker disp}

omit [DecidableEq ι] in
theorem refl (s : State ι ω V Buf) : Extends s s :=
  ⟨fun _ => List.prefix_rfl, List.prefix_rfl, List.prefix_rfl⟩

omit [DecidableEq ι] in
theorem trans {s s' s'' : State ι ω V Buf} (h : Extends s s')
    (h' : Extends s' s'') : Extends s s'' :=
  ⟨fun i => (h.issued i).trans (h'.issued i), h.dispatched.trans h'.dispatched,
    h.clients.trans h'.clients⟩

theorem prefix_of_eq {α : Type} {l l' : List α} (h : l = l') : l <+: l' :=
  h ▸ List.prefix_rfl

theorem of_step {s s' : State ι ω V Buf} {e : Event ι}
    (hstep : step mp bytes unpacker disp s e = some s') : Extends s s' := by
  have hgrown := grown_of_step hstep
  refine ⟨fun i => (hgrown.client i).issued, ?_, ?_⟩
  · cases effect_of_step mp bytes unpacker disp hstep with
    | server hadmits hserver => exact dispatched_of_step mp unpacker disp hserver
    | readUp hch hpos hn hserver =>
        exact dispatched_of_step mp unpacker disp hserver
    | _ => exact List.prefix_rfl
  · cases effect_of_step mp bytes unpacker disp hstep with
    | establish => exact (List.prefix_append _ _).map _
    | @client i e =>
        exact prefix_of_eq (channelsAfter_clients s i e).symm
    | @server e => exact prefix_of_eq (channelsBehind_clients s e).symm
    | takeUp hch => exact prefix_of_eq (set_clients hch (by rfl)).symm
    | takeDown hch => exact prefix_of_eq (set_clients hch (by rfl)).symm
    | readUp hch => exact prefix_of_eq (set_clients hch (by rfl)).symm
    | readDown hch => exact prefix_of_eq (set_clients hch (by rfl)).symm

theorem of_reachable {guard : State ι ω V Buf → Event ι → Prop}
    {s s' : State ι ω V Buf}
    (hreach : Reachable (step mp bytes unpacker disp) guard s s') :
    Extends s s' :=
  hreach.relate refl (fun _ _ _ => trans) fun _ _ _ _ => of_step

end Extends

omit [DecidableEq ι] in
/-- An answered call stays answered by the same dispatch. -/
theorem AnsweredBy.later {mp : MsgPack Buf} {bytes : Buf → List UInt8}
    {unpacker : Decoder Object UInt8} {disp : Dispatcher ω V} {app : ω}
    {s s' : State ι ω V Buf} {i : ι} {c : Client.Call} {d : Dispatched ω V}
    {resp : Response} (h : AnsweredBy mp s i c d resp)
    (hsound : Sound mp bytes unpacker disp app s')
    (hlegible : Legible mp bytes unpacker s') (hextends : Extends s s')
    (hc : c ∈ (s.client i).issued) : AnsweredBy mp s' i c d resp := by
  obtain ⟨hd, hid⟩ := h.recorded
  have hconnection : s'.clients[d.number]? = some i := by
    obtain ⟨hk, -⟩ := List.getElem?_eq_some_iff.mp h.connection
    obtain ⟨later, hlater⟩ := hextends.clients
    rw [← hlater, List.getElem?_append_left hk, h.connection]
  have hchannel := hconnection
  rw [State.clients, List.getElem?_map] at hchannel
  obtain ⟨ch, hch, rfl⟩ := Option.map_eq_some_iff.mp hchannel
  have hd' : d ∈ s'.server.dispatchedOf d.number :=
    List.mem_filter.mpr ⟨hextends.dispatched.subset hd, by simp⟩
  have honly := (hsound.dispatch_of_id hlegible hch
    ((hextends.issued ch.client).subset hc) hd' hid).2
  exact ⟨hconnection, honly, h.msg, h.responses, h.id⟩

omit [DecidableEq ι] in
/-- A call that was made later was not dispatched before. -/
theorem AnsweredBy.not_dispatched {mp : MsgPack Buf}
    {bytes : Buf → List UInt8} {unpacker : Decoder Object UInt8}
    {disp : Dispatcher ω V} {app : ω} {s s' : State ι ω V Buf} {i : ι}
    {c : Client.Call} {d : Dispatched ω V} {resp : Response}
    (h : AnsweredBy mp s' i c d resp)
    (hsound : Sound mp bytes unpacker disp app s)
    (hsound' : Sound mp bytes unpacker disp app s')
    (hlegible : Legible mp bytes unpacker s) (hextends : Extends s s')
    (hc : c ∈ (s'.client i).issued) (hnew : c ∉ (s.client i).issued) :
    d ∉ s.server.dispatched := by
  intro hd
  obtain ⟨-, hid⟩ := h.recorded
  have hnumber := hsound.serving.numbered.dispatched d hd
  have hk : d.number < s.clients.length :=
    Nat.lt_of_lt_of_le hnumber hsound.created
  have hconnection : s.clients[d.number]? = some i := by
    obtain ⟨later, hlater⟩ := hextends.clients
    rw [← h.connection, ← hlater, List.getElem?_append_left hk]
  rw [State.clients, List.getElem?_map] at hconnection
  obtain ⟨ch, hch, rfl⟩ := Option.map_eq_some_iff.mp hconnection
  -- the request has been on the connection, so its call has been made
  obtain ⟨buffer, hbuffer, hunpack⟩ :=
    (hsound.carried d.number ch hch).started_of_dispatched hsound.serving
      (hsound.sending ch.client) hlegible.movedFrom
      (hlegible.requests ch.client)
      (List.mem_filter.mpr ⟨hd, by simp⟩)
  have hbufferId : Request.bufferId mp buffer = some c.idx.toUInt32 := by
    rw [Request.bufferId, hunpack]
    exact hid
  obtain ⟨c', hc', hidx⟩ := Client.exists_ran_of_requested mp
    (hsound.correlated ch.client).requests
    (Client.requested_of_bufferId mp hbuffer hbufferId)
  have hissued : c' ∈ (s.client ch.client).issued :=
    (hsound.correlated ch.client).tracked.calls.ran_subset hc'
  obtain rfl := (hsound'.correlated ch.client).eq_of_idx hc
    ((hextends.issued ch.client).subset hissued) (Client.idx_eq_of_id hidx)
  exact hnew hissued

omit [DecidableEq ι] in
/-- A call that was answered before another one was made comes before it. -/
theorem AnsweredBy.precedes {mp : MsgPack Buf} {bytes : Buf → List UInt8}
    {unpacker : Decoder Object UInt8} {disp : Dispatcher ω V} {app : ω}
    {s s' : State ι ω V Buf} {i j : ι} {c c' : Client.Call}
    {d d' : Dispatched ω V} {resp resp' : Response}
    (h : AnsweredBy mp s i c d resp) (h' : AnsweredBy mp s' j c' d' resp')
    (hsound : Sound mp bytes unpacker disp app s)
    (hsound' : Sound mp bytes unpacker disp app s')
    (hlegible : Legible mp bytes unpacker s) (hextends : Extends s s')
    (hc' : c' ∈ (s'.client j).issued) (hnew : c' ∉ (s.client j).issued) :
    ∃ before between after,
      s'.server.dispatched = before ++ d :: between ++ d' :: after := by
  have hnot := h'.not_dispatched hsound hsound' hlegible hextends hc' hnew
  obtain ⟨later, hsplit⟩ := hextends.dispatched
  obtain ⟨before, between, hfirst⟩ := List.append_of_mem h.recorded.1
  have hmem := h'.recorded.1
  rw [← hsplit, List.mem_append] at hmem
  obtain ⟨between', after, hsecond⟩ :=
    List.append_of_mem (hmem.resolve_left hnot)
  refine ⟨before, between ++ between', after, ?_⟩
  rw [← hsplit, hfirst, hsecond]
  simp

/-- Clients and server are linearizable.  The dispatches of the server are a
run of the sequential server; a ready promise holds the answer of its call in
this run; and a call that was answered before another one was made comes before
it. -/
theorem linearizable {app : ω} {s s' : State ι ω V Buf × ReplyMemory}
    (hreach : Reachable
      (stepWithMemory garbage (serverPart mp bytes unpacker disp))
      (Sparing (serverPart mp bytes unpacker disp) FewCalls)
      (.initial disp app, .initial) s)
    (hlater : Reachable
      (stepWithMemory garbage (serverPart mp bytes unpacker disp))
      (Sparing (serverPart mp bytes unpacker disp) FewCalls) s s')
    (hlegible : Legible mp bytes unpacker s'.1) :
    serveAll mp (fun k => (s'.1.server.connection k).toServerSession) app
        (s'.1.server.dispatched.map fun d => (d.number, d.msg)) =
      (s'.1.server.app, s'.1.server.dispatched.map Dispatched.posted) ∧
    ∀ i c outcome, c ∈ (s.1.client i).issued →
      (s.1.client i).shared (.call c.number) = some outcome →
      ∀ j c' outcome', c' ∉ (s.1.client j).issued →
        c' ∈ (s'.1.client j).issued →
        (s'.1.client j).shared (.call c'.number) = some outcome' →
        ∃ before d between d' after resp resp',
          s'.1.server.dispatched = before ++ d :: between ++ d' :: after ∧
          AnsweredBy mp s'.1 i c d resp ∧
          outcome = outcomeOfResponse resp c.funcName ∧
          AnsweredBy mp s'.1 j c' d' resp' ∧
          outcome' = outcomeOfResponse resp' c'.funcName := by
  obtain ⟨hnetwork, hheld⟩ := without_memory garbage
    (serverPart mp bytes unpacker disp) (.initial disp app, .initial)
    (.initial disp app) hreach
  have hnetwork' := (without_memory garbage _ s hheld hlater).1
  have hextends := Extends.of_reachable hnetwork'
  have hsound' := sound_of_reachable (hnetwork.trans hnetwork') hlegible
  refine ⟨hsound'.serving.sequential, ?_⟩
  intro i c outcome hc hready j c' outcome' hnew hc' hready'
  have hlegible' := legible_of_reachable hnetwork' hlegible
  have hsound := sound_of_reachable hnetwork hlegible'
  obtain ⟨d, resp, hanswered, hvalue⟩ := hsound.answered hlegible' hc hready
  obtain ⟨d', resp', hanswered', hvalue'⟩ :=
    hsound'.answered hlegible hc' hready'
  obtain ⟨before, between, after, hsplit⟩ :=
    hanswered.precedes hanswered' hsound hsound' hlegible' hextends hc' hnew
  exact ⟨before, d, between, d', after, resp, resp', hsplit,
    hanswered.later hsound' hlegible hextends hc, hvalue, hanswered', hvalue'⟩

/-- The call of the first client comes before that of the second. -/
theorem linearizable_counted : ∃ s before d between d' after resp resp',
    s.server.dispatched = before ++ d :: between ++ d' :: after ∧
    AnsweredBy (.reference : MsgPack (Option Object)) s false
      (⟨0, 1, "n", []⟩ : Client.Call) (d : Dispatched Nat Unit) resp ∧
    Client.Outcome.value .nil = outcomeOfResponse resp "n" ∧
    AnsweredBy .reference s true ⟨0, 1, "g", []⟩ d' resp' ∧
    .value (.positiveInteger 1) = outcomeOfResponse resp' "g" := by
  obtain ⟨s, s', h⟩ := counted_run
  obtain ⟨hissued, hready⟩ := h.counted
  obtain ⟨hissued', hready'⟩ := h.asked
  obtain ⟨m, hfirst, hheld⟩ := with_memory (fun _ => .nil) countedPart
    (.initial counting 0) (.initial counting 0) h.first
  obtain ⟨m', hsecond, -⟩ :=
    with_memory (fun _ => .nil) countedPart s hheld h.second
  exact ⟨s', (linearizable .reference countedBytes MsgPack.shortForms counting
    (fun _ => .nil) hfirst hsecond h.legible).2 false ⟨0, 1, "n", []⟩
      (.value .nil) (hissued ▸ List.mem_singleton_self _) hready
      true ⟨0, 1, "g", []⟩ (.value (.positiveInteger 1))
      (by rw [h.unasked]; exact List.not_mem_nil)
      (hissued' ▸ List.mem_singleton_self _) hready'⟩

end Network
end System
end RpcLib
