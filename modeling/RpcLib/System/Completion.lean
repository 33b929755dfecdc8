import RpcLib.Client.Resting
import RpcLib.Server.Backlog
import RpcLib.System.EndToEnd

/-!
# No call is left behind

What a client loses it loses by a failure: as long as nothing has failed that
the connection of a client needs, and its handlers answer, a call that has no
outcome yet can always go on.

* `Lively`: what the network keeps about the writers at both ends.
* `Intact`, `Healthy`: nothing has failed that the client needs; other
  clients, and their connections, may have failed.
* `Stuck`: nothing can happen but failures and requests of the applications.
* `call_can_progress`: the result.
-/

namespace RpcLib
namespace System
namespace Network

open Protocol Transport Foundation TransitionSystem Server AsyncWriter

variable {ι ω V Buf : Type} [DecidableEq ι] {mp : MsgPack Buf}
  {bytes : Buf → List UInt8} {unpacker : Decoder Object UInt8}
  {disp : Dispatcher ω V}

/-! ## What keeps the writers going -/

/-- Clients connect and write, and sessions write, until something fails. -/
structure Lively (s : State ι ω V Buf) : Prop where
  steady : ∀ i, Client.Steady (s.client i)
  /-- Only an established connection is known to a client. -/
  connected : ∀ i, (s.client i).isConnected = true → i ∈ s.clients
  asking : ∀ (k : SessionNumber) ch, s.channels[k]? = some ch →
    ch.failed = 0 → ch.up.cut = false →
    NotWedged (s.client ch.client).writer
  answering : ∀ (k : SessionNumber) ch, s.channels[k]? = some ch →
    k < s.server.created → ch.down.cut = false →
    NotWedged (s.server.connection k).writer

/-- On an open connection no write of the client has failed. -/
theorem channelsAfter_open {s : State ι ω V Buf} {i : ι} {e : Client.Event}
    {k : SessionNumber} {ch' : Channel ι}
    (hch' : (s.channelsAfter i e)[k]? = some ch')
    (hopen : ch'.up.cut = false) :
    ∃ ch, s.channels[k]? = some ch ∧ ch' = { ch with up := ch'.up } ∧
      ch.up.cut = false ∧
      (ch.client = i → ∀ ec, e.ends ec → ec = .success) := by
  unfold State.channelsAfter at hch'
  split at hch'
  · exact ⟨ch', hch', rfl, hopen, fun _ ec hec => hec⟩
  · rename_i j ec herror
    rw [List.getElem?_map] at hch'
    obtain ⟨ch, hch, rfl⟩ := Option.map_eq_some_iff.mp hch'
    by_cases hi : ch.client = i
    · rw [if_pos hi] at hopen
      cases hopen
    · rw [if_neg hi] at hopen ⊢
      exact ⟨ch, hch, rfl, hopen, fun hsame => absurd hsame hi⟩
  · rename_i hnot
    refine ⟨ch', hch', rfl, hopen, fun _ ec hec => ?_⟩
    cases e with
    | writeDone j ec' => exact absurd rfl (hnot j ec')
    | _ => exact hec.elim

omit [DecidableEq ι] in
theorem channelsBehind_open {s : State ι ω V Buf} {e : Server.Event}
    {k : SessionNumber} {ch' : Channel ι}
    (hch' : (s.channelsBehind e)[k]? = some ch')
    (hopen : ch'.down.cut = false) :
    ∃ ch, s.channels[k]? = some ch ∧ ch' = { ch with down := ch'.down } ∧
      ch.down.cut = false ∧ ∀ ec, e.endsFor k ec → ec = .success := by
  unfold State.channelsBehind at hch'
  split at hch'
  · exact ⟨ch', hch', rfl, hopen, fun ec hec => hec.2⟩
  · rename_i t j n ec herror
    rw [List.getElem?_modify] at hch'
    obtain ⟨ch, hch, rfl⟩ := Option.map_eq_some_iff.mp hch'
    by_cases hj : j = k
    · rw [if_pos hj] at hopen
      cases hopen
    · rw [if_neg hj] at hopen ⊢
      exact ⟨ch, hch, rfl, hopen, fun ec hec => absurd hec.1 hj⟩
  · rename_i hnot
    refine ⟨ch', hch', rfl, hopen, fun ec hec => ?_⟩
    cases e with
    | written t j n ec' => exact absurd rfl (hnot t j n ec')
    | _ => exact hec.elim

namespace Lively

omit [DecidableEq ι] in
theorem initial (app : ω) :
    Lively (.initial disp app : State ι ω V Buf) where
  steady := fun _ => .initial
  connected := fun _ hconnected => (nomatch hconnected)
  asking := fun _ _ hch => by simp [State.initial] at hch
  answering := fun _ _ hch => by simp [State.initial] at hch

variable {s : State ι ω V Buf} {app : ω}

omit [DecidableEq ι] in
/-- Nothing has failed before the first write. -/
theorem establish (h : Lively s)
    (hsound : Sound mp bytes unpacker disp app s) (i : ι) :
    Lively (s.establish i) := by
  refine ⟨h.steady, fun j hj => ?_, fun k ch hch hfailed hopen => ?_,
    fun k ch hch hk hopen => ?_⟩
  · show j ∈ (s.channels ++ [_]).map Channel.client
    rw [List.map_append]
    exact List.mem_append_left _ (h.connected j hj)
  · have hch' : (s.channels ++ [_])[k]? = some ch := hch
    rw [List.getElem?_append] at hch'
    split at hch'
    · exact h.asking k ch hch' hfailed hopen
    · rw [List.getElem?_singleton, Option.ite_none_right_eq_some] at hch'
      obtain ⟨-, hnew⟩ := hch'
      obtain rfl := Option.some.inj hnew
      intro _ hnone
      have hcount : (s.client i).writer.started.length -
          (s.client i).writer.outstanding.length = 0 := hfailed
      have hzero : (s.client i).writer.started.length = 0 := by
        have hnone' : (s.client i).writer.outstanding = [] := hnone
        rwa [hnone', List.length_nil, Nat.sub_zero] at hcount
      exact (h.steady i).unstarted (List.length_eq_zero_iff.mp hzero)
  · have hch' : (s.channels ++ [_])[k]? = some ch := hch
    have hold : k < s.channels.length := by
      have hcreated := hsound.created
      rw [State.clients, List.length_map] at hcreated
      exact Nat.lt_of_lt_of_le hk hcreated
    rw [List.getElem?_append_left hold] at hch'
    exact h.answering k ch hch' hk hopen

/-- A client goes on with its writer, and a write that fails is known to its
connection. -/
theorem setClient (h : Lively s) {i : ι} {e : Client.Event}
    {c : Client.State Buf} {channels : List (Channel ι)}
    (hstep : Client.step mp (s.client i) e = some c)
    (hconnect : e = .connectDone → i ∈ s.clients)
    (hclients : channels.map Channel.client = s.clients)
    (hasking : ∀ (k : SessionNumber) ch', channels[k]? = some ch' →
      ch'.up.cut = false → ∃ ch, s.channels[k]? = some ch ∧
        ch' = { ch with up := ch'.up } ∧ ch.up.cut = false ∧
        (ch.client = i → ∀ ec, e.ends ec → ec = .success))
    (hanswering : ∀ (k : SessionNumber) ch', channels[k]? = some ch' →
      ∃ ch, s.channels[k]? = some ch ∧ ch.down = ch'.down) :
    Lively { s.setClient i c with channels := channels } := by
  obtain ⟨halive, heffect⟩ := Client.effect_of_step mp hstep
  refine ⟨Sound.everyClient h.steady ((h.steady i).step halive heffect),
    fun j hj => ?_, fun k ch' hch' hfailed hopen => ?_,
    fun k ch' hch' hk hopen => ?_⟩
  · show j ∈ List.map Channel.client _
    rw [hclients]
    have hj' : ((s.setClient i c).client j).isConnected = true := hj
    by_cases hji : j = i
    · subst hji
      rw [setClient_self] at hj'
      by_cases hbefore : (s.client j).isConnected = true
      · exact h.connected j hbefore
      · -- the connect handler has run
        exact hconnect (Client.connectDone_of_connected heffect
          (Bool.eq_false_iff.mpr hbefore) hj')
    · rw [setClient_other s hji] at hj'
      exact h.connected j hj'
  · obtain ⟨ch, hch, hsame, hopen', hends⟩ := hasking k ch' hch' hopen
    rw [hsame] at hfailed ⊢
    have hbefore := h.asking k ch hch hfailed hopen'
    show NotWedged ((s.setClient i c).client ch.client).writer
    by_cases hi : ch.client = i
    · rw [hi] at hbefore ⊢
      rw [setClient_self]
      exact (Client.moves_of_effect mp heffect).notWedged (hends hi) hbefore
    · rw [setClient_other s hi]
      exact hbefore
  · obtain ⟨ch, hch, hdown⟩ := hanswering k ch' hch'
    exact h.answering k ch hch hk (hdown ▸ hopen)

omit [DecidableEq ι] in
/-- A session goes on with its writer, and a new one is idle. -/
theorem session (h : Lively s) {e : Server.Event}
    {server : Server.State ω V Buf}
    (hstep : Server.step mp unpacker disp s.server e = some server)
    {k : SessionNumber} {ch : Channel ι} (hch : s.channels[k]? = some ch)
    (hk : k < server.created) (hopen : ch.down.cut = false)
    (hends : ∀ ec, e.endsFor k ec → ec = .success) :
    NotWedged (server.connection k).writer := by
  by_cases hold : k < s.server.created
  · obtain ⟨-, hmove, -⟩ := touched_of_step mp unpacker disp hstep hold
    exact hmove.notWedged mp hends (h.answering k ch hch hold hopen)
  · obtain ⟨session, hfresh⟩ := connection_of_new mp unpacker disp hstep
      (Nat.le_of_not_lt hold) hk
    rw [hfresh]
    exact fun _ _ => rfl

omit [DecidableEq ι] in
/-- The bytes on a connection move. -/
theorem setChannel (h : Lively s) {k : SessionNumber} {ch ch' : Channel ι}
    (hch : s.channels[k]? = some ch) (hsame : ch'.client = ch.client)
    (hfailed : ch'.failed = ch.failed) (hup : ch'.up.cut = ch.up.cut)
    (hdown : ch'.down.cut = ch.down.cut) : Lively (s.setChannel k ch') := by
  have hclients : (s.setChannel k ch').clients = s.clients :=
    set_clients hch hsame
  refine ⟨h.steady, fun j hj => hclients.symm ▸ h.connected j hj,
    fun j ch'' hch'' => ?_, fun j ch'' hch'' => ?_⟩
  · rcases set_get hch'' with ⟨rfl, rfl⟩ | ⟨-, hother⟩
    · rw [hsame, hfailed, hup]
      exact h.asking j ch hch
    · exact h.asking j ch'' hother
  · rcases set_get hch'' with ⟨rfl, rfl⟩ | ⟨-, hother⟩
    · rw [hdown]
      exact h.answering j ch hch
    · exact h.answering j ch'' hother

/-- Every step keeps it. -/
theorem step {s' : State ι ω V Buf} {e : Event ι} (h : Lively s)
    (hsound : Sound mp bytes unpacker disp app s)
    (hstep : Network.step mp bytes unpacker disp s e = some s') :
    Lively s' := by
  cases effect_of_step mp bytes unpacker disp hstep with
  | @establish i => exact h.establish hsound i
  | @client i e c hadmits hclient =>
      refine h.setClient hclient ?_ (channelsAfter_clients s i e)
        (fun k ch' hch' => channelsAfter_open hch') fun k ch' hch' => ?_
      · rintro rfl
        have hestablished : s.established i = true := hadmits
        by_contra hnot
        rw [established_eq_false_iff.mpr hnot] at hestablished
        cases hestablished
      · obtain ⟨ch, cut, hch, rfl⟩ := channelsAfter_get hch'
        exact ⟨ch, hch, rfl⟩
  | @server e server hadmits hserver =>
      refine ⟨h.steady, fun j hj => ?_, fun k ch' hch' hfailed hopen => ?_,
        fun k ch' hch' hk hopen => ?_⟩
      · show j ∈ List.map Channel.client _
        rw [channelsBehind_clients]
        exact h.connected j hj
      · obtain ⟨ch, cut, hch, rfl⟩ := channelsBehind_get hch'
        exact h.asking k ch hch hfailed hopen
      · obtain ⟨ch, hch, hsame, hopen', hends⟩ :=
          channelsBehind_open hch' hopen
        exact h.session hserver hch hk hopen' hends
  | takeUp hch => exact h.setChannel hch rfl rfl rfl rfl
  | takeDown hch => exact h.setChannel hch rfl rfl rfl rfl
  | @readUp t k n ch server hch hpos hn hserver =>
      have hserved : Lively ({ s with server := server } :
          State ι ω V Buf) := by
        refine { h with
          connected := h.connected
          asking := h.asking
          answering := fun k ch hch hk hopen => ?_ }
        exact h.session hserver hch hk hopen fun ec hec => hec.elim
      exact hserved.setChannel hch rfl rfl rfl rfl
  | @readDown k n ch c hch hpos hn hok hclient =>
      have hread : Lively (s.setClient ch.client c) :=
        h.setClient hclient (fun hdone => nomatch hdone) rfl
          (fun k ch' hch' hopen =>
            ⟨ch', hch', rfl, hopen, fun _ ec hec => hec.elim⟩)
          fun k ch' hch' => ⟨ch', hch', rfl⟩
      exact hread.setChannel hch rfl rfl rfl rfl

end Lively

/-- In a run whose messages are readable both invariants hold. -/
theorem lively_of_reachable {app : ω} {s : State ι ω V Buf}
    (hreach : Reachable (step mp bytes unpacker disp) FewCalls
      (.initial disp app) s) (hlegible : Legible mp bytes unpacker s) :
    Sound mp bytes unpacker disp app s ∧ Lively s := by
  refine hreach.invariant
    (I := fun s => Legible mp bytes unpacker s →
      Sound mp bytes unpacker disp app s ∧ Lively s)
    (fun _ => ⟨.initial app, .initial app⟩)
    (fun s e s' h hfew hstep hlater => ?_) hlegible
  have hbefore := legible_of_step hlater hstep
  obtain ⟨hsound, hlively⟩ := h hbefore
  exact ⟨hsound.step hbefore hfew hstep, hlively.step hsound hstep⟩

/-! ## What can still happen -/

/-- The events that the program and the network bring about by themselves and
without a failure. -/
def Event.isProgress : Event ι → Bool
  | .client _ e => e.isProgress
  | .server e => e.isProgress
  | _ => true

variable (mp bytes unpacker disp)

/-- None of them can happen. -/
def Stuck (s : State ι ω V Buf) : Prop :=
  ∀ e, e.isProgress = true → step mp bytes unpacker disp s e = none

variable {mp bytes unpacker disp}

namespace Stuck

variable {s : State ι ω V Buf}

/-- A client that lives can do nothing. -/
theorem client (h : Stuck mp bytes unpacker disp s) {i : ι}
    (hlive : (s.client i).escaped = none) {e : Client.Event}
    (hprogress : (Event.client i e).isProgress = true)
    (hadmits : s.clientAdmits bytes i e = true) :
    Client.liveStep mp (s.client i) e = none := by
  have hnone := h (.client i e) hprogress
  dsimp only [Network.step] at hnone
  rw [if_pos hadmits, Option.map_eq_none_iff, Client.step, hlive] at hnone
  exact hnone

/-- Neither can a server that lives, and none of its threads is inside a
handler. -/
theorem free (h : Stuck mp bytes unpacker disp s)
    (hlive : s.server.escaped = false) (t : ThreadId) :
    s.server.jobs t = none := by
  have hnone := h (.server (.resume t)) rfl
  cases hjob : s.server.jobs t with
  | none => rfl
  | some job =>
      cases job with
      | registering k =>
          simp [Network.step, State.serverAdmits, Server.step, hlive,
            State.admits, Event.thread, freeStep, hjob] at hnone
      | closing posted rest =>
          cases rest <;>
            simp [Network.step, State.serverAdmits, Server.step, hlive,
              State.admits, Event.thread, freeStep, hjob] at hnone

theorem step_server (h : Stuck mp bytes unpacker disp s)
    (hlive : s.server.escaped = false) (e : Server.Event) :
    Server.step mp unpacker disp s.server e =
      freeStep mp unpacker disp s.server e := by
  unfold Server.step
  refine if_pos ⟨hlive, ?_⟩
  unfold State.admits
  split
  · rfl
  · rename_i t _
    rw [h.free hlive t]
    rfl

theorem server (h : Stuck mp bytes unpacker disp s)
    (hlive : s.server.escaped = false) {e : Server.Event}
    (hprogress : (Event.server e : Event ι).isProgress = true)
    (hadmits : s.serverAdmits bytes e = true) :
    freeStep mp unpacker disp s.server e = none := by
  have hnone := h (.server e) hprogress
  dsimp only [Network.step] at hnone
  rwa [if_pos hadmits, Option.map_eq_none_iff, h.step_server hlive] at hnone

/-! ### The client -/

theorem drawn (h : Stuck mp bytes unpacker disp s) {i : ι}
    (hlive : (s.client i).escaped = none) : (s.client i).drawn = [] := by
  have hnone := h.client (e := .post 0) hlive rfl rfl
  simpa [Client.liveStep] using hnone

theorem strand (h : Stuck mp bytes unpacker disp s) {i : ι}
    (hlive : (s.client i).escaped = none) : (s.client i).strand = [] := by
  have hnone := h.client (e := .runStrand) hlive rfl rfl
  cases hstrand : (s.client i).strand with
  | nil => rfl
  | cons task rest => simp [Client.liveStep, hstrand] at hnone

/-- A client that lives is connected. -/
theorem connected (h : Stuck mp bytes unpacker disp s) (hlively : Lively s)
    {i : ι} (hlive : (s.client i).escaped = none) :
    i ∈ s.clients ∧ (s.client i).isConnected = true := by
  have hphases := (hlively.steady i).phases
  have hestablished : i ∈ s.clients := by
    by_contra hnot
    have hfresh := established_eq_false_iff.mpr hnot
    have hconnecting : (s.client i).connecting = 1 := by
      refine (hphases.attempting ?_).2.2.2 hlive
      exact Bool.eq_false_iff.mpr fun hyes => hnot (hlively.connected i hyes)
    have hnone := h (.establish i) rfl
    simp [Network.step, hlive, hfresh, hconnecting] at hnone
  refine ⟨hestablished, ?_⟩
  by_contra hnot
  have hconnecting : (s.client i).connecting = 1 :=
    (hphases.attempting (Bool.eq_false_iff.mpr hnot)).2.2.2 hlive
  have hadmits : s.established i = true := by
    by_contra hfresh
    exact established_eq_false_iff.mp (Bool.eq_false_iff.mpr hfresh)
      hestablished
  have hnone := h.client (e := .connectDone) hlive rfl hadmits
  simp [Client.liveStep, hconnecting] at hnone

/-- The stream of a client has left its socket. -/
theorem up_rest (h : Stuck mp bytes unpacker disp s) {k : SessionNumber}
    {ch : Channel ι} (hch : s.channels[k]? = some ch)
    (hopen : ch.up.cut = false) : ch.up.rest (s.upStream bytes ch) = [] := by
  by_contra hne
  have hpos := List.length_pos_iff.mpr hne
  have hnone := h (.takeUp k (ch.up.rest (s.upStream bytes ch)).length) rfl
  simp [Network.step, hch, hopen, hpos] at hnone

/-- So its writer has nothing left to do. -/
theorem client_queue (h : Stuck mp bytes unpacker disp s)
    (hlively : Lively s) {k : SessionNumber} {ch : Channel ι}
    (hch : s.channels[k]? = some ch)
    (hlive : (s.client ch.client).escaped = none)
    (hwriter : (s.client ch.client).writer.exit = false)
    (hfailed : ch.failed = 0) (hopen : ch.up.cut = false) :
    (s.client ch.client).writer.writeQueue = [] := by
  refine hlively.asking k ch hch hfailed hopen hwriter ?_
  by_contra hne
  have hpos := List.length_pos_iff.mpr hne
  have hadmits : s.clientAdmits bytes ch.client (.writeDone 0 .success) =
      true := by
    refine List.any_eq_true.mpr ⟨ch, List.mem_of_getElem? hch, ?_⟩
    simp [hopen, h.up_rest hch hopen]
  have hnone := h.client (e := .writeDone 0 .success) hlive rfl hadmits
  simp [Client.liveStep, hpos] at hnone

/-! ### The server -/

theorem tasks (h : Stuck mp bytes unpacker disp s)
    (hlive : s.server.escaped = false) : s.server.tasks = [] := by
  have hnone := h.server (e := .dispatch 0 0) hlive rfl rfl
  simpa [freeStep] using hnone

theorem writeStrand (h : Stuck mp bytes unpacker disp s)
    (hlive : s.server.escaped = false) {k : SessionNumber}
    (hk : k < s.server.created) :
    (s.server.connection k).writeStrand = [] := by
  have hnone := h.server (e := .runStrand 0 k) hlive rfl rfl
  cases hstrand : (s.server.connection k).writeStrand with
  | nil => rfl
  | cons task rest => simp [freeStep, hk, hstrand] at hnone

/-- An acceptor that works has accepted every connection. -/
theorem created (h : Stuck mp bytes unpacker disp s)
    (hlive : s.server.escaped = false) (haccepting : 0 < s.server.accepting) :
    s.channels.length ≤ s.server.created := by
  by_contra hroom
  have hadmits : s.serverAdmits bytes (.acceptDone 0 .success 0) = true := by
    simpa [State.serverAdmits] using hroom
  have hnone := h.server (e := .acceptDone 0 .success 0) hlive rfl hadmits
  simp [freeStep, haccepting] at hnone

theorem down_rest (h : Stuck mp bytes unpacker disp s) {k : SessionNumber}
    {ch : Channel ι} (hch : s.channels[k]? = some ch)
    (hk : k < s.server.created) (hopen : ch.down.cut = false) :
    ch.down.rest (s.downStream bytes k) = [] := by
  by_contra hne
  have hpos := List.length_pos_iff.mpr hne
  have hnone := h (.takeDown k (ch.down.rest (s.downStream bytes k)).length) rfl
  simp [Network.step, hch, hk, hopen, hpos] at hnone

theorem session_queue (h : Stuck mp bytes unpacker disp s)
    (hlively : Lively s) {k : SessionNumber} {ch : Channel ι}
    (hch : s.channels[k]? = some ch) (hlive : s.server.escaped = false)
    (hk : k < s.server.created)
    (hwriter : (s.server.connection k).writer.exit = false)
    (hopen : ch.down.cut = false) :
    (s.server.connection k).writer.writeQueue = [] := by
  refine hlively.answering k ch hch hk hopen hwriter ?_
  by_contra hne
  have hpos := List.length_pos_iff.mpr hne
  have hadmits : s.serverAdmits bytes (.written 0 k 0 .success) = true := by
    simp [State.serverAdmits, hch, hopen, h.down_rest hch hk hopen]
  have hnone := h.server (e := .written 0 k 0 .success) hlive rfl hadmits
  simp [freeStep, hk, hpos] at hnone

/-! ### What is on the way -/

/-- A session that reads was given everything. -/
theorem up_wire (h : Stuck mp bytes unpacker disp s) {k : SessionNumber}
    {ch : Channel ι} (hch : s.channels[k]? = some ch)
    (hlive : s.server.escaped = false) (hk : k < s.server.created)
    (hreading : 0 < (s.server.connection k).reading) : ch.up.wire = [] := by
  by_contra hne
  have hpos := List.length_pos_iff.mpr hne
  have hnone := h (.readUp 0 k ch.up.wire.length) rfl
  simp [Network.step, State.readUp, hch, hpos, h.step_server hlive, freeStep,
    hk, hreading] at hnone

/-- So was a client, if what is on the way is readable. -/
theorem down_wire (h : Stuck mp bytes unpacker disp s) {k : SessionNumber}
    {ch : Channel ι} (hch : s.channels[k]? = some ch)
    (hlive : (s.client ch.client).escaped = none)
    (hreading : 0 < (s.client ch.client).reading)
    (hok : 0 < ch.down.wire.length → (unpacker.drain (ch.unparsed ++
      ch.down.wire.take ch.down.wire.length)).failed = false) :
    ch.down.wire = [] := by
  by_contra hne
  have hpos := List.length_pos_iff.mpr hne
  have hnone := h (.readDown k ch.down.wire.length) rfl
  have hok' := hok hpos
  rw [List.take_length] at hok'
  simp [Network.step, State.readDown, hch, hpos, hok', Client.step, hlive,
    Client.liveStep, hreading] at hnone

end Stuck

/-! ## What was not lost -/

/-- Nothing has failed that the connection needs, and its handlers answer. -/
structure Intact (mp : MsgPack Buf) (s : State ι ω V Buf) (k : SessionNumber)
    (ch : Channel ι) : Prop where
  /-- No write of the client or of the session has failed. -/
  failed : ch.failed = 0
  up : ch.up.cut = false
  down : ch.down.cut = false
  /-- The session was accepted, or the acceptor is at work. -/
  accepting : k < s.server.created ∨ 0 < s.server.accepting
  open_ : k < s.server.created → (s.server.connection k).writer.exit = false
  reading : k < s.server.created → 0 < (s.server.connection k).reading
  answering : ∀ d ∈ s.server.dispatchedOf k,
    Request.replyId mp d.msg ≠ none → d.responses ≠ []

/-- Nothing has failed that the client needs. -/
structure Healthy (mp : MsgPack Buf) (s : State ι ω V Buf) (i : ι) :
    Prop where
  client : (s.client i).escaped = none
  server : s.server.escaped = false
  reading : (s.client i).isConnected = true → 0 < (s.client i).reading
  intact : ∀ k ch, s.channels[k]? = some ch → ch.client = i →
    Intact mp s k ch

instance (s : State ι ω V Buf) (k : SessionNumber) (ch : Channel ι) :
    Decidable (Intact mp s k ch) :=
  decidable_of_iff (ch.failed = 0 ∧ ch.up.cut = false ∧ ch.down.cut = false ∧
      (k < s.server.created ∨ 0 < s.server.accepting) ∧
      (k < s.server.created → (s.server.connection k).writer.exit = false) ∧
      (k < s.server.created → 0 < (s.server.connection k).reading) ∧
      ∀ d ∈ s.server.dispatchedOf k,
        Request.replyId mp d.msg ≠ none → d.responses ≠ [])
    ⟨fun ⟨h₁, h₂, h₃, h₄, h₅, h₆, h₇⟩ => ⟨h₁, h₂, h₃, h₄, h₅, h₆, h₇⟩,
      fun h => ⟨h.failed, h.up, h.down, h.accepting, h.open_, h.reading,
        h.answering⟩⟩

instance (s : State ι ω V Buf) (i : ι) : Decidable (Healthy mp s i) :=
  decidable_of_iff ((s.client i).escaped = none ∧ s.server.escaped = false ∧
      ((s.client i).isConnected = true → 0 < (s.client i).reading) ∧
      ∀ k < s.channels.length, ∀ ch ∈ s.channels[k]?, ch.client = i →
        Intact mp s k ch)
    ⟨fun ⟨h₁, h₂, h₃, h₄⟩ => ⟨h₁, h₂, h₃, fun k ch hch =>
        h₄ k (List.getElem?_eq_some_iff.mp hch).1 ch hch⟩,
      fun h => ⟨h.client, h.server, h.reading, fun k _ ch hch =>
        h.intact k ch hch⟩⟩

namespace Stuck

variable {s : State ι ω V Buf} {app : ω}

/-- Every call has reached its session and was dispatched. -/
theorem dispatched_of_issued (h : Stuck mp bytes unpacker disp s)
    (hsound : Sound mp bytes unpacker disp app s) (hlively : Lively s)
    (hlegible : Legible mp bytes unpacker s) {k : SessionNumber}
    {ch : Channel ι} (hch : s.channels[k]? = some ch)
    (hhealthy : Healthy mp s ch.client) (hk : k < s.server.created)
    {c : Client.Call} (hc : c ∈ (s.client ch.client).issued) :
    ∃ d ∈ s.server.dispatchedOf k, d.msg = c.message := by
  have hintact := hhealthy.intact k ch hch rfl
  have hcarried := hsound.carried k ch hch
  have hsending := hsound.sending ch.client
  have hresting : Client.Resting (s.client ch.client) :=
    ⟨(h.connected hlively hhealthy.client).2, h.drawn hhealthy.client,
      h.strand hhealthy.client, h.client_queue hlively hch hhealthy.client
        hsending.conserved.tracked.writer.open_ hintact.failed hintact.up⟩
  have hstarted := hresting.started_of_issued (hlively.steady ch.client)
    (hsound.correlated ch.client) hc
  -- the session has received the whole stream
  have hwire := h.up_wire hch hhealthy.server hk (hintact.reading hk)
  have hsent := hcarried.up.sent_of_rest (h.up_rest hch hintact.up)
  rw [Link.sent, hwire, List.append_nil,
    ← hcarried.whole hk (hintact.open_ hk),
    Carried.upStream_eq hsending hlegible.movedFrom, hintact.failed] at hsent
  obtain ⟨arrived, hperm, hdecodes⟩ := hsound.serving.arriving k hk
  have hall := hdecodes.all (Carried.upStream_reads hsending
    (hlegible.requests ch.client) (n := 0)) hsent
  have hmem : c.message ∈ s.server.decodedOf k := by
    rw [hperm.mem_iff, hall]
    exact List.mem_filterMap.mpr ⟨_, hstarted, mp.unpack_pack _⟩
  rw [State.decodedOf, State.waitingOf, h.tasks hhealthy.server] at hmem
  obtain ⟨d, hd, hmsg⟩ := List.mem_map.mp (by simpa using hmem)
  exact ⟨d, hd, hmsg⟩

/-- Every response of the session has reached the client. -/
theorem responses_eq (h : Stuck mp bytes unpacker disp s)
    (hsound : Sound mp bytes unpacker disp app s) (hlively : Lively s)
    (hlegible : Legible mp bytes unpacker s) {k : SessionNumber}
    {ch : Channel ι} (hch : s.channels[k]? = some ch)
    (hhealthy : Healthy mp s ch.client) (hk : k < s.server.created) :
    (s.client ch.client).responses =
      (s.server.repliesOf k).map fun r => r.message.decoded := by
  have hintact := hhealthy.intact k ch hch rfl
  have hcarried := hsound.carried k ch hch
  obtain ⟨replies, hreplies, hresponses, hdecodes⟩ := hcarried.read
  -- the writer of the session has given every frame to its socket
  have hqueue := h.session_queue hlively hch hhealthy.server hk
    (hintact.open_ hk) hintact.down
  obtain ⟨l, hl⟩ := hsound.serving.writers k hk
  have haccepted := hsound.serving.replying k hk (hintact.open_ hk)
  rw [Connection.replyFrames, h.writeStrand hhealthy.server hk,
    frames_repliesOf, List.filterMap_nil, List.append_nil,
    ← started_eq_accepted hl hqueue] at haccepted
  have hstream : (s.server.connection k).writer.started.flatMap bytes =
      ((s.server.repliesOf k).map Response.frame).flatMap
        (encode mp bytes) := by
    rw [haccepted, List.flatMap_map, List.flatMap_map]
    rfl
  have hconnected := (h.connected hlively hhealthy.client).2
  have hwire := h.down_wire hch hhealthy.client (hhealthy.reading hconnected)
    fun hpos => (hcarried.next_replies hsound.serving (hlegible.replies k)
      hreplies hdecodes hpos (Nat.le_refl _)).1
  have hsent := (hcarried.down hk).sent_of_rest
    (h.down_rest hch hk hintact.down)
  rw [Link.sent, hwire, List.append_nil, hstream] at hsent
  have hall := hdecodes.all (fun o ho => ?_) hsent
  · have hlength := congrArg List.length hall
    rw [List.length_map, List.length_map] at hlength
    rw [hresponses, hreplies.eq_of_length hlength]
  · obtain ⟨r, hr, rfl⟩ := List.mem_map.mp ho
    refine hlegible.replies k hk (r.data mp) ?_ r.frame (mp.unpack_pack _)
    rw [haccepted]
    exact List.mem_map_of_mem hr

/-- Every call has its outcome. -/
theorem answered (h : Stuck mp bytes unpacker disp s)
    (hsound : Sound mp bytes unpacker disp app s) (hlively : Lively s)
    (hlegible : Legible mp bytes unpacker s) {i : ι}
    (hhealthy : Healthy mp s i) {c : Client.Call}
    (hc : c ∈ (s.client i).issued) :
    (s.client i).shared (.call c.number) ≠ none := by
  obtain ⟨ch, hmem, rfl⟩ :=
    List.mem_map.mp (h.connected hlively hhealthy.client).1
  obtain ⟨k, hch⟩ := List.getElem?_of_mem hmem
  have hintact := hhealthy.intact k ch hch rfl
  have hk : k < s.server.created := by
    rcases hintact.accepting with hk | haccepting
    · exact hk
    · exact Nat.lt_of_lt_of_le (List.getElem?_eq_some_iff.mp hch).1
        (h.created hhealthy.server haccepting)
  obtain ⟨d, hd, hmsg⟩ :=
    h.dispatched_of_issued hsound hlively hlegible hch hhealthy hk hc
  have hid : Request.replyId mp d.msg = some c.idx.toUInt32 := by
    have hbuffer := Client.bufferId_buffer mp c
    rw [Request.bufferId, Client.Call.buffer, mp.unpack_pack] at hbuffer
    rw [hmsg]
    exact hbuffer
  obtain ⟨resp, hresp⟩ := List.exists_mem_of_ne_nil _
    (hintact.answering d hd (by simp [hid]))
  have hown : resp.id = c.idx.toUInt32 := by
    obtain ⟨w, w', hran, -⟩ :=
      hsound.serving.executed d (List.mem_of_mem_filter hd)
    have hids := (hran.responseIds mp).subset (List.mem_map_of_mem hresp)
    rw [hid] at hids
    simpa using hids
  have hhandled : resp.message.decoded ∈ (s.client ch.client).responses := by
    rw [h.responses_eq hsound hlively hlegible hch hhealthy hk]
    exact List.mem_map_of_mem (List.mem_flatMap.mpr ⟨d, hd, hresp⟩)
  rw [((hsound.correlated ch.client).shared_call_iff hc _).mpr
    ⟨resp.message.decoded, hhandled, hown, rfl⟩]
  exact Option.some_ne_none _

end Stuck

variable (mp bytes unpacker disp)

/-- A call that has no outcome yet, of a client for which nothing has failed,
can go on: something can happen that is neither a failure nor a request of an
application. -/
theorem call_can_progress {app : ω} {s : State ι ω V Buf}
    (hreach : Reachable (step mp bytes unpacker disp) FewCalls
      (.initial disp app) s) (hlegible : Legible mp bytes unpacker s)
    {i : ι} (hhealthy : Healthy mp s i) {c : Client.Call}
    (hc : c ∈ (s.client i).issued)
    (hwaits : (s.client i).shared (.call c.number) = none) :
    ∃ e s', e.isProgress = true ∧
      step mp bytes unpacker disp s e = some s' := by
  obtain ⟨hsound, hlively⟩ := lively_of_reachable hreach hlegible
  by_contra hnone
  push Not at hnone
  have hstuck : Stuck mp bytes unpacker disp s := fun e hprogress =>
    Option.eq_none_iff_forall_not_mem.mpr fun s' => hnone e s' hprogress
  exact hstuck.answered hsound hlively hlegible hhealthy hc hwaits

/-- The response to `g` is on the way. -/
theorem call_can_progress_counted : ∃ s e s',
    (s.client true).shared (.call 0) = none ∧
      Event.isProgress e = true ∧ countedStep s e = some s' := by
  have hends : (run countedStep (.initial counting 0)
      (countOnce ++ thenAsk.dropLast)).map (fun s =>
        ((s.client true).issued, (s.client true).shared (.call 0),
          onlyCounted s, decide (Healthy .reference s true))) =
      some ([⟨0, 1, "g", []⟩], none, true, true) := rfl
  obtain ⟨s, hrun, hend⟩ := Option.map_eq_some_iff.mp hends
  simp only [Prod.mk.injEq, decide_eq_true_eq] at hend
  obtain ⟨hissued, hwaits, honly, hhealthy⟩ := hend
  have hreach : Reachable countedStep FewCalls (.initial counting 0) s := by
    have hfew : 0 + (countOnce ++ thenAsk.dropLast).length < UInt32.size := by
      decide
    exact reachable_of_run (fewCalls_of_length fun _ => hfew) hrun
  obtain ⟨e, s', hprogress, hstep⟩ := call_can_progress .reference
    countedBytes MsgPack.shortForms counting hreach (counted_legible honly)
    hhealthy
    (c := ⟨0, 1, "g", []⟩) (hissued ▸ List.mem_singleton_self _) hwaits
  exact ⟨s, e, s', hwaits, hprogress, hstep⟩

end Network
end System
end RpcLib
