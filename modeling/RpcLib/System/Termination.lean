import Mathlib.Data.Fintype.Basic
import RpcLib.System.Completion

/-!
# Everything comes to an end

Left to themselves the clients, the server and the network run out of things to
do: what a client asks for passes through the stages of `stages` to the client
that reads the answer, and each step works off something of its own stage.

* `Orderly`: what every step keeps and the stages need.
* `stages`: what there is to do, from the client to the server and back.
* `descends_of_step`: every step without a failure works something off.
* `progress_terminates`: there is no infinite run of such steps.
* `every_schedule_answers`: so every call is answered, unless something fails
  that its client needs.
-/

namespace RpcLib
namespace System
namespace Network

open Protocol Transport Foundation TransitionSystem Server

variable {ι ω V Buf : Type} [DecidableEq ι] {mp : MsgPack Buf}
  {bytes : Buf → List UInt8} {unpacker : Decoder Object UInt8}
  {disp : Dispatcher ω V}

/-! ## What every step keeps -/

/-- The writers at both ends are queues, and the work of the server is in
finitely many places. -/
structure Orderly (mp : MsgPack Buf) (unpacker : Decoder Object UInt8)
    (disp : Dispatcher ω V) (app : ω) (s : State ι ω V Buf) : Prop where
  sending : ∀ i, Client.Sending mp (s.client i)
  serving : Serving mp unpacker disp app s.server
  spread : Spread s.server

namespace Orderly

omit [DecidableEq ι] in
theorem initial (app : ω) : Orderly mp unpacker disp app
    (.initial disp app : State ι ω V Buf) :=
  ⟨fun _ => .initial mp, .initial mp unpacker disp app, .initial app⟩

variable {app : ω} {s s' : State ι ω V Buf}

/-- A client goes on. -/
theorem of_client (h : Orderly mp unpacker disp app s) {i : ι}
    {e : Client.Event} {c : Client.State Buf}
    (hstep : Client.step mp (s.client i) e = some c)
    (hclient : s'.client = (s.setClient i c).client)
    (hserver : s'.server = s.server) : Orderly mp unpacker disp app s' := by
  refine ⟨?_, hserver ▸ h.serving, hserver ▸ h.spread⟩
  rw [hclient]
  exact Sound.everyClient h.sending
    ((h.sending i).step (Client.effect_of_step mp hstep).2)

omit [DecidableEq ι] in
/-- The server goes on. -/
theorem of_server (h : Orderly mp unpacker disp app s) {e : Server.Event}
    (hstep : Server.step mp unpacker disp s.server e = some s'.server)
    (hclient : s'.client = s.client) : Orderly mp unpacker disp app s' :=
  ⟨hclient.symm ▸ h.sending, h.serving.step mp unpacker disp hstep,
    h.spread.step (Server.effect_of_step mp unpacker disp hstep).2⟩

omit [DecidableEq ι] in
/-- Something happens to a connection. -/
theorem of_channels (h : Orderly mp unpacker disp app s)
    (hclient : s'.client = s.client) (hserver : s'.server = s.server) :
    Orderly mp unpacker disp app s' :=
  ⟨hclient.symm ▸ h.sending, hserver.symm ▸ h.serving,
    hserver.symm ▸ h.spread⟩

theorem step {e : Event ι} (h : Orderly mp unpacker disp app s)
    (hstep : Network.step mp bytes unpacker disp s e = some s') :
    Orderly mp unpacker disp app s' := by
  cases Network.effect_of_step mp bytes unpacker disp hstep with
  | establish => exact h.of_channels rfl rfl
  | client hadmits hclient => exact h.of_client hclient rfl rfl
  | server hadmits hserver => exact h.of_server hserver rfl
  | takeUp => exact h.of_channels rfl rfl
  | takeDown => exact h.of_channels rfl rfl
  | readUp hch hpos hn hserver => exact h.of_server hserver rfl
  | readDown hch hpos hn hok hclient => exact h.of_client hclient rfl rfl

theorem of_reachable {guard : State ι ω V Buf → Event ι → Prop}
    (hreach : Reachable (Network.step mp bytes unpacker disp) guard
      (.initial disp app) s) : Orderly mp unpacker disp app s :=
  hreach.invariant (.initial app) fun _ _ _ h _ hstep => h.step hstep

end Orderly

/-! ## What there is to do -/

/-- A number for each connection. -/
noncomputable def overChannels (channels : List (Channel ι))
    (work : SessionNumber → Channel ι → ℕ) : ℕ :=
  total fun k => (channels[k]?).elim 0 (work k)

section Channels

variable {channels : List (Channel ι)} {k : SessionNumber}
  {ch ch' : Channel ι} {work : SessionNumber → Channel ι → ℕ}

omit [DecidableEq ι] in
theorem overChannels_bounded :
    Bounded fun j => (channels[j]?).elim 0 (work j) :=
  .of_length (n := channels.length) fun j hj => by
    rw [List.getElem?_eq_none hj]
    rfl

omit [DecidableEq ι] in
theorem overChannels_set_eq (hch : channels[k]? = some ch)
    (hsame : work k ch' = work k ch) :
    overChannels (channels.set k ch') work = overChannels channels work := by
  refine congrArg total (funext fun j => ?_)
  by_cases hj : j = k
  · subst hj
    obtain ⟨hlt, -⟩ := List.getElem?_eq_some_iff.mp hch
    rw [List.getElem?_set_self hlt, hch]
    exact hsame
  · rw [List.getElem?_set_ne (Ne.symm hj)]

omit [DecidableEq ι] in
theorem overChannels_set_lt (hch : channels[k]? = some ch)
    (hless : work k ch' < work k ch) :
    overChannels (channels.set k ch') work < overChannels channels work := by
  obtain ⟨hlt, -⟩ := List.getElem?_eq_some_iff.mp hch
  have hbefore : (channels[k]?).elim 0 (work k) = work k ch := by rw [hch]; rfl
  have hafter : ((channels.set k ch')[k]?).elim 0 (work k) = work k ch' := by
    rw [List.getElem?_set_self hlt]
    rfl
  refine total_lt overChannels_bounded (fun j => ?_) (a := k) ?_
  · by_cases hj : j = k
    · subst hj
      rw [hbefore, hafter]
      exact Nat.le_of_lt hless
    · rw [List.getElem?_set_ne (Ne.symm hj)]
  · rw [hbefore, hafter]
    exact hless

end Channels

namespace State

section Work

variable (bytes) (s : State ι ω V Buf)

/-- Connections that clients do not have yet. -/
noncomputable def toEstablish : ℕ :=
  total fun i => if s.established i then 0 else 1

noncomputable def starting : ℕ := total fun i => (s.client i).starting

noncomputable def writing : ℕ := total fun i => (s.client i).writing

noncomputable def toSend : ℕ := total fun i => (s.client i).toSend

/-- Bytes that the sockets of the clients have not taken. -/
noncomputable def toTakeUp : ℕ :=
  overChannels s.channels fun _ ch =>
    (ch.up.rest (s.upStream bytes ch)).length

/-- Connections that the server does not know. -/
def toAccept : ℕ := s.channels.length - s.server.created

/-- Bytes on the way to the server. -/
noncomputable def toReadUp : ℕ :=
  overChannels s.channels fun _ ch => ch.up.wire.length

/-- Bytes that the sockets of the sessions have not taken. -/
noncomputable def toTakeDown : ℕ :=
  overChannels s.channels fun k ch =>
    (ch.down.rest (s.downStream bytes k)).length

/-- Bytes on the way to the clients. -/
noncomputable def toReadDown : ℕ :=
  overChannels s.channels fun _ ch => ch.down.wire.length

noncomputable def toRun : ℕ := total fun i => (s.client i).toRun

end Work

end State

variable (bytes) in
/-- From the application of a client to the server. -/
noncomputable def stagesUp : List (State ι ω V Buf → ℕ) :=
  [State.toEstablish, State.starting, State.writing, State.toSend,
    State.toTakeUp bytes, State.toAccept, State.toReadUp]

variable (bytes) in
/-- From the server to the application of a client. -/
noncomputable def stagesDown : List (State ι ω V Buf → ℕ) :=
  [State.toTakeDown bytes, State.toReadDown, State.toRun]

variable (bytes) in
/-- What there is to do. -/
noncomputable def stages : List (State ι ω V Buf → ℕ) :=
  stagesUp bytes ++ (backlog.map (fun work s => work s.server) ++
    stagesDown bytes)

/-! ## Every step works something off -/

section Descent

variable {s : State ι ω V Buf}

theorem established_establish (s : State ι ω V Buf) (i j : ι) :
    (s.establish i).established j = (s.established j || decide (i = j)) := by
  simp [State.established, State.establish, List.any_append]

theorem toEstablish_congr {s' : State ι ω V Buf}
    (hclients : s'.clients = s.clients) :
    s'.toEstablish = s.toEstablish := by
  refine congrArg total (funext fun i => ?_)
  have hsame : s'.established i = s.established i := by
    rw [Bool.eq_iff_iff, ← not_iff_not, Bool.not_eq_true, Bool.not_eq_true,
      established_eq_false_iff, established_eq_false_iff, hclients]
  rw [hsame]

/-- The work of the clients, when one of them does not touch its own. -/
theorem total_setClient (work : Client.State Buf → ℕ) {i : ι}
    {c : Client.State Buf} (hsame : work c = work (s.client i)) :
    (total fun j => work ((s.setClient i c).client j)) =
      total fun j => work (s.client j) := by
  refine congrArg total (funext fun j => ?_)
  by_cases hj : j = i
  · subst hj
    rw [setClient_self, hsame]
  · rw [setClient_other s hj]

variable (bytes) in
/-- The stream of a client depends on its writer only. -/
theorem upStream_setClient {i : ι} {c : Client.State Buf}
    (hwriter : c.writer = (s.client i).writer) (ch : Channel ι) :
    (s.setClient i c).upStream bytes ch = s.upStream bytes ch := by
  have hsame : ((s.setClient i c).client ch.client).writer =
      (s.client ch.client).writer := by
    by_cases hi : ch.client = i
    · rw [hi, setClient_self, hwriter]
    · rw [setClient_other s hi]
  rw [State.upStream, hsame]
  rfl

theorem descends_up {s' : State ι ω V Buf}
    (h : Descends (stagesUp bytes) s s') : Descends (stages bytes) s s' :=
  h.left

theorem descends_between {s' : State ι ω V Buf}
    (hup : ∀ work ∈ stagesUp bytes, work s' ≤ work s)
    (h : Descends backlog s.server s'.server) :
    Descends (stages bytes) s s' :=
  .behind_all hup (Descends.of_part State.server h).left

theorem descends_down {s' : State ι ω V Buf}
    (hup : ∀ work ∈ stagesUp bytes, work s' ≤ work s)
    (hserver : s'.server = s.server)
    (h : Descends (stagesDown bytes) s s') : Descends (stages bytes) s s' := by
  refine .behind_all hup (.behind_all (fun work hwork => ?_) h)
  obtain ⟨work, -, rfl⟩ := List.mem_map.mp hwork
  exact Nat.le_of_eq (congrArg work hserver)

/-- The stages before the server, in a step that touches none of them. -/
theorem stagesUp_le {s' : State ι ω V Buf} (hclients : s'.clients = s.clients)
    (hstarting : s'.starting = s.starting) (hwriting : s'.writing = s.writing)
    (hsend : s'.toSend = s.toSend)
    (htake : s'.toTakeUp bytes = s.toTakeUp bytes)
    (hcreated : s'.server.created = s.server.created)
    (hread : s'.toReadUp = s.toReadUp) :
    ∀ work ∈ stagesUp bytes, work s' ≤ work s := by
  have hestablish := toEstablish_congr hclients
  have haccept : s'.toAccept = s.toAccept := by
    have hlength := congrArg List.length hclients
    rw [State.clients, State.clients, List.length_map,
      List.length_map] at hlength
    rw [State.toAccept, hlength, hcreated, State.toAccept]
  simp [stagesUp, hestablish, hstarting, hwriting, hsend, htake, haccept,
    hread]

/-- An event without a failure cuts nothing off. -/
theorem channelsAfter_of_progress (s : State ι ω V Buf) (i : ι)
    {e : Client.Event} (hprogress : e.isProgress = true) :
    s.channelsAfter i e = s.channels := by
  cases e with
  | writeDone j ec =>
      obtain rfl : ec = .success := by
        simpa [Client.Event.isProgress] using hprogress
      rfl
  | _ => rfl

omit [DecidableEq ι] in
theorem channelsBehind_of_progress (s : State ι ω V Buf) {e : Server.Event}
    (hprogress : e.isProgress = true) : s.channelsBehind e = s.channels := by
  cases e with
  | written t k i ec =>
      obtain rfl : ec = .success := by
        simpa [Server.Event.isProgress] using hprogress
      rfl
  | _ => rfl

variable {app : ω} [Finite ι]

/-- A client works something off. -/
theorem descends_of_client (h : Orderly mp unpacker disp app s) {i : ι}
    {e : Client.Event} {c : Client.State Buf}
    (hprogress : e.isProgress = true)
    (hstep : Client.step mp (s.client i) e = some c) :
    Descends (stages bytes) s (s.setClient i c) := by
  obtain ⟨l, hl⟩ := AsyncWriter.exists_ledger mp
    (h.sending i).conserved.tracked.writer.reachable
  have hestablish : (s.setClient i c).toEstablish ≤ s.toEstablish :=
    Nat.le_of_eq (toEstablish_congr rfl)
  rcases Client.descends_of_effect (Client.effect_of_step mp hstep).2
    hprogress hl with hdescends | ⟨hstarting, hwriting, hwriter, hrun⟩
  · have hthis : (s.setClient i c).client i = c := setClient_self s i c
    rw [← hthis] at hdescends
    have hclients := Descends.of_part State.client
      (hdescends.total fun _ hj => setClient_other s hj c)
    exact descends_up (.behind hestablish hclients.left)
  · -- an erase
    have hup := upStream_setClient bytes hwriter
    refine descends_down (stagesUp_le rfl (total_setClient _ hstarting)
      (total_setClient _ hwriting)
      (total_setClient Client.State.toSend ?_) ?_ rfl rfl) rfl
      (.behind (Nat.le_refl _) (.behind (Nat.le_refl _) (.here ?_)))
    · rw [Client.State.toSend, hwriter]
      rfl
    · simp only [State.toTakeUp, hup]
      rfl
    · refine total_lt_of_update (.of_finite _)
        (fun _ hj => setClient_other s hj c) (a := i) ?_
      rw [setClient_self]
      exact hrun

/-- Every step without a failure works something off. -/
theorem descends_of_step {s' : State ι ω V Buf} {e : Event ι}
    (h : Orderly mp unpacker disp app s) (hprogress : e.isProgress = true)
    (hstep : step mp bytes unpacker disp s e = some s') :
    Descends (stages bytes) s s' := by
  cases effect_of_step mp bytes unpacker disp hstep with
  | @establish i hlive hconnecting hfresh =>
      refine descends_up (.here (total_lt (.of_finite _) (a := i) ?_ ?_))
      · intro j
        rw [established_establish]
        cases s.established j with
        | true => exact Nat.le_refl _
        | false =>
            show (if _ then 0 else 1) ≤ 1
            split <;> simp
      · rw [established_establish, hfresh]
        simp
  | @client i e c hadmits hclient =>
      rw [channelsAfter_of_progress s i hprogress]
      exact descends_of_client h hprogress hclient
  | @server e server hadmits hserver =>
      rw [channelsBehind_of_progress s hprogress]
      rcases Server.descends_of_effect
        (Server.effect_of_step mp unpacker disp hserver).2 hprogress h.spread
        h.serving.writers with
        ⟨t, address, rfl, rfl⟩ | ⟨hcreated, hdescends⟩
      · have hroom : s.server.created < s.channels.length := by
          simpa [State.serverAdmits] using hadmits
        refine descends_up (.behind (Nat.le_refl _) (.behind (Nat.le_refl _)
          (.behind (Nat.le_refl _) (.behind (Nat.le_refl _)
            (.behind (Nat.le_refl _) (.here ?_))))))
        show s.channels.length - (s.server.created + 1) <
          s.channels.length - s.server.created
        omega
      · exact descends_between
          (stagesUp_le rfl rfl rfl rfl rfl hcreated rfl) hdescends
  | @takeUp k n ch hch hopen hpos hn =>
      refine descends_up (.behind (Nat.le_of_eq (toEstablish_congr
        (set_clients hch rfl))) (.behind (Nat.le_refl _)
          (.behind (Nat.le_refl _) (.behind (Nat.le_refl _) (.here ?_)))))
      refine overChannels_set_lt hch ?_
      have htaken := ch.up.rest_take_length (s.upStream bytes ch) n
      show ((ch.up.take (s.upStream bytes ch) n).rest
        (s.upStream bytes ch)).length <
          (ch.up.rest (s.upStream bytes ch)).length
      omega
  | @takeDown k n ch hch hk hopen hpos hn =>
      refine descends_down (stagesUp_le (set_clients hch rfl) rfl rfl rfl
        (overChannels_set_eq hch rfl) rfl (overChannels_set_eq hch rfl)) rfl
        (.here (overChannels_set_lt hch ?_))
      have htaken := ch.down.rest_take_length (s.downStream bytes k) n
      show ((ch.down.take (s.downStream bytes k) n).rest
        (s.downStream bytes k)).length <
          (ch.down.rest (s.downStream bytes k)).length
      omega
  | @readUp t k n ch server hch hpos hn hserver =>
      have hcreated : server.created = s.server.created := by
        rcases created_of_step mp unpacker disp hserver with
          hsame | ⟨_, _, haccept, -⟩
        · exact hsame
        · cases haccept
      have hclients : (({ s with server := server } :
          State ι ω V Buf).setChannel k
            { ch with up := ch.up.deliver n }).clients = s.clients :=
        set_clients hch rfl
      refine descends_up (.behind (Nat.le_of_eq (toEstablish_congr hclients))
        (.behind (Nat.le_refl _) (.behind (Nat.le_refl _)
          (.behind (Nat.le_refl _) (.behind ?_ (.behind ?_ (.here ?_)))))))
      · exact Nat.le_of_eq (overChannels_set_eq hch
          (congrArg List.length (ch.up.rest_deliver _ n)))
      · show (s.channels.set k _).length - server.created ≤ _
        rw [List.length_set, hcreated]
        exact Nat.le_refl _
      · refine overChannels_set_lt hch ?_
        have hread := ch.up.wire_deliver_length n
        show (ch.up.deliver n).wire.length < _
        omega
  | @readDown k n ch c hch hpos hn hok hclient =>
      have hreading : 0 < (s.client ch.client).reading := by
        cases (Client.effect_of_step mp hclient).2 with
        | readDone _ _ hreading => exact hreading
      obtain rfl : (s.client ch.client).readDone mp (unpacker.drain
          (ch.unparsed ++ ch.down.wire.take n)).items .success = c := by
        cases (Client.effect_of_step mp hclient).2
        rfl
      obtain ⟨hstarting, hwriting, hwriter⟩ :=
        Client.readDone_work mp (s.client ch.client) hreading
      have hup := upStream_setClient bytes hwriter
      refine descends_down (stagesUp_le (set_clients hch rfl)
        (total_setClient _ hstarting) (total_setClient _ hwriting)
        (total_setClient Client.State.toSend ?_) ?_ rfl
        (overChannels_set_eq hch rfl)) rfl
        (.behind (Nat.le_of_eq (overChannels_set_eq hch ?_)) (.here ?_))
      · rw [Client.State.toSend, hwriter]
        rfl
      · refine (overChannels_set_eq hch ?_).trans ?_
        · rfl
        · refine congrArg (overChannels s.channels) ?_
          funext j ch'
          exact congrArg (fun stream => (ch'.up.rest stream).length) (hup ch')
      · exact congrArg List.length (ch.down.rest_deliver _ n)
      · refine overChannels_set_lt hch ?_
        have hread := ch.down.wire_deliver_length n
        show (ch.down.deliver n).wire.length < _
        omega

end Descent

/-- There is no infinite run without a failure and without a request of an
application. -/
theorem progress_terminates [Finite ι]
    {app : ω} {run : ℕ → State ι ω V Buf}
    (horderly : Orderly mp unpacker disp app (run 0)) :
    ¬ ∀ n, ∃ e, e.isProgress = true ∧
      step mp bytes unpacker disp (run n) e = some (run (n + 1)) :=
  no_infinite_run (I := Orderly mp unpacker disp app)
    (R := fun s s' => ∃ e, e.isProgress = true ∧
      step mp bytes unpacker disp s e = some s')
    (fun _ _ h ⟨_, _, hstep⟩ => h.step hstep)
    (fun _ _ h ⟨_, hprogress, hstep⟩ => descends_of_step h hprogress hstep)
    horderly

/-! ## Whoever schedules -/

variable (mp bytes unpacker disp)

/-- A schedule of what can happen without a failure: as long as something can,
something does. -/
def Schedule (run : ℕ → State ι ω V Buf) : Prop :=
  ∀ n, (∃ e, e.isProgress = true ∧
      step mp bytes unpacker disp (run n) e = some (run (n + 1))) ∨
    Stuck mp bytes unpacker disp (run n) ∧ run (n + 1) = run n

/-- There is one from every state. -/
theorem exists_schedule (s : State ι ω V Buf) :
    ∃ run, run 0 = s ∧ Schedule mp bytes unpacker disp run := by
  have hnext : ∀ s : State ι ω V Buf, ∃ s',
      (∃ e, e.isProgress = true ∧ step mp bytes unpacker disp s e = some s') ∨
        Stuck mp bytes unpacker disp s ∧ s' = s := by
    intro s
    by_cases hstuck : Stuck mp bytes unpacker disp s
    · exact ⟨s, Or.inr ⟨hstuck, rfl⟩⟩
    · unfold Stuck at hstuck
      push Not at hstuck
      obtain ⟨e, hprogress, hstep⟩ := hstuck
      obtain ⟨s', hs'⟩ := Option.ne_none_iff_exists'.mp hstep
      exact ⟨s', Or.inl ⟨e, hprogress, hs'⟩⟩
  choose next hnext using hnext
  exact ⟨fun n => Nat.rec s (fun _ => next) n, rfl, fun n => hnext _⟩

/-- A request of an application is not progress. -/
theorem Schedule.reachable {run : ℕ → State ι ω V Buf}
    (h : Schedule mp bytes unpacker disp run) {first : State ι ω V Buf}
    (hreach : Reachable (step mp bytes unpacker disp) FewCalls first (run 0))
    (n : ℕ) :
    Reachable (step mp bytes unpacker disp) FewCalls first (run n) := by
  induction n with
  | zero => exact hreach
  | succ n ih =>
      rcases h n with ⟨e, hprogress, hstep⟩ | ⟨-, hstays⟩
      · refine ih.next (fun i funcName args hdraw => ?_) hstep
        rw [hdraw] at hprogress
        cases hprogress
      · rw [hstays]
        exact ih

/-- Whatever the schedule, after finitely many steps nothing is left to do, and
every call of a client for which nothing has failed until then has its
outcome. -/
theorem every_schedule_answers [Finite ι] {app : ω}
    {run : ℕ → State ι ω V Buf}
    (hreach : Reachable (step mp bytes unpacker disp) FewCalls
      (.initial disp app) (run 0))
    (hschedule : Schedule mp bytes unpacker disp run) :
    ∃ n, Stuck mp bytes unpacker disp (run n) ∧
      (Legible mp bytes unpacker (run n) → ∀ i, Healthy mp (run n) i →
        ∀ c ∈ ((run 0).client i).issued,
          ((run n).client i).shared (.call c.number) ≠ none) := by
  obtain ⟨n, hends⟩ : ∃ n, ¬ ∃ e, e.isProgress = true ∧
      step mp bytes unpacker disp (run n) e = some (run (n + 1)) := by
    by_contra hnever
    push Not at hnever
    exact progress_terminates (.of_reachable hreach) hnever
  have hstuck := ((hschedule n).resolve_left hends).1
  refine ⟨n, hstuck, fun hlegible i hhealthy c hc => ?_⟩
  obtain ⟨hsound, hlively⟩ :=
    lively_of_reachable (hschedule.reachable mp bytes unpacker disp hreach n)
      hlegible
  have hissued : ((run 0).client i).issued <+: ((run n).client i).issued :=
    (hschedule.reachable mp bytes unpacker disp .start n).relate
      (R := fun s s' => (s.client i).issued <+: (s'.client i).issued)
      (fun _ => List.prefix_rfl) (fun _ _ _ => List.IsPrefix.trans)
      fun _ _ _ _ hstep => ((grown_of_step hstep).client i).issued
  exact hstuck.answered hsound hlively hlegible hhealthy (hissued.subset hc)

/-! ### A run that rests -/

/-- Nothing is left to do in the network but in the threads of the server:
everything has been established, accepted, run, written and read. -/
structure Drained (s : State ι ω V Buf) : Prop where
  established : ∀ i, s.established i = true
  connecting : ∀ i, (s.client i).connecting = 0
  drawn : ∀ i, (s.client i).drawn = []
  strand : ∀ i, (s.client i).strand = []
  outstanding : ∀ i, (s.client i).writer.outstanding = []
  created : s.channels.length ≤ s.server.created
  tasks : s.server.tasks = []
  writeStrand : ∀ k < s.server.created,
    (s.server.connection k).writeStrand = []
  answered : ∀ k < s.server.created,
    (s.server.connection k).writer.outstanding = []
  up : ∀ (k : SessionNumber) ch, s.channels[k]? = some ch →
    ch.up.rest (s.upStream bytes ch) = [] ∧ ch.up.wire = []
  down : ∀ (k : SessionNumber) ch, s.channels[k]? = some ch →
    ch.down.rest (s.downStream bytes k) = [] ∧ ch.down.wire = []

instance [Fintype ι] (s : State ι ω V Buf) : Decidable (Drained bytes s) :=
  decidable_of_iff ((∀ i, s.established i = true ∧
        (s.client i).connecting = 0 ∧ (s.client i).drawn = [] ∧
        (s.client i).strand = [] ∧ (s.client i).writer.outstanding = []) ∧
      s.channels.length ≤ s.server.created ∧ s.server.tasks = [] ∧
      (∀ k < s.server.created, (s.server.connection k).writeStrand = [] ∧
        (s.server.connection k).writer.outstanding = []) ∧
      ∀ k < s.channels.length, ∀ ch ∈ s.channels[k]?,
        (ch.up.rest (s.upStream bytes ch) = [] ∧ ch.up.wire = []) ∧
          ch.down.rest (s.downStream bytes k) = [] ∧ ch.down.wire = [])
    ⟨fun ⟨hclients, hcreated, htasks, hsessions, hlinks⟩ =>
        ⟨fun i => (hclients i).1, fun i => (hclients i).2.1,
          fun i => (hclients i).2.2.1, fun i => (hclients i).2.2.2.1,
          fun i => (hclients i).2.2.2.2, hcreated, htasks,
          fun k hk => (hsessions k hk).1, fun k hk => (hsessions k hk).2,
          fun k ch hch =>
            (hlinks k (List.getElem?_eq_some_iff.mp hch).1 ch hch).1,
          fun k ch hch =>
            (hlinks k (List.getElem?_eq_some_iff.mp hch).1 ch hch).2⟩,
      fun h => ⟨fun i => ⟨h.established i, h.connecting i, h.drawn i,
          h.strand i, h.outstanding i⟩, h.created, h.tasks,
        fun k hk => ⟨h.writeStrand k hk, h.answered k hk⟩,
        fun k _ ch hch => ⟨h.up k ch hch, h.down k ch hch⟩⟩⟩

variable {mp bytes unpacker disp}

/-- So nothing happens. -/
theorem Drained.stuck {s : State ι ω V Buf} (h : Drained bytes s)
    (hjobs : ∀ t, s.server.jobs t = none) :
    Stuck mp bytes unpacker disp s := by
  intro e hprogress
  refine Option.eq_none_iff_forall_not_mem.mpr fun s' hstep => ?_
  cases effect_of_step mp bytes unpacker disp hstep with
  | establish hlive hconnecting hfresh =>
      rw [h.established] at hfresh
      cases hfresh
  | @client i e c hadmits hclient =>
      cases (Client.effect_of_step mp hclient).2 with
      | post hdrawn =>
          rw [h.drawn] at hdrawn
          cases hdrawn
      | insertCall hstrand | writeNotification hstrand | flushPending hstrand
      | eraseCall hstrand =>
          rw [h.strand] at hstrand
          cases hstrand
      | connected hconnecting =>
          rw [h.connecting] at hconnecting
          exact Nat.lt_irrefl 0 hconnecting
      | written ec houtstanding =>
          rw [h.outstanding] at houtstanding
          exact Nat.not_lt_zero _ houtstanding
      | _ => cases hprogress
  | @server e server hadmits hserver =>
      cases (Server.effect_of_step mp unpacker disp hserver).2 with
      | accepted address hfree haccepting =>
          have hroom : s.server.created < s.channels.length := by
            simpa [State.serverAdmits] using hadmits
          exact Nat.lt_irrefl _ (hroom.trans_le h.created)
      | acceptFailed address hfree haccepting herror =>
          exact herror (by simpa [Event.isProgress,
            Server.Event.isProgress] using hprogress)
      | register hjob | closeNext hjob | closedAll hjob =>
          rw [hjobs] at hjob
          cases hjob
      | dispatch htask =>
          rw [h.tasks] at htask
          cases htask
      | writeReply hk hstrand | close hk hstrand
      | closeSessionsPosted hk hstrand | closeSocket hk hstrand
      | closeSession hk hstrand =>
          rw [h.writeStrand _ hk] at hstrand
          cases hstrand
      | written ec hk houtstanding =>
          rw [h.answered _ hk] at houtstanding
          exact Nat.not_lt_zero _ houtstanding
      | _ => cases hprogress
  | takeUp hch hopen hpos hn =>
      rw [(h.up _ _ hch).1] at hn
      exact Nat.lt_irrefl _ (hpos.trans_le hn)
  | takeDown hch hk hopen hpos hn =>
      rw [(h.down _ _ hch).1] at hn
      exact Nat.lt_irrefl _ (hpos.trans_le hn)
  | readUp hch hpos hn hserver =>
      rw [(h.up _ _ hch).2] at hn
      exact Nat.lt_irrefl _ (hpos.trans_le hn)
  | readDown hch hpos hn hok hclient =>
      rw [(h.down _ _ hch).2] at hn
      exact Nat.lt_irrefl _ (hpos.trans_le hn)

/-- A run of steps without a failure is the beginning of a schedule. -/
theorem exists_schedule_along {s s' : State ι ω V Buf} {es : List (Event ι)}
    (hrun : TransitionSystem.run (step mp bytes unpacker disp) s es = some s')
    (hprogress : ∀ e ∈ es, e.isProgress = true) :
    ∃ run, run 0 = s ∧ run es.length = s' ∧
      Schedule mp bytes unpacker disp run := by
  induction es generalizing s with
  | nil =>
      obtain rfl : s = s' := by simpa using hrun
      obtain ⟨run, hfirst, hschedule⟩ :=
        exists_schedule mp bytes unpacker disp s
      exact ⟨run, hfirst, hfirst, hschedule⟩
  | cons e es ih =>
      rw [run_cons, Option.bind_eq_some_iff] at hrun
      obtain ⟨middle, hstep, hrest⟩ := hrun
      obtain ⟨run, hfirst, hlast, hschedule⟩ :=
        ih hrest fun e' he' => hprogress e' (List.mem_cons_of_mem _ he')
      have hthis := hprogress e List.mem_cons_self
      refine ⟨fun n => n.casesOn s run, rfl, hlast, fun n => ?_⟩
      cases n with
      | zero =>
          exact Or.inl ⟨e, hthis, hstep.trans (congrArg some hfirst.symm)⟩
      | succ n => exact hschedule n

/-- Once nothing is left to do a schedule stays where it is. -/
theorem Schedule.stays {run : ℕ → State ι ω V Buf}
    (h : Schedule mp bytes unpacker disp run) {m n : ℕ} (hmn : m ≤ n)
    (hstuck : Stuck mp bytes unpacker disp (run m)) : run n = run m := by
  induction n, hmn using Nat.le_induction with
  | base => rfl
  | succ n _ ih =>
      rcases h n with ⟨e, hprogress, hstep⟩ | ⟨-, hstays⟩
      · rw [ih, hstuck e hprogress] at hstep
        cases hstep
      · exact hstays.trans ih

/-- So it ends in one state. -/
theorem Schedule.ends_in_one {run : ℕ → State ι ω V Buf}
    (h : Schedule mp bytes unpacker disp run) {m n : ℕ}
    (hm : Stuck mp bytes unpacker disp (run m))
    (hn : Stuck mp bytes unpacker disp (run n)) : run n = run m := by
  rcases Nat.le_total m n with hle | hle
  · exact h.stays hle hm
  · exact (h.stays hle hn).symm

/-- What is left after the second dispatch of this run. -/
def lastSteps : List (Event Bool) :=
  [.readDown 1 5, .client false (.writeDone 0 .success),
    .client true (.writeDone 0 .success), .server (.written 0 0 0 .success),
    .server (.written 0 1 0 .success), .client false .runStrand,
    .client true .runStrand]

/-- The second call, whose response is on the way, gets its outcome. -/
theorem every_schedule_answers_counted :
    ∃ run : ℕ → State Bool Nat Unit (Option Object),
      Schedule .reference countedBytes MsgPack.shortForms counting run ∧
      ((run 0).client true).issued = [⟨0, 1, "g", []⟩] ∧
      ((run 0).client true).shared (.call 0) = none ∧
      ∃ n, Stuck .reference countedBytes MsgPack.shortForms counting (run n) ∧
        ∀ i, ∀ c ∈ ((run 0).client i).issued,
          ((run n).client i).shared (.call c.number) ≠ none := by
  have hends : (TransitionSystem.run countedStep (.initial counting 0)
      (countOnce ++ thenAsk.dropLast)).map (fun s =>
        ((s.client true).issued, (s.client true).shared (.call 0),
          (TransitionSystem.run countedStep s lastSteps).map fun s' =>
            (onlyCounted s', decide (∀ i, Healthy .reference s' i),
              decide (Drained countedBytes s')))) =
      some ([⟨0, 1, "g", []⟩], none, some (true, true, true)) := rfl
  obtain ⟨s, hrun, hend⟩ := Option.map_eq_some_iff.mp hends
  simp only [Prod.mk.injEq] at hend
  obtain ⟨hissued, hwaits, hlast⟩ := hend
  obtain ⟨s', hrun', hend'⟩ := Option.map_eq_some_iff.mp hlast
  simp only [Prod.mk.injEq, decide_eq_true_eq] at hend'
  obtain ⟨honly, hhealthy, hdrained⟩ := hend'
  have hjobs : ∀ t, s'.server.jobs t = none := by
    intro t
    have hall : ((TransitionSystem.run countedStep (.initial counting 0)
        (countOnce ++ thenAsk.dropLast)).bind fun s =>
          (TransitionSystem.run countedStep s lastSteps).map fun s' =>
            s'.server.jobs t) = some none := by
      cases t <;> rfl
    rw [hrun, Option.bind_some, hrun'] at hall
    exact Option.some.inj hall
  have hreach : Reachable countedStep FewCalls (.initial counting 0) s := by
    have hfew : 0 + (countOnce ++ thenAsk.dropLast).length < UInt32.size := by
      decide
    exact reachable_of_run (fewCalls_of_length fun _ => hfew) hrun
  obtain ⟨run, hfirst, hlength, hschedule⟩ :=
    exists_schedule_along hrun' (by decide)
  obtain ⟨n, hstuck, hanswered⟩ := every_schedule_answers .reference
    countedBytes MsgPack.shortForms counting (hfirst ▸ hreach) hschedule
  have hends : run n = s' := by
    rw [← hlength]
    exact hschedule.ends_in_one (hlength ▸ hdrained.stuck hjobs) hstuck
  refine ⟨run, hschedule, hfirst ▸ hissued, hfirst ▸ hwaits, n, hstuck,
    fun i => hanswered (hends ▸ counted_legible honly) i ?_⟩
  rw [hends]
  exact hhealthy i

end Network
end System
end RpcLib
