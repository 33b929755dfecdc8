import RpcLib.System.Delivery

/-!
# The invariant of the network

`Sound` puts the invariants of the clients, of the server and of the
connections together; `Sound.step` is its step lemma, one case for each kind of
event.  The only assumptions on a run are that no client makes `2 ^ 32` calls
(`FewCalls`) and that msgpack reads what it has written (`Legible`).  Messages
in flight only become more, so that it is enough to ask the latter of the last
state of a run (`legible_of_step`).
-/

namespace RpcLib
namespace System
namespace Network

open Protocol Transport Foundation TransitionSystem Server

variable {ι ω V Buf : Type} [DecidableEq ι] (mp : MsgPack Buf)
  (bytes : Buf → List UInt8) (unpacker : Decoder Object UInt8)
  (disp : Dispatcher ω V)

/-- No client makes `2 ^ 32` calls. -/
def FewCalls (s : State ι ω V Buf) (e : Event ι) : Prop :=
  ∀ i funcName args, e = .client i (.draw funcName args) →
    (s.client i).issued.length + 1 < UInt32.size

/-- The client of each connection. -/
def State.clients (s : State ι ω V Buf) : List ι :=
  s.channels.map Channel.client

/-- The invariant of the network. -/
structure Sound (app : ω) (s : State ι ω V Buf) : Prop where
  serving : Serving mp unpacker disp app s.server
  sending : ∀ i, Client.Sending mp (s.client i)
  correlated : ∀ i, Client.Correlated mp (s.client i)
  /-- A client has one connection at most. -/
  oneEach : s.clients.Nodup
  created : s.server.created ≤ s.clients.length
  carried : ∀ k ch, s.channels[k]? = some ch →
    Carried bytes unpacker s.server (s.client ch.client) k ch
  /-- Without a connection nothing is read. -/
  silent : ∀ i, i ∉ s.clients → (s.client i).responses = []

/-! ## What the steps do to the connections -/

@[simp] theorem setClient_self (s : State ι ω V Buf) (i : ι)
    (c : Client.State Buf) : (s.setClient i c).client i = c :=
  Function.update_self _ _ _

theorem setClient_other (s : State ι ω V Buf) {i j : ι} (hother : j ≠ i)
    (c : Client.State Buf) : (s.setClient i c).client j = s.client j :=
  Function.update_of_ne hother _ _

theorem established_eq_false_iff {s : State ι ω V Buf} {i : ι} :
    s.established i = false ↔ i ∉ s.clients := by
  unfold State.established State.clients
  rw [List.any_eq_false, List.mem_map]
  push Not
  exact forall₂_congr fun ch _ => by simp

/-- A failed write changes nothing about the bytes of a connection. -/
theorem channelsAfter_get {s : State ι ω V Buf} {i : ι} {e : Client.Event}
    {k : SessionNumber} {ch' : Channel ι}
    (hch' : (s.channelsAfter i e)[k]? = some ch') :
    ∃ ch cut, s.channels[k]? = some ch ∧
      ch' = { ch with up := { ch.up with cut := cut } } := by
  unfold State.channelsAfter at hch'
  split at hch'
  · exact ⟨ch', ch'.up.cut, hch', rfl⟩
  · rw [List.getElem?_map] at hch'
    obtain ⟨ch, hch, rfl⟩ := Option.map_eq_some_iff.mp hch'
    by_cases hi : ch.client = i
    · exact ⟨ch, true, hch, if_pos hi⟩
    · exact ⟨ch, ch.up.cut, hch, if_neg hi⟩
  · exact ⟨ch', ch'.up.cut, hch', rfl⟩

theorem channelsAfter_clients (s : State ι ω V Buf) (i : ι)
    (e : Client.Event) :
    (s.channelsAfter i e).map Channel.client = s.clients := by
  unfold State.channelsAfter State.clients
  split
  · rfl
  · rw [List.map_map]
    refine List.map_congr_left fun ch _ => ?_
    show Channel.client (if _ then _ else _) = _
    split <;> rfl
  · rfl

omit [DecidableEq ι] in
theorem channelsBehind_get {s : State ι ω V Buf} {e : Server.Event}
    {k : SessionNumber} {ch' : Channel ι}
    (hch' : (s.channelsBehind e)[k]? = some ch') :
    ∃ ch cut, s.channels[k]? = some ch ∧
      ch' = { ch with down := { ch.down with cut := cut } } := by
  unfold State.channelsBehind at hch'
  split at hch'
  · exact ⟨ch', ch'.down.cut, hch', rfl⟩
  · rename_i j _ _ _
    rw [List.getElem?_modify] at hch'
    obtain ⟨ch, hch, rfl⟩ := Option.map_eq_some_iff.mp hch'
    by_cases hj : j = k
    · exact ⟨ch, true, hch, if_pos hj⟩
    · exact ⟨ch, ch.down.cut, hch, if_neg hj⟩
  · exact ⟨ch', ch'.down.cut, hch', rfl⟩

omit [DecidableEq ι] in
theorem channelsBehind_clients (s : State ι ω V Buf) (e : Server.Event) :
    (s.channelsBehind e).map Channel.client = s.clients := by
  unfold State.channelsBehind State.clients
  split
  · rfl
  · rename_i j _ _ _
    refine List.ext_getElem? fun k => ?_
    rw [List.getElem?_map, List.getElem?_map, List.getElem?_modify]
    cases s.channels[k]? with
    | none => rfl
    | some ch =>
        show some (Channel.client (if _ then _ else _)) = _
        split <;> rfl
  · rfl

omit [DecidableEq ι] in
/-- A change of one connection leaves the others alone. -/
theorem set_get {channels : List (Channel ι)} {k j : SessionNumber}
    {ch ch' : Channel ι} (hch' : (channels.set k ch)[j]? = some ch') :
    j = k ∧ ch' = ch ∨ j ≠ k ∧ channels[j]? = some ch' := by
  rw [List.getElem?_set] at hch'
  split at hch'
  · rename_i hkj
    split at hch'
    · exact Or.inl ⟨hkj.symm, (Option.some.inj hch').symm⟩
    · cases hch'
  · rename_i hkj
    exact Or.inr ⟨Ne.symm hkj, hch'⟩

omit [DecidableEq ι] in
theorem set_clients {channels : List (Channel ι)} {k : SessionNumber}
    {ch ch' : Channel ι} (hch : channels[k]? = some ch)
    (hsame : ch'.client = ch.client) :
    (channels.set k ch').map Channel.client =
      channels.map Channel.client := by
  obtain ⟨hk, rfl⟩ := List.getElem?_eq_some_iff.mp hch
  rw [List.map_set, hsame, ← List.getElem_map Channel.client]
  · exact List.set_getElem_self _
  · rwa [List.length_map]

omit [DecidableEq ι] in
/-- The network lets no read of a session succeed but by giving it bytes. -/
theorem chunkFor_of_admits {s : State ι ω V Buf} {e : Server.Event}
    (hadmits : s.serverAdmits bytes e = true) (k : SessionNumber) :
    e.chunkFor s.server k = [] := by
  unfold Server.Event.chunkFor
  split
  · cases hadmits
  · rfl

/-! ## The steps -/

variable {mp bytes unpacker disp}

omit [DecidableEq ι] in
theorem Sound.initial (app : ω) :
    Sound mp bytes unpacker disp app
      (.initial disp app : State ι ω V Buf) where
  serving := .initial mp unpacker disp app
  sending := fun _ => .initial mp
  correlated := fun _ => .initial mp
  oneEach := List.nodup_nil
  created := Nat.le_refl 0
  carried := fun _ _ hch => by simp [State.initial] at hch
  silent := fun _ _ => rfl

namespace Sound

variable {app : ω} {s : State ι ω V Buf}

/-- A new connection has carried nothing. -/
theorem establish (h : Sound mp bytes unpacker disp app s) {i : ι}
    (hfresh : s.established i = false) :
    Sound mp bytes unpacker disp app (s.establish i) := by
  have hnew := established_eq_false_iff.mp hfresh
  have hclients : (s.establish i).clients = s.clients ++ [i] := List.map_append
  refine { h with oneEach := ?_, created := ?_, carried := ?_, silent := ?_ }
  · rw [hclients, List.nodup_append]
    refine ⟨h.oneEach, List.nodup_singleton i, fun j hj j' hj' => ?_⟩
    obtain rfl := List.mem_singleton.mp hj'
    rintro rfl
    exact hnew hj
  · rw [hclients, List.length_append]
    exact Nat.le_trans h.created (Nat.le_add_right _ _)
  · intro k ch hch
    have hch' : (s.channels ++ [_])[k]? = some ch := hch
    rw [List.getElem?_append] at hch'
    split at hch'
    · exact h.carried k ch hch'
    · rename_i hk
      rw [List.getElem?_singleton, Option.ite_none_right_eq_some] at hch'
      obtain ⟨-, hnew'⟩ := hch'
      obtain rfl := Option.some.inj hnew'
      have hlate : s.server.created ≤ k := by
        have hcreated := h.created
        rw [State.clients, List.length_map] at hcreated
        exact Nat.le_trans hcreated (Nat.le_of_not_lt hk)
      refine ⟨.idle _, fun _ => ⟨rfl, rfl⟩, fun hk => ?_, fun hk => ?_,
        fun hk => ?_, [], List.nil_prefix, h.silent i hnew, .nil⟩
      all_goals exact absurd hk (Nat.not_lt.mpr hlate)
  · intro j hj
    rw [hclients, List.mem_append] at hj
    exact h.silent j fun hold => hj (Or.inl hold)

/-- What every client keeps when one of them goes on. -/
theorem everyClient {P : Client.State Buf → Prop} {i : ι}
    {c : Client.State Buf} (hothers : ∀ j, P (s.client j)) (hc : P c)
    (j : ι) : P ((s.setClient i c).client j) := by
  by_cases hj : j = i
  · subst hj
    rw [setClient_self]
    exact hc
  · rw [setClient_other s hj]
    exact hothers j

/-- Something happens at a client. -/
theorem client (h : Sound mp bytes unpacker disp app s) {i : ι}
    {e : Client.Event} {c : Client.State Buf}
    (hfew : FewCalls s (.client i e))
    (hadmits : s.clientAdmits bytes i e = true)
    (hstep : Client.step mp (s.client i) e = some c) :
    Sound mp bytes unpacker disp app
      { s.setClient i c with channels := s.channelsAfter i e } := by
  have hread : ∀ objs, e ≠ .readDone .success objs := by
    rintro objs rfl
    cases hadmits
  have hguard : Client.AnswersRequests mp (s.client i) e :=
    ⟨fun funcName args hdraw => hfew i funcName args (by rw [hdraw]),
      fun objs hdone => absurd hdone (hread objs)⟩
  have heffect := (Client.effect_of_step mp hstep).2
  have hresponses := Client.responses_of_effect mp heffect hread
  refine ⟨h.serving, everyClient h.sending ((h.sending i).step heffect),
    everyClient h.correlated ((h.correlated i).step hguard hstep),
    ?_, ?_, fun k ch' hch' => ?_, fun j hj => ?_⟩
  · show (List.map Channel.client _).Nodup
    rw [channelsAfter_clients]
    exact h.oneEach
  · show _ ≤ (List.map Channel.client _).length
    rw [channelsAfter_clients]
    exact h.created
  · obtain ⟨ch, cut, hch, rfl⟩ := channelsAfter_get hch'
    have hcarried := h.carried k ch hch
    show Carried bytes unpacker s.server ((s.setClient i c).client ch.client)
      k _
    by_cases hi : ch.client = i
    · subst hi
      rw [setClient_self]
      exact { hcarried.of_client (Client.grown_of_effect mp heffect)
        hresponses with }
    · rw [setClient_other s hi]
      exact { hcarried with }
  · have hsilent := h.silent j (channelsAfter_clients s i e ▸ hj)
    show ((s.setClient i c).client j).responses = []
    by_cases hi : j = i
    · subst hi
      rw [setClient_self, hresponses]
      exact hsilent
    · rw [setClient_other s hi]
      exact hsilent

omit [DecidableEq ι] in
/-- Something happens at the server. -/
theorem server (h : Sound mp bytes unpacker disp app s) {e : Server.Event}
    {server : Server.State ω V Buf}
    (hadmits : s.serverAdmits bytes e = true)
    (hstep : Server.step mp unpacker disp s.server e = some server) :
    Sound mp bytes unpacker disp app
      { s with server := server, channels := s.channelsBehind e } := by
  refine ⟨h.serving.step mp unpacker disp hstep, h.sending, h.correlated,
    ?_, ?_, fun k ch' hch' => ?_, ?_⟩
  · show (List.map Channel.client _).Nodup
    rw [channelsBehind_clients]
    exact h.oneEach
  · show _ ≤ (List.map Channel.client _).length
    rw [channelsBehind_clients]
    rcases created_of_step mp unpacker disp hstep with
      hsame | ⟨t, address, rfl, rfl⟩
    · exact hsame.symm ▸ h.created
    · -- the acceptor has found a connection
      have hroom : s.server.created < s.channels.length := by
        simpa [State.serverAdmits] using hadmits
      rw [State.clients, List.length_map]
      exact hroom
  · obtain ⟨ch, cut, hch, rfl⟩ := channelsBehind_get hch'
    have hcarried := (h.carried k ch hch).of_server hstep
      (chunkFor_of_admits bytes hadmits k)
    exact { hcarried with }
  · intro j hj
    exact h.silent j (channelsBehind_clients s e ▸ hj)

omit [DecidableEq ι] in
/-- The connections change in one place. -/
theorem setChannel (h : Sound mp bytes unpacker disp app s)
    {k : SessionNumber} {ch ch' : Channel ι} (hch : s.channels[k]? = some ch)
    (hsame : ch'.client = ch.client)
    (hcarried : Carried bytes unpacker s.server (s.client ch.client) k ch') :
    Sound mp bytes unpacker disp app (s.setChannel k ch') := by
  have hclients : (s.setChannel k ch').clients = s.clients :=
    set_clients hch hsame
  refine ⟨h.serving, h.sending, h.correlated, hclients.symm ▸ h.oneEach,
    hclients.symm ▸ h.created, fun j ch'' hch'' => ?_,
    fun j hj => h.silent j (hclients ▸ hj)⟩
  rcases set_get hch'' with ⟨rfl, rfl⟩ | ⟨-, hother⟩
  · rw [hsame]
    exact hcarried
  · exact h.carried j ch'' hother

omit [DecidableEq ι] in
/-- A session reads. -/
theorem readUp (h : Sound mp bytes unpacker disp app s) {t : ThreadId}
    {k : SessionNumber} {n : Nat} {ch : Channel ι}
    {server : Server.State ω V Buf} (hch : s.channels[k]? = some ch)
    (hstep : Server.step mp unpacker disp s.server
      (.readDone t k .success (ch.up.wire.take n)) = some server) :
    Sound mp bytes unpacker disp app
      (({ s with server := server } : State ι ω V Buf).setChannel k
        { ch with up := ch.up.deliver n }) := by
  have hclients : (({ s with server := server } : State ι ω V Buf).setChannel
      k { ch with up := ch.up.deliver n }).clients = s.clients :=
    set_clients hch rfl
  have hcreated : server.created = s.server.created := by
    rcases created_of_step mp unpacker disp hstep with
      hsame | ⟨_, _, haccept, -⟩
    · exact hsame
    · cases haccept
  refine ⟨h.serving.step mp unpacker disp hstep, h.sending, h.correlated,
    hclients.symm ▸ h.oneEach, ?_, fun j ch' hch' => ?_,
    fun j hj => h.silent j (hclients ▸ hj)⟩
  · rw [hclients]
    exact hcreated.symm ▸ h.created
  · rcases set_get hch' with ⟨rfl, rfl⟩ | ⟨hother, hold⟩
    · exact (h.carried j ch hch).readUp hstep
    · exact (h.carried j ch' hold).of_server hstep
        (chunkFor_of_other s.server hother t _ _)

/-- A client reads. -/
theorem readDown (h : Sound mp bytes unpacker disp app s)
    (hlegible : Legible mp bytes unpacker s) {k : SessionNumber} {n : Nat}
    {ch : Channel ι} {c : Client.State Buf} (hch : s.channels[k]? = some ch)
    (hpos : 0 < n) (hn : n ≤ ch.down.wire.length)
    (hstep : Client.step mp (s.client ch.client) (.readDone .success
      (unpacker.drain (ch.unparsed ++ ch.down.wire.take n)).items) =
        some c) :
    Sound mp bytes unpacker disp app
      ((s.setClient ch.client c).setChannel k
        { ch with
          down := ch.down.deliver n
          unparsed :=
            (unpacker.drain (ch.unparsed ++ ch.down.wire.take n)).rest }) := by
  obtain ⟨hcorrelated, hcarried⟩ := (h.carried k ch hch).readDown h.serving
    (h.sending ch.client) hlegible.movedFrom (hlegible.requests ch.client)
    (h.correlated ch.client) (hlegible.replies k) hpos hn hstep
  have heffect := (Client.effect_of_step mp hstep).2
  have hclients : ((s.setClient ch.client c).setChannel k
      { ch with
        down := ch.down.deliver n
        unparsed := (unpacker.drain
          (ch.unparsed ++ ch.down.wire.take n)).rest }).clients =
        s.clients := set_clients hch rfl
  refine ⟨h.serving,
    everyClient h.sending ((h.sending ch.client).step heffect),
    everyClient h.correlated hcorrelated, hclients.symm ▸ h.oneEach,
    hclients.symm ▸ h.created, fun j ch' hch' => ?_, fun j hj => ?_⟩
  · rcases set_get hch' with ⟨rfl, rfl⟩ | ⟨hother, hold⟩
    · show Carried bytes unpacker s.server
        ((s.setClient ch.client c).client ch.client) j _
      rw [setClient_self]
      exact hcarried
    · -- another connection is that of another client
      have hne : ch'.client ≠ ch.client := by
        intro hsame
        have hj : j < s.clients.length := by
          rw [State.clients, List.length_map]
          exact (List.getElem?_eq_some_iff.mp hold).1
        refine hother ((List.getElem?_inj hj h.oneEach).mp ?_)
        have hold' : s.channels[j]? = some ch' := hold
        rw [State.clients, List.getElem?_map, List.getElem?_map, hch, hold']
        exact congrArg some hsame
      show Carried bytes unpacker s.server
        ((s.setClient ch.client c).client ch'.client) j _
      rw [setClient_other s hne]
      exact h.carried j ch' hold
  · rw [hclients] at hj
    have hne : j ≠ ch.client := by
      rintro rfl
      exact hj (List.mem_map_of_mem (List.mem_of_getElem? hch))
    show ((s.setClient ch.client c).client j).responses = []
    rw [setClient_other s hne]
    exact h.silent j hj

/-- Every step keeps the invariant. -/
theorem step {s' : State ι ω V Buf} {e : Event ι}
    (h : Sound mp bytes unpacker disp app s)
    (hlegible : Legible mp bytes unpacker s) (hfew : FewCalls s e)
    (hstep : Network.step mp bytes unpacker disp s e = some s') :
    Sound mp bytes unpacker disp app s' := by
  cases effect_of_step mp bytes unpacker disp hstep with
  | establish hlive hconnecting hfresh => exact h.establish hfresh
  | client hadmits hclient => exact h.client hfew hadmits hclient
  | server hadmits hserver => exact h.server hadmits hserver
  | @takeUp k n ch hch hopen hpos hn =>
      have hcarried := h.carried k ch hch
      exact h.setChannel hch rfl { hcarried with up := hcarried.up.take n }
  | @takeDown k n ch hch hk hopen hpos hn =>
      have hcarried := h.carried k ch hch
      refine h.setChannel hch rfl { hcarried with
        before := fun hk' => absurd hk (Nat.not_lt.mpr hk')
        down := fun hk => (hcarried.down hk).take n }
  | readUp hch hpos hn hserver => exact h.readUp hch hserver
  | readDown hch hpos hn hok hclient =>
      exact h.readDown hlegible hch hpos hn hclient

end Sound

/-! ## The run -/

/-- What was posted by the clients and started by the sessions stays so. -/
structure Grown (s s' : State ι ω V Buf) : Prop where
  client : ∀ i, Client.Grown (s.client i) (s'.client i)
  created : s.server.created ≤ s'.server.created
  started : ∀ k < s.server.created,
    (s.server.connection k).writer.started <+:
      (s'.server.connection k).writer.started

omit [DecidableEq ι] in
theorem Grown.of_server {s s' : State ι ω V Buf} {e : Server.Event}
    (hclient : s'.client = s.client)
    (hstep : Server.step mp unpacker disp s.server e = some s'.server) :
    Grown s s' where
  client i := by
    rw [hclient]
    exact .refl _
  created := created_le_of_step mp unpacker disp hstep
  started _ hk := (touched_of_step mp unpacker disp hstep hk).2.1.started mp

theorem Grown.of_client {s s' : State ι ω V Buf} {i : ι} {e : Client.Event}
    {c : Client.State Buf} (hstep : Client.step mp (s.client i) e = some c)
    (hclient : s'.client = (s.setClient i c).client)
    (hserver : s'.server = s.server) : Grown s s' where
  client j := by
    rw [hclient]
    by_cases hj : j = i
    · subst hj
      rw [setClient_self]
      exact Client.grown_of_effect mp (Client.effect_of_step mp hstep).2
    · rw [setClient_other s hj]
      exact .refl _
  created := Nat.le_of_eq (congrArg Server.State.created hserver.symm)
  started k _ := by
    rw [hserver]

omit [DecidableEq ι] in
theorem Grown.of_links {s s' : State ι ω V Buf}
    (hclient : s'.client = s.client) (hserver : s'.server = s.server) :
    Grown s s' where
  client i := by
    rw [hclient]
    exact .refl _
  created := Nat.le_of_eq (congrArg Server.State.created hserver.symm)
  started k _ := by
    rw [hserver]

theorem grown_of_step {s s' : State ι ω V Buf} {e : Event ι}
    (hstep : step mp bytes unpacker disp s e = some s') : Grown s s' := by
  cases effect_of_step mp bytes unpacker disp hstep with
  | establish => exact .of_links rfl rfl
  | client hadmits hclient => exact .of_client hclient rfl rfl
  | server hadmits hserver => exact .of_server rfl hserver
  | takeUp => exact .of_links rfl rfl
  | takeDown => exact .of_links rfl rfl
  | readUp hch hpos hn hserver => exact .of_server rfl hserver
  | readDown hch hpos hn hok hclient => exact .of_client hclient rfl rfl

/-- What is readable at the end was readable before. -/
theorem legible_of_step {s s' : State ι ω V Buf} {e : Event ι}
    (hlegible : Legible mp bytes unpacker s')
    (hstep : step mp bytes unpacker disp s e = some s') :
    Legible mp bytes unpacker s := by
  have hgrown := grown_of_step hstep
  refine ⟨hlegible.movedFrom, fun i buffer hbuffer => ?_,
    fun k hk buffer hbuffer => ?_⟩
  · exact hlegible.requests i buffer
      ((hgrown.client i).posted.subset hbuffer)
  · exact hlegible.replies k (Nat.lt_of_lt_of_le hk hgrown.created) buffer
      ((hgrown.started k hk).subset hbuffer)

theorem legible_of_reachable {guard : State ι ω V Buf → Event ι → Prop}
    {s s' : State ι ω V Buf}
    (hreach : Reachable (step mp bytes unpacker disp) guard s s')
    (hlegible : Legible mp bytes unpacker s') :
    Legible mp bytes unpacker s :=
  hreach.relate
    (R := fun s s' => Legible mp bytes unpacker s' →
      Legible mp bytes unpacker s)
    (fun _ h => h) (fun _ _ _ h h' hlast => h (h' hlast))
    (fun _ _ _ _ hstep hlast => legible_of_step hlast hstep) hlegible

/-- The invariant holds in every reachable state whose messages are readable. -/
theorem sound_of_reachable {app : ω} {s : State ι ω V Buf}
    (hreach : Reachable (step mp bytes unpacker disp) FewCalls
      (.initial disp app) s) (hlegible : Legible mp bytes unpacker s) :
    Sound mp bytes unpacker disp app s := by
  refine hreach.invariant
    (I := fun s => Legible mp bytes unpacker s →
      Sound mp bytes unpacker disp app s)
    (fun _ => .initial app) (fun s e s' h hfew hstep hlater => ?_) hlegible
  have hbefore := legible_of_step hlater hstep
  exact (h hbefore).step hbefore hfew hstep

/-- A run of fewer than `2 ^ 32` steps makes fewer calls. -/
theorem fewCalls_of_length {s : State ι ω V Buf} {es : List (Event ι)}
    (hshort : ∀ i, (s.client i).issued.length + es.length < UInt32.size) :
    EachStep (step mp bytes unpacker disp) FewCalls s es := by
  induction es generalizing s with
  | nil => trivial
  | cons e es ih =>
      intro s' hstep
      refine ⟨fun i funcName args _ => ?_, ih fun i => ?_⟩
      · have hi := hshort i
        rw [List.length_cons] at hi
        omega
      · have hi := hshort i
        have hsingle := ((grown_of_step hstep).client i).single
        rw [List.length_cons] at hi
        omega

end Network
end System
end RpcLib
