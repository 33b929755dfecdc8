import RpcLib.System.Calling

/-!
# The threads in `call`

* `net_of_reachable`: below the threads in `call` runs the network.
* `Later`: what a run only adds to.
* `InCall`, `Threads`: what holds of every thread in `call`, wherever it is.
* `Turn`, `caller_of_effect`: what a step does to one of them.
-/

namespace RpcLib
namespace System
namespace Calling

open Protocol Transport Foundation TransitionSystem Server Network

variable {ι ω V Buf : Type} [DecidableEq ι] {mp : MsgPack Buf}
  {bytes : Buf → List UInt8} {unpacker : Decoder Object UInt8}
  {disp : Dispatcher ω V}

/-! ## The clients of a network -/

/-- A step of the network leaves a client alone or is a step of it, and the
network posts a call only when told to. -/
theorem client_of_step {s s' : Network.State ι ω V Buf} {e : Network.Event ι}
    (hstep : Network.step mp bytes unpacker disp s e = some s') (i : ι) :
    s'.client i = s.client i ∨
      ∃ e', Client.step mp (s.client i) e' = some (s'.client i) ∧
        ∀ k, e' = .post k → e = .client i (.post k) := by
  have hset : ∀ {j : ι} {e' : Client.Event} {c : Client.State Buf},
      Client.step mp (s.client j) e' = some c →
      (∀ k, e' = .post k → e = .client j (.post k)) →
      (s.setClient j c).client i = s.client i ∨
        ∃ e', Client.step mp (s.client i) e' =
            some ((s.setClient j c).client i) ∧
          ∀ k, e' = .post k → e = .client i (.post k) := by
    intro j e' c hclient hpost
    by_cases hi : i = j
    · subst hi
      rw [setClient_self]
      exact Or.inr ⟨e', hclient, hpost⟩
    · exact Or.inl (setClient_other s hi c)
  cases Network.effect_of_step mp bytes unpacker disp hstep with
  | client hadmits hclient => exact hset hclient (by rintro k rfl; rfl)
  | readDown hch hpos hn hok hclient =>
      exact hset hclient (fun k hk => nomatch hk)
  | _ => exact Or.inl rfl

/-- A call that was drawn stays so until it is posted. -/
theorem drawn_of_step {s s' : Client.State Buf} {e : Client.Event}
    (hstep : Client.step mp s e = some s') {call : Client.Call}
    (hcall : call ∈ s.drawn) :
    call ∈ s'.drawn ∨ ∃ k, e = .post k ∧ s.drawn[k]? = some call := by
  cases (Client.effect_of_step mp hstep).2 with
  | draw => exact Or.inl (List.mem_append_left _ hcall)
  | @post k c hdrawn =>
      by_cases hsame : call = c
      · subst hsame
        exact Or.inr ⟨k, rfl, hdrawn⟩
      · refine Or.inl ?_
        obtain ⟨m, hm, rfl⟩ := List.mem_iff_getElem.mp hcall
        obtain ⟨hk, rfl⟩ := List.getElem?_eq_some_iff.mp hdrawn
        refine List.mem_eraseIdx_iff_getElem.mpr ⟨m, hm, ?_, rfl⟩
        rintro rfl
        exact hsame rfl
  | @insertCall c rest hstrand =>
      rw [(Client.entered_insertCall mp { s with strand := rest } c).drawn]
      exact Or.inl hcall
  | readDone ec objs hreading =>
      rw [(Client.ReadFrame.readDone mp s objs ec).drawn]
      exact Or.inl hcall
  | _ => exact Or.inl hcall

/-! ## Below the threads -/

/-- No client makes `2 ^ 32` calls. -/
def Few (s : State ι ω V Buf) : Event ι → Prop
  | .net e => FewCalls s.net e
  | .call i funcName args =>
      FewCalls s.net (.client i (.draw funcName args))
  | _ => True

/-- What a step does to the network is a step of the network. -/
theorem net_of_effect {s s' : State ι ω V Buf} {e : Event ι}
    (heffect : Effect mp bytes unpacker disp s e s') :
    s'.net = s.net ∨
      ∃ e', Network.step mp bytes unpacker disp s.net e' = some s'.net ∧
        (Few s e → FewCalls s.net e') := by
  cases heffect with
  | net hadmits hstep => exact Or.inr ⟨_, hstep, id⟩
  | call hstep => exact Or.inr ⟨_, hstep, id⟩
  | post hc hstage hdrawn hnumber hstep =>
      exact Or.inr ⟨_, hstep, fun _ _ _ _ hdraw => nomatch hdraw⟩
  | _ => exact Or.inl rfl

/-- Below the threads in `call` runs the network. -/
theorem net_of_reachable {guard : State ι ω V Buf → Event ι → Prop}
    (hfew : ∀ s e, guard s e → Few s e) {first s : State ι ω V Buf}
    (hreach : Reachable (step mp bytes unpacker disp) guard first s) :
    Reachable (Network.step mp bytes unpacker disp) FewCalls first.net
      s.net := by
  induction hreach with
  | start => exact .start
  | next _ hguard hstep ih =>
      rcases net_of_effect (effect_of_step mp bytes unpacker disp hstep) with
        hsame | ⟨e', hnet, hcalls⟩
      · rw [hsame]
        exact ih
      · exact ih.next (hcalls (hfew _ _ hguard)) hnet

/-- So the network of a short run makes few calls. -/
theorem few_of_length {s : State ι ω V Buf} {es : List (Event ι)}
    (hshort : ∀ i, (s.net.client i).issued.length + es.length < UInt32.size) :
    EachStep (step mp bytes unpacker disp) Few s es := by
  induction es generalizing s with
  | nil => trivial
  | cons e es ih =>
      intro s' hstep
      have hroom : ∀ i, (s.net.client i).issued.length + (es.length + 1) <
          UInt32.size := hshort
      have hcalls : ∀ e', FewCalls s.net e' := fun e' i funcName args _ => by
        have hi := hroom i
        omega
      refine ⟨?_, ih fun i => ?_⟩
      · cases e with
        | net | call => exact hcalls _
        | _ => trivial
      · have hi := hroom i
        rcases net_of_effect (effect_of_step mp bytes unpacker disp hstep) with
          hsame | ⟨e', hnet, -⟩
        · rw [hsame]
          omega
        · have hsingle := ((grown_of_step hnet).client i).single
          omega

/-! ## What only grows -/

/-- What a run only adds to. -/
structure Later (s s' : State ι ω V Buf) : Prop where
  shared : ∀ i, WriteOnce.Extends (s.net.client i).shared
    (s'.net.client i).shared
  issued : ∀ i, (s.net.client i).issued <+: (s'.net.client i).issued
  clock : s.clock ≤ s'.clock

namespace Later

omit [DecidableEq ι] in
theorem refl (s : State ι ω V Buf) : Later s s :=
  ⟨fun _ => .refl _, fun _ => List.prefix_rfl, le_refl _⟩

omit [DecidableEq ι] in
theorem trans {s s' s'' : State ι ω V Buf} (h : Later s s')
    (h' : Later s' s'') : Later s s'' :=
  ⟨fun i => (h.shared i).trans (h'.shared i),
    fun i => (h.issued i).trans (h'.issued i), h.clock.trans h'.clock⟩

theorem of_effect {s s' : State ι ω V Buf} {e : Event ι}
    (heffect : Effect mp bytes unpacker disp s e s') : Later s s' := by
  have hclock : s.clock ≤ s'.clock := by
    cases heffect with
    | tick elapsed => exact Int.le_add_of_nonneg_right (by omega)
    | _ => exact le_refl _
  rcases net_of_effect heffect with hsame | ⟨e', hnet, -⟩
  · refine ⟨fun i => ?_, fun i => ?_, hclock⟩
    · rw [hsame]
      exact .refl _
    · rw [hsame]
  · refine ⟨fun i => ?_, fun i => ((grown_of_step hnet).client i).issued, hclock⟩
    rcases client_of_step hnet i with hclient | ⟨e'', hclient, -⟩
    · rw [hclient]
      exact .refl _
    · exact Client.extends_of_effect mp (Client.effect_of_step mp hclient).2

theorem of_reachable {guard : State ι ω V Buf → Event ι → Prop}
    {s s' : State ι ω V Buf}
    (hreach : Reachable (step mp bytes unpacker disp) guard s s') :
    Later s s' :=
  hreach.relate refl (fun _ _ _ => trans) fun _ _ _ _ hstep =>
    of_effect (effect_of_step mp bytes unpacker disp hstep)

end Later

/-! ## The threads in `call` -/

/-- By `time` the thread has waited as long as it was told to, if such a wait has
a deadline. -/
def State.Waited (s : State ι ω V Buf) (c : Caller ι) (time : Int) : Prop :=
  ∃ val, c.timeoutVal = some val ∧
    (HasDeadline s.clock val → c.began + nanoseconds val ≤ time)

/-- It has done so by now. -/
def State.Late (s : State ι ω V Buf) (c : Caller ι) : Prop :=
  s.Waited c s.clock

omit [DecidableEq ι] in
theorem State.Waited.later {s s' : State ι ω V Buf} {c : Caller ι}
    {time time' : Int} (h : s.Waited c time) (hclock : s.clock ≤ s'.clock)
    (htime : time ≤ time') : s'.Waited c time' := by
  obtain ⟨val, hval, hwaited⟩ := h
  exact ⟨val, hval, fun hfits => (hwaited (hfits.of_le hclock)).trans htime⟩

/-- What holds of a thread at a stage of `call`. -/
def State.Fits (s : State ι ω V Buf) (c : Caller ι) : Stage → Prop
  | .posting => ∃ call ∈ (s.net.client c.client).drawn,
      call.number = c.number
  | .reading => True
  | .waiting deadline => s.Waited c deadline
  | .throwing => s.Late c
  | .getting => c.timeoutVal ≠ none → s.promise c ≠ none
  | .ended (.got outcome) => s.promise c = some outcome
  | .ended (.timeout _) => s.Late c
  | .ended .badOptionalAccess => s.Late c

/-- What holds of a thread in `call`. -/
structure InCall (s : State ι ω V Buf) (c : Caller ι) : Prop where
  fits : s.Fits c c.stage
  began : c.began ≤ s.clock
  issued : ∃ idx args, (⟨c.number, idx, c.funcName, args⟩ : Client.Call) ∈
    (s.net.client c.client).issued
  numbered : c.number < (s.net.client c.client).issued.length

omit [DecidableEq ι] in
/-- It goes on holding, as long as the thread has not to post its call or the
call is there. -/
theorem InCall.later {s s' : State ι ω V Buf} {c : Caller ι}
    (h : InCall s c) (hlater : Later s s')
    (hdrawn : c.stage = .posting → s'.Fits c .posting) : InCall s' c where
  fits := by
    have hpromise : ∀ outcome, s.promise c = some outcome →
        s'.promise c = some outcome :=
      hlater.shared c.client (.call c.number)
    have hlate : s.Late c → s'.Late c := fun hlate =>
      hlate.later hlater.clock hlater.clock
    have hfits := h.fits
    generalize c.stage = stage at hfits hdrawn ⊢
    cases stage with
    | posting => exact hdrawn rfl
    | reading => trivial
    | waiting deadline =>
        exact State.Waited.later hfits hlater.clock (le_refl deadline)
    | throwing => exact hlate hfits
    | getting =>
        intro hval
        obtain ⟨outcome, hready⟩ := Option.ne_none_iff_exists'.mp (hfits hval)
        exact Option.ne_none_iff_exists'.mpr ⟨outcome, hpromise _ hready⟩
    | ended result =>
        cases result with
        | got outcome => exact hpromise _ hfits
        | timeout what => exact hlate hfits
        | badOptionalAccess => exact hlate hfits
  began := h.began.trans hlater.clock
  issued := by
    obtain ⟨idx, args, hmem⟩ := h.issued
    exact ⟨idx, args, (hlater.issued c.client).subset hmem⟩
  numbered := Nat.lt_of_lt_of_le h.numbered
    (hlater.issued c.client).length_le

omit [DecidableEq ι] in
/-- A thread that goes on behind `async_call`. -/
theorem InCall.move {s : State ι ω V Buf} {c c' : Caller ι}
    (h : InCall s c) (hmove : Move s c c') : InCall s c' := by
  have hfits := h.fits
  cases hmove with
  | @limited val hstage hval hdeadline =>
      exact ⟨⟨val, rfl, fun _ => Int.add_le_add_right h.began _⟩, h.began,
        h.issued, h.numbered⟩
  | @overflowed val hstage hval hlarge deadline =>
      exact ⟨⟨val, rfl, fun hfits => absurd hfits hlarge⟩, h.began, h.issued,
        h.numbered⟩
  | unlimited hstage hnone =>
      exact ⟨fun hval => absurd rfl hval, h.began, h.issued, h.numbered⟩
  | answered hstage hready =>
      refine ⟨fun _ => ?_, h.began, h.issued, h.numbered⟩
      exact Option.ne_none_iff_exists'.mpr ⟨_, hready⟩
  | expired hstage hclock hempty =>
      rw [hstage] at hfits
      exact ⟨State.Waited.later hfits (le_refl _) hclock, h.began, h.issued,
        h.numbered⟩
  | threw hstage =>
      rw [hstage] at hfits
      have hlate : s.Late c := hfits
      refine ⟨?_, h.began, h.issued, h.numbered⟩
      show s.Fits _ (.ended (throwTimeout (s.timeoutVal c.client) c.funcName))
      unfold throwTimeout
      split
      · exact hlate
      · exact hlate
  | got hstage hready => exact ⟨hready, h.began, h.issued, h.numbered⟩

/-- What holds of all threads in `call`; no two of them wait for one call. -/
structure Threads (s : State ι ω V Buf) : Prop where
  inCall : ∀ (j : Nat) c, s.callers[j]? = some c → InCall s c
  distinct : ∀ (j j' : Nat) c c', s.callers[j]? = some c →
    s.callers[j']? = some c' → c.client = c'.client → c.number = c'.number →
    j = j'

namespace Threads

omit [DecidableEq ι] in
theorem initial (app : ω) :
    Threads (.initial disp app : State ι ω V Buf) :=
  ⟨fun _ _ hc => (nomatch hc), fun _ _ _ _ hc => (nomatch hc)⟩

/-- The call of a thread that is about to post it stays drawn while others post
theirs. -/
theorem posting_of_step {s : State ι ω V Buf} {net : Network.State ι ω V Buf}
    {e : Network.Event ι}
    (hstep : Network.step mp bytes unpacker disp s.net e = some net)
    {c : Caller ι}
    (hother : ∀ k call, e = .client c.client (.post k) →
      (s.net.client c.client).drawn[k]? = some call → call.number ≠ c.number)
    (h : s.Fits c .posting) : ∃ call ∈ (net.client c.client).drawn,
      call.number = c.number := by
  obtain ⟨call, hcall, hnumber⟩ := h
  rcases client_of_step hstep c.client with hsame | ⟨e', hclient, hpost⟩
  · exact ⟨call, hsame ▸ hcall, hnumber⟩
  · rcases drawn_of_step hclient hcall with hstays | ⟨k, hk, hdrawn⟩
    · exact ⟨call, hstays, hnumber⟩
    · exact absurd hnumber (hother k call (hpost k hk) hdrawn)

omit [DecidableEq ι] in
/-- One thread goes on. -/
theorem set {s s' : State ι ω V Buf} (h : Threads s) {j : Nat}
    {c c' : Caller ι} (hc : s.callers[j]? = some c)
    (hcallers : s'.callers = s.callers.set j c')
    (hclient : c'.client = c.client) (hnumber : c'.number = c.number)
    (hthis : InCall s' c')
    (hothers : ∀ j' ≠ j, ∀ c'', s.callers[j']? = some c'' → InCall s' c'') :
    Threads s' := by
  obtain ⟨hj, -⟩ := List.getElem?_eq_some_iff.mp hc
  have hplace : ∀ {j' : Nat} {c'' : Caller ι}, s'.callers[j']? = some c'' →
      j' = j ∧ c'' = c' ∨ j' ≠ j ∧ s.callers[j']? = some c'' := by
    intro j' c'' hc''
    rw [hcallers, List.getElem?_set] at hc''
    by_cases hsame : j = j'
    · rw [if_pos hsame, if_pos hj] at hc''
      exact Or.inl ⟨hsame.symm, (Option.some.inj hc'').symm⟩
    · rw [if_neg hsame] at hc''
      exact Or.inr ⟨Ne.symm hsame, hc''⟩
  refine ⟨fun j' c'' hc'' => ?_, fun j₁ j₂ c₁ c₂ h₁ h₂ hclients hnumbers => ?_⟩
  · rcases hplace hc'' with ⟨-, rfl⟩ | ⟨hne, hold⟩
    · exact hthis
    · exact hothers j' hne c'' hold
  · -- the thread waits for the call that it has waited for before
    rcases hplace h₁ with ⟨rfl, rfl⟩ | ⟨hne₁, hold₁⟩ <;>
      rcases hplace h₂ with ⟨rfl, rfl⟩ | ⟨hne₂, hold₂⟩
    · rfl
    · exact h.distinct _ _ _ _ hc hold₂ (hclient.symm.trans hclients)
        (hnumber.symm.trans hnumbers)
    · exact h.distinct _ _ _ _ hold₁ hc (hclients.trans hclient)
        (hnumbers.trans hnumber)
    · exact h.distinct _ _ _ _ hold₁ hold₂ hclients hnumbers

omit [DecidableEq ι] in
/-- A thread enters `call`. -/
theorem add {s s' : State ι ω V Buf} (h : Threads s) {c' : Caller ι}
    (hcallers : s'.callers = s.callers ++ [c']) (hthis : InCall s' c')
    (hothers : ∀ (j : Nat) c, s.callers[j]? = some c → InCall s' c)
    (hnew : ∀ (j : Nat) c, s.callers[j]? = some c → c.client = c'.client →
      c.number ≠ c'.number) : Threads s' := by
  have hplace : ∀ {j : Nat} {c : Caller ι}, s'.callers[j]? = some c →
      j = s.callers.length ∧ c = c' ∨ s.callers[j]? = some c := by
    intro j c hc
    rw [hcallers, List.getElem?_append] at hc
    split at hc
    · exact Or.inr hc
    · obtain ⟨hlast, hsame⟩ := List.getElem?_eq_some_iff.mp hc
      rw [List.length_singleton] at hlast
      exact Or.inl ⟨by omega, by simpa using hsame.symm⟩
  refine ⟨fun j c hc => ?_, fun j₁ j₂ c₁ c₂ h₁ h₂ hclients hnumbers => ?_⟩
  · rcases hplace hc with ⟨-, rfl⟩ | hold
    · exact hthis
    · exact hothers j c hold
  · rcases hplace h₁ with ⟨rfl, rfl⟩ | hold₁ <;>
      rcases hplace h₂ with ⟨rfl, rfl⟩ | hold₂
    · rfl
    · exact absurd hnumbers.symm (hnew _ _ hold₂ hclients.symm)
    · exact absurd hnumbers (hnew _ _ hold₁ hclients)
    · exact h.distinct _ _ _ _ hold₁ hold₂ hclients hnumbers

/-- What a call adds to its client. -/
theorem drawn_of_draw {s net : Network.State ι ω V Buf} {i : ι}
    {funcName : String} {args : List Object}
    (hstep : Network.step mp bytes unpacker disp s
      (.client i (.draw funcName args)) = some net) :
    (net.client i).drawn = (s.client i).drawn ++
        [⟨(s.client i).issued.length, (s.client i).callIdx + 1, funcName,
          args⟩] ∧
      (net.client i).issued = (s.client i).issued ++
        [⟨(s.client i).issued.length, (s.client i).callIdx + 1, funcName,
          args⟩] := by
  cases Network.effect_of_step mp bytes unpacker disp hstep with
  | client hadmits hclient =>
      cases (Client.effect_of_step mp hclient).2
      simp [Client.State.drawCall]

theorem step {s s' : State ι ω V Buf} {e : Event ι} (h : Threads s)
    (heffect : Effect mp bytes unpacker disp s e s') : Threads s' := by
  have hlater := Later.of_effect heffect
  have hfits : ∀ {j : Nat} {c : Caller ι}, s.callers[j]? = some c →
      c.stage = .posting → s.Fits c .posting := by
    intro j c hc hstage
    have hfits := (h.inCall j c hc).fits
    rwa [hstage] at hfits
  cases heffect with
  | @net e net hadmits hstep =>
      refine ⟨fun j c hc => (h.inCall j c hc).later hlater fun hstage => ?_,
        h.distinct⟩
      refine posting_of_step hstep (fun k call he hdrawn hnumber => ?_)
        (hfits hc hstage)
      -- the network posts the calls of other threads only
      subst he
      simp only [State.admits, hdrawn] at hadmits
      have hforeign := List.all_eq_true.mp hadmits c (List.mem_of_getElem? hc)
      simp [State.isPosting, hstage, hnumber] at hforeign
  | @call i funcName args net hstep =>
      obtain ⟨hdrawn, hissued⟩ := drawn_of_draw hstep
      refine h.add rfl ⟨?_, le_refl _, ?_, ?_⟩ (fun j c hc => ?_)
        fun j c hc hclient hnumber => ?_
      · exact ⟨_, hdrawn ▸ List.mem_append_right _ (List.mem_singleton_self _),
          rfl⟩
      · exact ⟨_, args,
          hissued ▸ List.mem_append_right _ (List.mem_singleton_self _)⟩
      · simp [hissued]
      · exact (h.inCall j c hc).later hlater fun hstage =>
          posting_of_step hstep (fun k call he => by cases he) (hfits hc hstage)
      · -- the number of a new call is that of no other
        subst hclient
        exact absurd hnumber (Nat.ne_of_lt (h.inCall j c hc).numbered)
  | @post j k c call net hc hstage hdrawn hnumber hstep =>
      refine h.set hc rfl rfl rfl
        ⟨trivial, (h.inCall j c hc).began, ?_, ?_⟩ fun j' hne c' hc' => ?_
      · obtain ⟨idx, args, hmem⟩ := (h.inCall j c hc).issued
        exact ⟨idx, args, (hlater.issued c.client).subset hmem⟩
      · exact Nat.lt_of_lt_of_le (h.inCall j c hc).numbered
          (hlater.issued c.client).length_le
      · refine (h.inCall j' c' hc').later hlater fun hstage' => ?_
        refine posting_of_step hstep (fun k' call' he hdrawn' hnumber' => ?_)
          (hfits hc' hstage')
        obtain ⟨hclient, hk⟩ : c.client = c'.client ∧ k = k' := by
          simpa using he
        subst hk
        rw [← hclient, hdrawn] at hdrawn'
        obtain rfl := Option.some.inj hdrawn'
        exact hne (h.distinct _ _ _ _ hc' hc hclient.symm
          (hnumber'.symm.trans hnumber))
  | @move j c c' e hc hown hmove =>
      have hsame : c'.client = c.client ∧ c'.number = c.number := by
        cases hmove <;> exact ⟨rfl, rfl⟩
      have hkept : ∀ c'', InCall s c'' → InCall (s.setCaller j c') c'' :=
        fun c'' h => h.later hlater fun hstage => by
          have hfits := h.fits
          rwa [hstage] at hfits
      exact h.set hc rfl hsame.1 hsame.2
        (hkept c' ((h.inCall j c hc).move hmove))
        fun j' _ c'' hc'' => hkept c'' (h.inCall j' c'' hc'')
  | _ =>
      exact ⟨fun j c hc => (h.inCall j c hc).later hlater (hfits hc),
        h.distinct⟩

theorem of_reachable {guard : State ι ω V Buf → Event ι → Prop} {app : ω}
    {s : State ι ω V Buf}
    (hreach : Reachable (Calling.step mp bytes unpacker disp) guard
      (.initial disp app) s) : Threads s :=
  hreach.invariant (I := Threads) (.initial app) fun _ _ _ h _ hstep =>
    h.step (effect_of_step mp bytes unpacker disp hstep)

end Threads

/-! ## One thread -/

/-- A thread goes on. -/
def Turn (s : State ι ω V Buf) (c c' : Caller ι) : Prop :=
  c.stage = .posting ∧ c' = { c with stage := .reading } ∨ Move s c c'

omit [DecidableEq ι] in
theorem Turn.same {s : State ι ω V Buf} {c c' : Caller ι} (h : Turn s c c') :
    c'.client = c.client ∧ c'.number = c.number ∧
      c'.funcName = c.funcName := by
  rcases h with ⟨-, rfl⟩ | hmove
  · exact ⟨rfl, rfl, rfl⟩
  · cases hmove <;> exact ⟨rfl, rfl, rfl⟩

omit [DecidableEq ι] in
/-- A thread is touched by its own steps only. -/
theorem getElem?_setCaller {s : State ι ω V Buf} {j j' : Nat} {c c' : Caller ι}
    (hc : s.callers[j]? = some c) (hc' : s.callers[j']? = some c')
    (new : Caller ι) :
    j ≠ j' ∧ (s.setCaller j new).callers[j']? = some c' ∨
      j = j' ∧ c = c' ∧ (s.setCaller j new).callers[j']? = some new := by
  show _ ∧ (s.callers.set j new)[j']? = _ ∨
    _ ∧ _ ∧ (s.callers.set j new)[j']? = _
  rw [List.getElem?_set]
  by_cases hsame : j = j'
  · subst hsame
    obtain ⟨hj, -⟩ := List.getElem?_eq_some_iff.mp hc
    rw [if_pos rfl, if_pos hj]
    exact Or.inr ⟨rfl, Option.some.inj (hc.symm.trans hc'), rfl⟩
  · rw [if_neg hsame]
    exact Or.inl ⟨hsame, hc'⟩

omit [DecidableEq ι] in
theorem Event.ofCaller_unique {e : Event ι} {j j' : Nat} (h : e.ofCaller j)
    (h' : e.ofCaller j') : j = j' := by
  cases e with
  | proceed k | overflow k d | expire k => exact Eq.trans (Eq.symm h) h'
  | _ => exact h.elim

/-- What a step does to a thread. -/
theorem caller_of_effect {s s' : State ι ω V Buf} {e : Event ι}
    (heffect : Effect mp bytes unpacker disp s e s') {j : Nat} {c : Caller ι}
    (hc : s.callers[j]? = some c) :
    ¬ e.ofCaller j ∧ s'.callers[j]? = some c ∨
      e.ofCaller j ∧ ∃ c', s'.callers[j]? = some c' ∧ Turn s c c' := by
  cases heffect with
  | call hstep =>
      obtain ⟨hj, -⟩ := List.getElem?_eq_some_iff.mp hc
      exact Or.inl ⟨id, (List.getElem?_append_left hj).trans hc⟩
  | @post j' k c' call net hc' hstage hdrawn hnumber hstep =>
      rcases getElem?_setCaller (s := { s with net := net }) hc' hc
        { c' with stage := .reading } with ⟨hne, hkept⟩ | ⟨rfl, rfl, hnew⟩
      · exact Or.inl ⟨hne, hkept⟩
      · exact Or.inr ⟨rfl, _, hnew, Or.inl ⟨hstage, rfl⟩⟩
  | @move j' c' new e hc' hown hmove =>
      rcases getElem?_setCaller hc' hc new with ⟨hne, hkept⟩ | ⟨rfl, rfl, hnew⟩
      · exact Or.inl ⟨fun hthis => hne (Event.ofCaller_unique hown hthis), hkept⟩
      · exact Or.inr ⟨hown, new, hnew, Or.inr hmove⟩
  | _ => exact Or.inl ⟨id, hc⟩

end Calling
end System
end RpcLib
