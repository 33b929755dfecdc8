import RpcLib.Server.Moves

/-!
# Who owns an `impl`

`Server::impl` itself is modelled without the objects around it: it dispatches
to its own server's dispatcher and takes sessions out of its own vector.  That
a server can be seen so is what `Working` says.

* `Settled`: what holds as long as no `impl` changes its owner.
* `working_iff`: the exact condition.
-/

namespace RpcLib
namespace Server
namespace Ownership

open Foundation TransitionSystem

/-! ## Servers that work -/

/-- The server that owns an `impl` is the one its parent pointer names, and a
connection that the `impl` accepts next becomes a session with that server as
its parent and with the dispatcher of that server, which is not null. -/
structure Working (s : State) : Prop where
  parent : ∀ a i, s.pimplOf a = some i → s.parentOf i = some a
  accepts : ∀ a i stopping s', s.pimplOf a = some i →
    step s (.acceptDone i false stopping) = some s' →
    s'.undefined = false ∧ ∃ session, s'.session s.created = some session ∧
      session.io = i ∧ session.parent = a ∧
      session.disp = s.dispOf a ∧ s.dispOf a ≠ none

/-- No move takes an `impl` from one server to another: the source owns none,
or it is assigned to itself. -/
def KeepsImpl (s : State) : Event → Prop
  | .moveConstruct dst src | .moveAssign dst src =>
      dst = src ∨ s.pimplOf src = none
  | _ => True

/-- What holds as long as no `impl` changes its owner. -/
structure Settled (s : State) : Prop where
  owner : ∀ i a, s.parentOf i = some a ↔ s.pimplOf a = some i
  disp : ∀ a, s.pimplOf a ≠ none → s.dispOf a ≠ none
  sessions : ∀ k session a, s.session k = some session →
    s.parentOf session.io = some a → session.parent = a
  implFresh : ∀ i, s.constructed ≤ i → s.parentOf i = none
  sessionFresh : ∀ k session, s.session k = some session →
    session.io < s.constructed
  defined : s.undefined = false

namespace Settled

theorem initial : Settled .initial where
  owner i a := by simp [State.initial, State.parentOf, State.pimplOf]
  disp a h := absurd rfl h
  sessions k session a hsession := by cases hsession
  implFresh i hi := rfl
  sessionFresh k session hsession := by cases hsession
  defined := rfl

/-- A step that leaves the pointers of the servers and of every `impl` alone,
and gives a new session the parent of its `impl`. -/
theorem frame {s s' : State} (h : Settled s)
    (hpimpl : ∀ a, s'.pimplOf a = s.pimplOf a)
    (hdisp : ∀ a, s'.dispOf a = s.dispOf a)
    (hparent : ∀ i, s'.parentOf i = s.parentOf i)
    (hconstructed : s'.constructed = s.constructed)
    (hundefined : s'.undefined = s.undefined)
    (hsessions : ∀ k session, s'.session k = some session →
      s.parentOf session.io = some session.parent ∨
        ∃ old, s.session k = some old ∧ session.io = old.io ∧
          session.parent = old.parent) : Settled s' where
  owner i a := by
    rw [hparent, hpimpl]
    exact h.owner i a
  disp a := by
    rw [hpimpl, hdisp]
    exact h.disp a
  sessions k session a hsession hio := by
    rw [hparent] at hio
    rcases hsessions k session hsession with hnew | ⟨old, hold, hsame, hsame'⟩
    · exact Option.some.inj (hnew.symm.trans hio)
    · rw [hsame] at hio
      rw [hsame']
      exact h.sessions k old a hold hio
  implFresh i hi := by
    rw [hconstructed] at hi
    rw [hparent]
    exact h.implFresh i hi
  sessionFresh k session hsession := by
    rw [hconstructed]
    rcases hsessions k session hsession with hnew | ⟨old, hold, hsame, -⟩
    · by_contra hlate
      rw [h.implFresh _ (Nat.le_of_not_lt hlate)] at hnew
      cases hnew
    · rw [hsame]
      exact h.sessionFresh k old hold
  defined := hundefined.trans h.defined

/-- A server loses its `impl`, which is deleted. -/
theorem lose {s s' : State} (h : Settled s) {a : Address}
    (hpimpl : ∀ b, s'.pimplOf b = if b = a then none else s.pimplOf b)
    (hparent : ∀ i, s'.parentOf i =
      if s.pimplOf a = some i then none else s.parentOf i)
    (hdisp : ∀ b, b ≠ a → s.pimplOf b ≠ none → s'.dispOf b = s.dispOf b)
    (hsession : s'.session = s.session)
    (hconstructed : s'.constructed = s.constructed)
    (hundefined : s'.undefined = s.undefined) : Settled s' where
  owner i b := by
    rw [hpimpl, hparent]
    by_cases howned : s.pimplOf a = some i
    · rw [if_pos howned]
      by_cases hb : b = a
      · simp [hb]
      · -- no two servers own one `impl`
        have hother : s.pimplOf b ≠ some i := by
          intro hboth
          have hb' := (h.owner i b).mpr hboth
          rw [(h.owner i a).mpr howned] at hb'
          exact hb (Option.some.inj hb').symm
        simp [hb, hother]
    · rw [if_neg howned, h.owner i b]
      by_cases hb : b = a
      · simp [hb, howned]
      · simp [hb]
  disp b hb := by
    rw [hpimpl] at hb
    by_cases hba : b = a
    · simp [hba] at hb
    · rw [if_neg hba] at hb
      rw [hdisp b hba hb]
      exact h.disp b hb
  sessions k session b hk hio := by
    rw [hsession] at hk
    rw [hparent] at hio
    by_cases howned : s.pimplOf a = some session.io
    · simp [howned] at hio
    · rw [if_neg howned] at hio
      exact h.sessions k session b hk hio
  implFresh i hi := by
    rw [hconstructed] at hi
    rw [hparent, h.implFresh i hi, ite_self]
  sessionFresh k session hk := by
    rw [hsession] at hk
    rw [hconstructed]
    exact h.sessionFresh k session hk
  defined := hundefined.trans h.defined

/-- A new server owns its new `impl`, which points back to it. -/
theorem construct {s : State} (h : Settled s) {a : Address}
    (hfree : s.server a = none) : Settled (s.construct a) := by
  have hpimpl : ∀ b, (s.construct a).pimplOf b =
      if b = a then some s.constructed else s.pimplOf b := by
    intro b
    by_cases hb : b = a <;>
      simp [State.construct, State.setImpl, State.setServer, State.pimplOf, hb]
  have hparent : ∀ i, (s.construct a).parentOf i =
      if i = s.constructed then some a else s.parentOf i := by
    intro i
    by_cases hi : i = s.constructed <;>
      simp [State.construct, State.setImpl, State.setServer, State.parentOf,
        hi]
  -- nobody owns an `impl` before it exists
  have hunowned : ∀ b, s.pimplOf b ≠ some s.constructed := by
    intro b howned
    have hb := (h.owner _ b).mpr howned
    rw [h.implFresh _ (Nat.le_refl _)] at hb
    cases hb
  have hnone : s.pimplOf a = none := by simp [State.pimplOf, hfree]
  refine ⟨fun i b => ?_, fun b hb => ?_, fun k session b hk hio => ?_,
    fun i hi => ?_, fun k session hk => ?_, h.defined⟩
  · rw [hpimpl, hparent]
    by_cases hi : i = s.constructed
    · by_cases hb : b = a
      · simp [hi, hb]
      · simp [hi, hb, hunowned b, Ne.symm hb]
    · rw [if_neg hi, h.owner i b]
      by_cases hb : b = a
      · simp [hb, hnone, Ne.symm hi]
      · simp [hb]
  · rw [hpimpl] at hb
    by_cases hba : b = a
    · simp [State.construct, State.setImpl, State.setServer, State.dispOf,
        hba]
    · rw [if_neg hba] at hb
      have hsame : (s.construct a).dispOf b = s.dispOf b := by
        simp [State.construct, State.setImpl, State.setServer, State.dispOf,
          hba]
      rw [hsame]
      exact h.disp b hb
  · have hold : session.io ≠ s.constructed :=
      Nat.ne_of_lt (h.sessionFresh k session hk)
    rw [hparent, if_neg hold] at hio
    exact h.sessions k session b hk hio
  · have hlater : s.constructed < i := hi
    rw [hparent, if_neg (Nat.ne_of_gt hlater)]
    exact h.implFresh i (Nat.le_of_lt hlater)
  · exact Nat.lt_succ_of_lt (h.sessionFresh k session hk)

theorem destroy {s : State} (h : Settled s) (a : Address) :
    Settled (s.destroy a) := by
  refine h.lose (a := a) (fun b => ?_) (fun i => ?_) (fun b hb _ => ?_)
    ?_ ?_ ?_
  · by_cases hb : b = a <;>
      simp [State.destroy, State.resetPimpl, State.setPimpl, State.setServer,
        State.pimplOf, hb]
  · show Option.map _ (((s.setPimpl a none).deleteImpl
      (s.pimplOf a)).impl i) = _
    rw [State.deleteImpl_impl]
    by_cases howned : s.pimplOf a = some i <;>
      simp [howned, State.parentOf, State.setPimpl]
  · simp [State.destroy, State.resetPimpl, State.setPimpl, State.setServer,
      State.dispOf, hb]
  · simp [State.destroy, State.resetPimpl, State.setPimpl, State.setServer]
  · simp [State.destroy, State.resetPimpl, State.setPimpl, State.setServer]
  · simp [State.destroy, State.resetPimpl, State.setPimpl, State.setServer]

/-- A move from a server that owns no `impl`, or to itself. -/
theorem moved {s s' : State} (h : Settled s) {dst src : Address}
    (hmoved : Moved dst src s s')
    (hkeeps : dst = src ∨ s.pimplOf src = none) : Settled s' := by
  by_cases hsame : dst = src
  · -- a self-assignment gives every pointer back
    subst hsame
    refine h.frame (fun a => ?_) (fun a => ?_) (fun i => ?_)
      hmoved.constructed hmoved.undefined (fun k session hk => ?_)
    · rw [hmoved.pimpl]
      by_cases ha : a = dst <;> simp [ha]
    · rw [hmoved.disp]
      by_cases ha : a = dst <;> simp [ha]
    · rw [hmoved.parent]
      simp
    · rw [hmoved.session] at hk
      exact Or.inr ⟨session, hk, rfl, rfl⟩
  · -- the source has no `impl` to give, and the destination loses its own
    have hnone : s.pimplOf src = none := hkeeps.resolve_left hsame
    refine h.lose (a := dst) (fun b => ?_) (fun i => ?_) (fun b hb howns => ?_)
      hmoved.session hmoved.constructed hmoved.undefined
    · rw [hmoved.pimpl, hnone]
      by_cases hsrc : b = src
      · simp [hsrc, hnone]
      · simp [hsrc]
    · rw [hmoved.parent]
      simp [hsame]
    · have hsrc : b ≠ src := by
        rintro rfl
        exact howns hnone
      rw [hmoved.disp, if_neg hb, if_neg hsrc]

theorem parentOf_of_impl {s : State} {i : ImplNumber} {impl : Impl}
    (himpl : s.impl i = some impl) : s.parentOf i = some impl.parent := by
  rw [State.parentOf, himpl]
  rfl

/-- The parent pointer of an `impl` leads to its owner. -/
theorem owner_of_impl {s : State} (h : Settled s) {i : ImplNumber}
    {impl : Impl} (himpl : s.impl i = some impl) :
    s.pimplOf impl.parent = some i :=
  (h.owner i _).mp (parentOf_of_impl himpl)

/-- Writing to an `impl` anything but its parent pointer. -/
theorem parentOf_setImpl {s : State} {i : ImplNumber} {impl impl' : Impl}
    (himpl : s.impl i = some impl) (hparent : impl'.parent = impl.parent)
    (j : ImplNumber) : (s.setImpl i (some impl')).parentOf j = s.parentOf j := by
  by_cases hj : j = i
  · subst hj
    simp [State.setImpl, State.parentOf, himpl, hparent]
  · simp [State.setImpl, State.parentOf, hj]

/-- The session gets its parent and its dispatcher from the owner. -/
theorem accepted_eq {s : State} (h : Settled s) {i : ImplNumber} {impl : Impl}
    (himpl : s.impl i = some impl) (stopping : Bool) :
    s.accepted i impl stopping =
      { (s.setSession s.created ⟨impl.parent, i, s.dispOf impl.parent,
          impl.suppressException, 0⟩).setImpl i (some (State.acceptNext
            { impl with sessions := impl.sessions ++ [s.created] }
            stopping)) with
        created := s.created + 1 } := by
  have howns := h.owner_of_impl himpl
  unfold State.accepted State.dispOf
  cases hserver : s.server impl.parent with
  | none => simp [State.pimplOf, hserver] at howns
  | some parent => rfl

theorem accepted {s : State} (h : Settled s) {i : ImplNumber} {impl : Impl}
    (himpl : s.impl i = some impl) (stopping : Bool) :
    Settled (s.accepted i impl stopping) := by
  rw [h.accepted_eq himpl]
  refine h.frame (fun _ => rfl) (fun _ => rfl) (fun j => ?_) rfl rfl
    (fun k session hk => ?_)
  · exact parentOf_setImpl (s := s) himpl (by rfl) j
  by_cases hnew : k = s.created
  · obtain rfl : _ = session := by
      simpa [State.setImpl, State.setSession, hnew] using hk
    exact Or.inl (parentOf_of_impl himpl)
  · have hold : s.session k = some session := by
      simpa [State.setImpl, State.setSession, hnew] using hk
    exact Or.inr ⟨session, hold, rfl, rfl⟩

/-- A session finds its own `impl` behind its parent pointer. -/
theorem closeSession_eq {s : State} (h : Settled s) {k : SessionNumber}
    {session : Session} {impl : Impl} (hsession : s.session k = some session)
    (himpl : s.impl session.io = some impl) :
    s.closeSession k session =
      (s.setSession k { session with closing := session.closing - 1 }).setImpl
        session.io (some { impl with
          sessions := impl.sessions.erase k }) := by
  have hparent : session.parent = impl.parent :=
    h.sessions k session _ hsession (parentOf_of_impl himpl)
  unfold State.closeSession
  rw [hparent, h.owner_of_impl himpl]
  simp [himpl]

theorem setSession {s : State} (h : Settled s) {k : SessionNumber}
    {session session' : Session} (hsession : s.session k = some session)
    (hio : session'.io = session.io)
    (hparent : session'.parent = session.parent) :
    Settled (s.setSession k session') := by
  refine h.frame (fun _ => rfl) (fun _ => rfl) (fun _ => rfl) rfl rfl
    (fun j found hj => ?_)
  by_cases hjk : j = k
  · obtain rfl : session' = found := by
      simpa [State.setSession, hjk] using hj
    exact Or.inr ⟨session, hjk ▸ hsession, hio, hparent⟩
  · have hold : s.session j = some found := by
      simpa [State.setSession, hjk] using hj
    exact Or.inr ⟨found, hold, rfl, rfl⟩

theorem setImpl {s : State} (h : Settled s) {i : ImplNumber}
    {impl impl' : Impl} (himpl : s.impl i = some impl)
    (hparent : impl'.parent = impl.parent) :
    Settled (s.setImpl i (some impl')) :=
  h.frame (fun _ => rfl) (fun _ => rfl) (parentOf_setImpl himpl hparent)
    rfl rfl (fun _ session hk => Or.inr ⟨session, hk, rfl, rfl⟩)

theorem step {s s' : State} {e : Event} (h : Settled s)
    (hkeeps : KeepsImpl s e) (hstep : step s e = some s') : Settled s' := by
  cases (effect_of_step hstep).2 with
  | construct hfree => exact h.construct hfree
  | moveConstruct hmoved => exact h.moved hmoved hkeeps
  | moveAssign hmoved => exact h.moved hmoved hkeeps
  | destroy => exact h.destroy _
  | suppressExceptions suppress himpl => exact h.setImpl himpl rfl
  | accepted stopping himpl => exact h.accepted himpl stopping
  | acceptFailed stopping himpl => exact h.setImpl himpl rfl
  | close hsession => exact h.setSession hsession rfl rfl
  | closeSession hsession himpl =>
      rw [h.closeSession_eq hsession himpl]
      refine Settled.setImpl ?_ himpl (by rfl)
      exact h.setSession hsession rfl rfl

theorem working {s : State} (h : Settled s) : Working s where
  parent a i howns := (h.owner i a).mpr howns
  accepts a i stopping s' howns hstep := by
    cases (effect_of_step hstep).2 with
    | @accepted i impl stopping himpl =>
        obtain rfl : impl.parent = a := by
          have hparent := (h.owner i a).mpr howns
          rw [parentOf_of_impl himpl] at hparent
          exact Option.some.inj hparent
        rw [h.accepted_eq himpl]
        refine ⟨h.defined, _, Function.update_self _ _ _, rfl, rfl, rfl, ?_⟩
        exact h.disp impl.parent (by simp [howns])

end Settled

/-- A move that takes an `impl` to another server leaves its parent pointer
behind. -/
theorem not_working_of_move {s s' : State} (h : Settled s)
    {dst src : Address} (hmoved : Moved dst src s s')
    (htakes : ¬ (dst = src ∨ s.pimplOf src = none)) : ¬ Working s' := by
  obtain ⟨hother, hsome⟩ := not_or.mp htakes
  obtain ⟨i, howns⟩ := Option.ne_none_iff_exists'.mp hsome
  have hparent : s.parentOf i = some src := (h.owner i src).mpr howns
  intro hworking
  have howns' : s'.pimplOf dst = some i := by
    rw [hmoved.pimpl, if_pos rfl, howns]
  -- the destination owns the `impl`, which still names the source
  have hparent' := hworking.parent dst i howns'
  rw [hmoved.parent] at hparent'
  split at hparent'
  · cases hparent'
  · rw [hparent] at hparent'
    exact hother (Option.some.inj hparent').symm

/-- Every server of a run works throughout exactly when no move of the run
takes an `impl` from one server to another. -/
theorem working_iff (es : List Event) :
    Always step Working .initial es ↔ EachStep step KeepsImpl .initial es := by
  refine always_iff_eachStep (J := Settled)
    (fun _ h => h.working)
    (fun _ _ _ h _ hkeeps hstep => h.step hkeeps hstep)
    (fun s e s' h _ hnot hstep => ?_) .initial (eachStep_unguarded _ _ _)
  cases (effect_of_step hstep).2 with
  | moveConstruct hmoved => exact not_working_of_move h hmoved hnot
  | moveAssign hmoved => exact not_working_of_move h hmoved hnot
  | _ => exact (hnot trivial).elim

/-- A server is constructed and moved; then a client connects, and its session
ends. -/
def moveThenAccept : List Event :=
  [.construct 0, .moveConstruct 1 0, .acceptDone 0 false false, .close 0,
    .closeSession 0]

/-- The session gets the null dispatcher of the server at address 0, which no
longer owns the `impl`, and its end reads through the null `pimpl_` there. -/
theorem moved_server_loses_dispatcher :
    (run step .initial (moveThenAccept.take 3)).map (fun s =>
      (s.pimplOf 1, s.dispOf 1, s.session 0)) =
      some (some 0, some 0, some ⟨0, 0, none, false, 0⟩) ∧
    (run step .initial moveThenAccept).map State.undefined = some true ∧
    ¬ Always step Working .initial moveThenAccept := by
  refine ⟨rfl, rfl, fun halways => ?_⟩
  have hworking := ((halways.2 _ rfl).2 _ rfl).head
  have hparent : some 0 = some 1 := hworking.parent 1 0 rfl
  cases hparent

end Ownership
end Server
end RpcLib
