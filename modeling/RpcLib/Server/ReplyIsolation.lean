import RpcLib.Server.ReplyZones

/-!
# Replies that are packed after another dispatch

A captured object lies in a zone that its thread-local handle still owns.  The
next assignment to that handle, by any session's request on the same thread,
destroys the zone; whether the reply was packed before decides the outcome.

* `Stored`: the zone of a posted reply belongs to the handle it was captured
  from until it is destroyed.
* `isolated_iff`: every captured value is packed as the handler has given it
  exactly when no dispatch assigns a handle that a posted reply still needs.
-/

namespace RpcLib
namespace Server
namespace ReplyZones

open Protocol Foundation TransitionSystem

variable {ω V Buf : Type} (mp : MsgPack Buf)

/-! ## What is captured is what is packed -/

/-- The tuple with the object in the field of the handle. -/
def frameWith (id : UInt32) (v other : Object) : Slot → Object
  | .error => .array [.ofUInt32 1, .ofUInt32 id, v, other]
  | .resp => .array [.ofUInt32 1, .ofUInt32 id, other, v]

/-- Every reply to a handler that has ended by `respond_error` or `respond`
was packed with the object that the handler gave. -/
def Isolated (s : State ω V) : Prop :=
  ∀ p ∈ s.packed, ∀ k v, p.1.promised = some (k, v) →
    ∃ other, p.2 = some (frameWith p.1.id v other k)

/-- The dispatch assigns no handle whose object a posted reply has captured
and still needs the zone of. -/
def SparesPosted (s : State ω V) : Event ω V → Prop
  | .dispatch t session msg =>
      ∀ p ∈ s.posted, p.thread = t → ∀ k v, p.promised = some (k, v) →
        v.isScalar = false → k ∉ s.assigns mp session msg
  | .write _ => True

/-- The zone that the field of a reply points into. -/
def zoneOf (p : PostedReply) (k : Slot) : Option ZoneId :=
  (p.field k).bind StoredObject.zone

/-- A captured object: it lies in a zone unless it is a scalar, and this zone
belongs to the handle it was captured from until it is destroyed. -/
structure Stored (m : Zones) (p : PostedReply) (k : Slot) (v : Object) :
    Prop where
  value : (p.field k).map StoredObject.value = some v
  scalar : zoneOf p k = none ↔ v.isScalar = true
  other : ∀ k', k' ≠ k → zoneOf p k' = none
  owner : ∀ z, zoneOf p k = some z → z < m.created ∧
    ((m.handles p.thread k).zone = some z ∨ z ∈ m.destroyed)

/-- What every step keeps, whatever it destroys. -/
structure WellStored (s : State ω V) : Prop where
  owned : s.zones.Owned
  stored : ∀ p ∈ s.posted, ∀ k v, p.promised = some (k, v) →
    Stored s.zones p k v

/-- The zone of every posted reply is alive. -/
def Alive (s : State ω V) : Prop :=
  ∀ p ∈ s.posted, ∀ k v, p.promised = some (k, v) →
    ∀ z, zoneOf p k = some z → z ∉ s.zones.destroyed

/-- A posted reply has lost its zone. -/
def Doomed (s : State ω V) : Prop :=
  ∃ p ∈ s.posted, ∃ k v, p.promised = some (k, v) ∧
    ∃ z, zoneOf p k = some z ∧ z ∈ s.zones.destroyed

theorem readField_of_alive {m : Zones} {field : Option StoredObject}
    (halive : ∀ z, field.bind StoredObject.zone = some z →
      z ∉ m.destroyed) :
    m.readField field = some ((field.map StoredObject.value).getD .nil) := by
  cases field with
  | none => rfl
  | some o => exact StoredObject.read_of_alive halive

theorem readField_of_destroyed {m : Zones} {field : Option StoredObject}
    {z : ZoneId} (hzone : field.bind StoredObject.zone = some z)
    (hdestroyed : z ∈ m.destroyed) : m.readField field = none := by
  obtain ⟨o, rfl, ho⟩ := Option.bind_eq_some_iff.mp hzone
  exact StoredObject.read_of_not_alive fun halive => halive z ho hdestroyed

/-- A reply whose zone is alive is packed with the captured object. -/
theorem data_of_alive {m : Zones} {p : PostedReply} {k : Slot} {v : Object}
    (h : Stored m p k v)
    (halive : ∀ z, zoneOf p k = some z → z ∉ m.destroyed) :
    ∃ other, m.data p = some (frameWith p.id v other k) := by
  have hfields : ∀ k' z, (p.field k').bind StoredObject.zone = some z →
      z ∉ m.destroyed := by
    intro k' z hz
    by_cases hk : k' = k
    · exact halive z (by rw [← hk]; exact hz)
    · exact absurd ((h.other k' hk).symm.trans hz) (by simp)
  have herror := readField_of_alive (hfields .error)
  have hresult := readField_of_alive (hfields .resp)
  have hvalue := h.value
  unfold Zones.data
  rw [show p.error = p.field .error from rfl,
    show p.result = p.field .resp from rfl, herror, hresult]
  cases k with
  | error => exact ⟨_, by rw [hvalue]; rfl⟩
  | resp => exact ⟨_, by rw [hvalue]; rfl⟩

/-- A reply whose zone is destroyed is not packed. -/
theorem data_of_destroyed {m : Zones} {p : PostedReply} {k : Slot}
    {z : ZoneId} (hzone : zoneOf p k = some z) (hdestroyed : z ∈ m.destroyed) :
    m.data p = none := by
  have hread := readField_of_destroyed hzone hdestroyed
  unfold Zones.data
  cases k with
  | error =>
      rw [show p.error = p.field .error from rfl, hread]
      rfl
  | resp =>
      rw [show p.result = p.field .resp from rfl, hread]
      cases m.readField p.error <;> rfl

/-- The steps: a dispatch, or the packing of a posted reply. -/
inductive Effect (s : State ω V) : Event ω V → State ω V → Prop
  | dispatch (t : ThreadId) (session : ServerSession ω V) (msg : Object) :
      Effect s (.dispatch t session msg) (s.dispatch mp t session msg)
  | write {session : SessionId} {p : PostedReply} {s' : State ω V}
      (hposted : p ∈ s.posted) (hzones : s'.zones = s.zones)
      (hpacked : s'.packed = s.packed ++ [(p, s.zones.data p)])
      (hrest : ∀ p' ∈ s'.posted, p' ∈ s.posted)
      (hleft : ∀ p' ∈ s.posted, p' = p ∨ p' ∈ s'.posted) :
      Effect s (.write session) s'

theorem effect_of_step {s s' : State ω V} {e : Event ω V}
    (hstep : step mp s e = some s') : Effect mp s e s' := by
  cases e with
  | dispatch t session msg =>
      obtain rfl : s.dispatch mp t session msg = s' := by
        simpa [step] using hstep
      exact .dispatch t session msg
  | write session =>
      obtain ⟨p, hfind, rfl⟩ := Option.map_eq_some_iff.mp hstep
      obtain ⟨hp, before, after, hsplit, hbefore⟩ :=
        List.find?_eq_some_iff_append.mp hfind
      have herase : s.posted.eraseP (fun p => p.session = session) =
          before ++ after := by
        rw [hsplit, List.eraseP_append_right _ (by simpa using hbefore)]
        simp [of_decide_eq_true hp]
      refine .write (p := p) (by simp [hsplit]) rfl rfl ?_ ?_
      · intro p' hp'
        exact List.mem_of_mem_eraseP hp'
      · intro p' hp'
        show p' = p ∨ p' ∈ s.posted.eraseP _
        rw [herase]
        simp only [hsplit, List.mem_append, List.mem_cons] at hp' ⊢
        tauto

/-! ## What one step keeps and breaks -/

/-- What a task promises is stored in the handle that it captures, in a zone
that is alive. -/
theorem stored_reply {m : Zones} (howned : m.Owned) {t : ThreadId}
    {run : HandlerRun} (session : SessionId) (resp : Response) {k : Slot}
    {v : Object}
    (hpromised : ((m.runHandler t run).reply t session (some run.outcome)
      resp).promised = some (k, v)) :
    Stored (m.runHandler t run)
      ((m.runHandler t run).reply t session (some run.outcome) resp) k v ∧
      ∀ z, zoneOf ((m.runHandler t run).reply t session (some run.outcome)
        resp) k = some z → z ∉ (m.runHandler t run).destroyed := by
  let before := run.actions.foldl (Zones.perform t) m
  have hbefore : before.Owned :=
    (Zones.replaces_foldl t run.actions m).owned howned
  have hown : ∀ o : Option Object,
      (o.map StoredObject.own).bind StoredObject.zone = none := by
    intro o
    cases o <;> rfl
  -- the end of the run is an assignment to the captured handle
  have hassigned : (m.runHandler t run) = before.assign t k v ∧
      (m.runHandler t run).captured t = some k := by
    have houtcome : (m.runHandler t run).promise t (some run.outcome) =
      some (k, v) := hpromised
    unfold Zones.runHandler at houtcome ⊢
    cases hrun : run.outcome with
    | respondedError u =>
        simp only [hrun, Zones.promise, Option.ite_none_right_eq_some,
          Option.some.injEq, Prod.mk.injEq] at houtcome
        obtain ⟨hcaptured, rfl, rfl⟩ := houtcome
        exact ⟨rfl, hcaptured⟩
    | responded u =>
        simp only [hrun, Zones.promise, Option.ite_none_right_eq_some,
          Option.some.injEq, Prod.mk.injEq] at houtcome
        obtain ⟨hcaptured, rfl, rfl⟩ := houtcome
        exact ⟨rfl, hcaptured⟩
    | returned r => simp [hrun, Zones.promise] at houtcome
    | threw e => simp [hrun, Zones.promise] at houtcome
  obtain ⟨hrun, hcaptured⟩ := hassigned
  rw [hrun] at hcaptured ⊢
  have hself := before.assign_self t k v
  have hfield : ((before.assign t k v).reply t session (some run.outcome)
      resp).field k = some (.inZone v before.created) := by
    cases k with
    | error => simp [PostedReply.field, Zones.reply, hcaptured, hself,
        ObjectHandle.pack]
    | resp => simp [PostedReply.field, Zones.reply, hcaptured, hself,
        ObjectHandle.pack]
  have howner : ∀ z, zoneOf ((before.assign t k v).reply t session
      (some run.outcome) resp) k = some z →
      ((before.assign t k v).handles t k).zone = some z := by
    intro z hz
    unfold zoneOf at hz
    rw [hfield] at hz
    cases hscalar : v.isScalar with
    | true => simp [StoredObject.inZone, hscalar] at hz
    | false =>
        obtain rfl : before.created = z := by
          simpa [StoredObject.inZone, hscalar] using hz
        rw [hself]
        rfl
  have howned' := hbefore.assign t k v
  refine ⟨⟨?_, ?_, ?_, ?_⟩, fun z hz => howned'.alive t k z (howner z hz)⟩
  · rw [hfield]
    rfl
  · unfold zoneOf
    rw [hfield]
    cases hscalar : v.isScalar <;> simp [StoredObject.inZone, hscalar]
  · intro k' hk'
    unfold zoneOf
    cases k <;> cases k' <;>
      simp_all [PostedReply.field, Zones.reply]
  · intro z hz
    exact ⟨howned'.below t k z (howner z hz), Or.inl (howner z hz)⟩

/-- A captured object stays where it is while handles are assigned. -/
theorem Stored.replaces {m m' : Zones} {t : ThreadId} {slots : List Slot}
    {p : PostedReply} {k : Slot} {v : Object} (h : Stored m p k v)
    (hreplaces : m.Replaces t slots m') : Stored m' p k v := by
  refine ⟨h.value, h.scalar, h.other, fun z hz => ?_⟩
  obtain ⟨hbelow, howner⟩ := h.owner z hz
  refine ⟨Nat.lt_of_lt_of_le hbelow hreplaces.created, ?_⟩
  rcases howner with howns | hdestroyed
  · by_cases hassigned : p.thread = t ∧ k ∈ slots
    · obtain ⟨rfl, hk⟩ := hassigned
      exact Or.inr (hreplaces.replaced k hk z howns)
    · rw [hreplaces.kept p.thread k (not_and_or.mp hassigned)]
      exact Or.inl howns
  · exact Or.inr (hreplaces.destroyed z hdestroyed)

/-- What a dispatch posts is stored in the handles that it has assigned, in
zones that are alive. -/
theorem stored_of_new {s : State ω V} (howned : s.zones.Owned) {t : ThreadId}
    {session : ServerSession ω V} {msg : Object} {resp : Response} {k : Slot}
    {v : Object}
    (hpromised : ((s.zonesAfter mp t session msg).reply t session.id
      ((s.runOf mp session msg).map HandlerRun.outcome) resp).promised =
        some (k, v)) :
    Stored (s.zonesAfter mp t session msg)
      ((s.zonesAfter mp t session msg).reply t session.id
        ((s.runOf mp session msg).map HandlerRun.outcome) resp) k v ∧
      ∀ z, zoneOf ((s.zonesAfter mp t session msg).reply t session.id
        ((s.runOf mp session msg).map HandlerRun.outcome) resp) k = some z →
        z ∉ (s.zonesAfter mp t session msg).destroyed := by
  have hclear := (Zones.Replaces.clear s.zones t).owned howned
  unfold State.zonesAfter at hpromised ⊢
  cases hrun : s.runOf mp session msg with
  | none =>
      rw [hrun] at hpromised
      cases hpromised
  | some run =>
      rw [hrun] at hpromised
      exact stored_reply hclear session.id resp hpromised

theorem WellStored.initial (app : ω) :
    WellStored (State.initial (V := V) app) := by
  refine ⟨⟨?_, ?_, ?_, ?_⟩, ?_⟩
  · exact fun _ _ _ hzone => nomatch hzone
  · exact fun _ hgone => nomatch hgone
  · exact fun _ _ _ hzone => nomatch hzone
  · exact fun _ _ _ _ _ hzone => nomatch hzone
  · exact fun _ hp => nomatch hp

theorem WellStored.step {s s' : State ω V} {e : Event ω V}
    (h : WellStored s) (hstep : step mp s e = some s') : WellStored s' := by
  cases effect_of_step mp hstep with
  | dispatch t session msg =>
      obtain ⟨hzones, -, hposted⟩ := dispatch_posted mp s t session msg
      have hreplaces := replaces_zonesAfter mp s t session msg
      refine ⟨by rw [hzones]; exact hreplaces.owned h.owned, ?_⟩
      rw [hzones]
      intro p hp k v hpromised
      rcases hposted with hsame | ⟨resp, hnew⟩
      · rw [hsame] at hp
        exact (h.stored p hp k v hpromised).replaces hreplaces
      · rw [hnew, List.mem_append, List.mem_singleton] at hp
        rcases hp with hold | rfl
        · exact (h.stored p hold k v hpromised).replaces hreplaces
        · exact (stored_of_new mp h.owned hpromised).1
  | write hposted hzones hpacked hrest hleft =>
      refine ⟨by rw [hzones]; exact h.owned, fun p hp => ?_⟩
      rw [hzones]
      exact h.stored p (hrest p hp)

/-- What runs within the condition maintain. -/
structure Safe (s : State ω V) : Prop where
  wellStored : WellStored s
  alive : Alive s
  isolated : Isolated s

theorem Safe.initial (app : ω) : Safe (State.initial (V := V) app) :=
  ⟨WellStored.initial app, fun _ hp => (nomatch hp),
    fun _ hp => (nomatch hp)⟩

/-- A dispatch that spares the posted replies leaves their zones alive. -/
theorem Safe.step {s s' : State ω V} {e : Event ω V} (h : Safe s)
    (hspares : SparesPosted mp s e) (hstep : step mp s e = some s') :
    Safe s' := by
  have hstored := h.wellStored.step mp hstep
  refine ⟨hstored, ?_, ?_⟩
  · cases effect_of_step mp hstep with
    | dispatch t session msg =>
        obtain ⟨hzones, -, hposted⟩ := dispatch_posted mp s t session msg
        have hreplaces := replaces_zonesAfter mp s t session msg
        intro p hp k v hpromised z hz hdestroyed
        by_cases hold : p ∈ s.posted
        · have hp' := h.wellStored.stored p hold k v hpromised
          have halive := h.alive p hold k v hpromised z hz
          have howns := (hp'.owner z hz).2.resolve_right halive
          have hspared : p.thread ≠ t ∨ k ∉ s.assigns mp session msg := by
            by_cases hthread : p.thread = t
            · refine Or.inr (hspares p hold hthread k v hpromised ?_)
              rw [← Bool.not_eq_true, ← hp'.scalar, hz]
              simp
            · exact Or.inl hthread
          -- the handle has kept its zone
          have hkept := (hreplaces.kept p.thread k hspared).trans howns
          rw [← hzones] at hkept
          exact hstored.owned.alive p.thread k z hkept hdestroyed
        · rcases hposted with hsame | ⟨resp, hnew⟩
          · exact hold (hsame ▸ hp)
          · rw [hnew, List.mem_append, List.mem_singleton] at hp
            obtain rfl := hp.resolve_left hold
            rw [hzones] at hdestroyed
            exact (stored_of_new mp h.wellStored.owned hpromised).2 z hz
              hdestroyed
    | write hposted hzones hpacked hrest hleft =>
        intro p hp
        rw [hzones]
        exact h.alive p (hrest p hp)
  · cases effect_of_step mp hstep with
    | dispatch t session msg =>
        obtain ⟨-, hpacked, -⟩ := dispatch_posted mp s t session msg
        intro p hp
        rw [hpacked] at hp
        exact h.isolated p hp
    | write hposted hzones hpacked hrest hleft =>
        intro q hq k v hpromised
        rw [hpacked, List.mem_append, List.mem_singleton] at hq
        rcases hq with hold | rfl
        · exact h.isolated q hold k v hpromised
        · exact data_of_alive (h.wellStored.stored _ hposted k v hpromised)
            (h.alive _ hposted k v hpromised)

/-- A dispatch outside the condition destroys the zone of a posted reply. -/
theorem doomed_of_not_sparesPosted {s s' : State ω V} {e : Event ω V}
    (h : WellStored s) (hnot : ¬ SparesPosted mp s e)
    (hstep : step mp s e = some s') : Doomed s' := by
  cases effect_of_step mp hstep with
  | dispatch t session msg =>
      obtain ⟨hzones, -, hposted⟩ := dispatch_posted mp s t session msg
      have hreplaces := replaces_zonesAfter mp s t session msg
      simp only [SparesPosted, not_forall, not_not] at hnot
      obtain ⟨p, hp, rfl, k, v, hpromised, hscalar, hassigned⟩ := hnot
      have hp' := h.stored p hp k v hpromised
      have hzone : zoneOf p k ≠ none := by
        rw [Ne, hp'.scalar, hscalar]
        simp
      obtain ⟨z, hz⟩ := Option.ne_none_iff_exists'.mp hzone
      refine ⟨p, ?_, k, v, hpromised, z, hz, ?_⟩
      · rcases hposted with hsame | ⟨resp, hnew⟩
        · rw [hsame]
          exact hp
        · rw [hnew]
          exact List.mem_append_left _ hp
      · rw [hzones]
        rcases (hp'.owner z hz).2 with howns | hdestroyed
        · exact hreplaces.replaced k hassigned z howns
        · exact hreplaces.destroyed z hdestroyed
  | write => exact absurd trivial hnot

/-- A reply that has lost its zone keeps waiting, or is not packed. -/
theorem Doomed.step {s s' : State ω V} {e : Event ω V} (h : Doomed s)
    (hstep : step mp s e = some s') : Doomed s' ∨ ¬ Isolated s' := by
  obtain ⟨p, hp, k, v, hpromised, z, hz, hdestroyed⟩ := h
  cases effect_of_step mp hstep with
  | dispatch t session msg =>
      obtain ⟨hzones, -, hposted⟩ := dispatch_posted mp s t session msg
      have hreplaces := replaces_zonesAfter mp s t session msg
      refine Or.inl ⟨p, ?_, k, v, hpromised, z, hz, ?_⟩
      · rcases hposted with hsame | ⟨resp, hnew⟩
        · rw [hsame]
          exact hp
        · rw [hnew]
          exact List.mem_append_left _ hp
      · rw [hzones]
        exact hreplaces.destroyed z hdestroyed
  | write hposted hzones hpacked hrest hleft =>
      rcases hleft p hp with rfl | hwaits
      · right
        intro hisolated
        have hmem : (p, s.zones.data p) ∈ s'.packed := by
          rw [hpacked]
          exact List.mem_append_right _ List.mem_cons_self
        obtain ⟨other, hframe⟩ := hisolated _ hmem k v hpromised
        rw [data_of_destroyed hz hdestroyed] at hframe
        cases hframe
      · exact Or.inl ⟨p, hwaits, k, v, hpromised, z, hz, hzones ▸ hdestroyed⟩

/-- Every captured value is packed as the handler has given it if no dispatch
assigns a handle that a posted reply on its thread still needs; and for runs
whose posted replies have all been packed this is the only way. -/
theorem isolated_iff (app : ω) (es : List (Event ω V)) :
    (EachStep (step mp) (SparesPosted mp) (.initial app) es →
      Always (step mp) Isolated (.initial app) es) ∧
    ∀ s, run (step mp) (.initial app) es = some s → s.posted = [] →
      Always (step mp) Isolated (.initial app) es →
      EachStep (step mp) (SparesPosted mp) (.initial app) es := by
  have hfree := eachStep_unguarded (step mp) (State.initial (V := V) app) es
  constructor
  · intro hspares
    exact always_of_eachStep (J := Safe) (fun _ h => h.isolated)
      (fun _ _ _ h _ hspares hstep => h.step mp hspares hstep)
      (.initial app) hfree hspares
  · intro s hrun hpacked halways
    have hfinal : ∀ s : State ω V, Doomed s → s.posted = [] →
        ¬ Isolated s := by
      rintro s ⟨p, hp, -⟩ hnone
      rw [hnone] at hp
      cases hp
    exact eachStep_of_always (J := WellStored) (D := Doomed)
      (F := fun s => s.posted = [])
      (fun _ _ _ h _ hstep => h.step mp hstep)
      (fun _ _ _ h _ hnot hstep =>
        Or.inl (doomed_of_not_sparesPosted mp h hnot hstep))
      (fun _ _ _ h _ hstep => h.step mp hstep)
      hfinal (.initial app) hfree hrun hpacked halways

/-- A session whose functor `f` ends by `respond_error(text)`. -/
def failing (id : SessionId) (text : String) : ServerSession Unit Unit :=
  ⟨id, ⟨AList.singleton "f"
    (ServerSession.constantFunctor ⟨[], .respondedError (.str text)⟩)⟩, true⟩

/-- A call of `f` without arguments. -/
def callOfF : Object :=
  .array [.ofInt8 0, .ofInt32 1, .str "f", .array []]

/-- One thread dispatches a call of each of two sessions before the write
strand of the first session runs. -/
def secondBeforeWrite : List (Event Unit Unit) :=
  [.dispatch 0 (failing 1 "first") callOfF,
    .dispatch 0 (failing 2 "second") callOfF, .write 1, .write 2]

/-- The first session's error is read after the second dispatch has destroyed
its zone. -/
theorem second_dispatch_destroys_error :
    (run (step .reference) (.initial ()) secondBeforeWrite).map
        (fun s => s.packed.map fun p => (p.1.promised, p.2)) =
      some [(some (.error, .str "first"), none),
        (some (.error, .str "second"),
          some (.array [.ofUInt32 1, .ofUInt32 1, .str "second", .nil]))] ∧
      ¬ Always (step .reference) Isolated (.initial ()) secondBeforeWrite := by
  have hends : (run (step .reference) (.initial ()) secondBeforeWrite).map
      (fun s => s.packed.map fun p => (p.1.promised, p.2)) =
      some [(some (.error, .str "first"), none),
        (some (.error, .str "second"),
          some (.array [.ofUInt32 1, .ofUInt32 1, .str "second", .nil]))] :=
    rfl
  refine ⟨hends, fun halways => ?_⟩
  obtain ⟨s, hrun, hpacked⟩ := Option.map_eq_some_iff.mp hends
  obtain ⟨⟨p, frame⟩, hp, heq⟩ := List.mem_map.mp (hpacked ▸
    (List.mem_cons_self : (some (Slot.error, Object.str "first"),
      (none : Option Object)) ∈ _))
  obtain ⟨hpromised, rfl⟩ := Prod.mk.inj heq
  obtain ⟨other, hframe⟩ := (halways.of_run hrun) _ hp _ _ hpromised
  cases hframe

/-- The write strand of the first session runs before the second dispatch. -/
def writeBeforeSecond : List (Event Unit Unit) :=
  [.dispatch 0 (failing 1 "first") callOfF, .write 1,
    .dispatch 0 (failing 2 "second") callOfF, .write 2]

theorem isolated_iff_write_before_second :
    Always (step .reference) Isolated (.initial ()) writeBeforeSecond ∧
      EachStep (step .reference) (SparesPosted .reference) (.initial ())
        writeBeforeSecond := by
  have hspares : EachStep (step .reference) (SparesPosted .reference)
      (.initial ()) writeBeforeSecond := by
    rintro _ ⟨⟩
    refine ⟨fun _ hp => (nomatch hp), ?_⟩
    rintro _ ⟨⟩
    refine ⟨trivial, ?_⟩
    rintro _ ⟨⟩
    refine ⟨fun _ hp => (nomatch hp), ?_⟩
    rintro _ ⟨⟩
    exact ⟨trivial, trivial⟩
  obtain ⟨hisolates, hneeded⟩ := isolated_iff .reference () writeBeforeSecond
  exact ⟨hisolates hspares, hneeded _ rfl rfl (hisolates hspares)⟩

end ReplyZones
end Server
end RpcLib
