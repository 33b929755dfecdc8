import RpcLib.Foundation.TransitionSystem
import RpcLib.Protocol.Storage
import RpcLib.Server.ExitRequests

/-!
# The storage behind a captured reply

What `capture_error` and `capture_result` put into a response points into the
zone of the thread-local handle.  The response is packed by a later handler of
the write strand.

Here every zone that `detail::pack` makes has a number, the handles of all
threads own their zones, and reading an object whose zone is destroyed is an
error.

* `Zones.Replaces`: what a run does to the zones, from the handles that it
  assigns.
* `posted_frames`: up to the zones, a dispatch posts what `dispatchTask` posts.
-/

namespace RpcLib

namespace Server

open Protocol Foundation TransitionSystem

variable {ω V Buf : Type} (mp : MsgPack Buf)

/-- `this_handler_t` has two handles. -/
inductive Slot where
  | error
  | resp
  deriving DecidableEq

/-! ## The handles of all threads -/

/-- The zones of `detail::pack` and the handles of every `this_handler()`. -/
structure Zones where
  created : Nat
  destroyed : List ZoneId
  handles : ThreadId → Slot → ObjectHandle

namespace Zones

/-- Before any handler has run, every handle holds nil and owns no zone. -/
def initial : Zones := ⟨0, [], fun _ _ => .null⟩

/-- Read an object; an error when its zone is destroyed. -/
def read (m : Zones) (o : StoredObject) : Option Object :=
  o.read m.destroyed

def setHandle (m : Zones) (t : ThreadId) (k : Slot) (h : ObjectHandle) :
    Zones :=
  { m with
    handles := Function.update m.handles t (Function.update (m.handles t) k h) }

/-- The assignment of `detail::pack(v)` to a handle.  It destroys the zone
that the handle has owned. -/
def assign (m : Zones) (t : ThreadId) (k : Slot) (v : Object) : Zones :=
  { m.setHandle t k (.pack v m.created) with
    created := m.created + 1
    destroyed := m.destroyed ++ (m.handles t k).zone.toList }

/-- `this_handler_t::clear` sets both objects to nil. -/
def clear (m : Zones) (t : ThreadId) : Zones :=
  let m := m.setHandle t .resp ((m.handles t .resp).set (.own .nil))
  m.setHandle t .error ((m.handles t .error).set (.own .nil))

/-- One action of a handler, as far as it concerns the handles. -/
def perform (t : ThreadId) (m : Zones) : HandlerAction → Zones
  | .clear => m.clear t
  | .caughtRespondError v => m.assign t .error v
  | .caughtRespond v => m.assign t .resp v
  | .enableResponse | .disableResponse | .postExit | .stop | .cancelStop => m

/-- How a run ends: `respond_error` and `respond` store before they throw. -/
def finish (t : ThreadId) (m : Zones) : Outcome → Zones
  | .respondedError v => m.assign t .error v
  | .responded v => m.assign t .resp v
  | .returned _ | .threw _ => m

/-- The effect of a handler's run on the handles of its thread. -/
def runHandler (m : Zones) (t : ThreadId) (run : HandlerRun) : Zones :=
  finish t (run.actions.foldl (perform t) m) run.outcome

end Zones

/-- The handle that an action assigns. -/
def HandlerAction.assigns : HandlerAction → List Slot
  | .caughtRespondError _ => [.error]
  | .caughtRespond _ => [.resp]
  | .enableResponse | .disableResponse | .clear | .postExit | .stop
  | .cancelStop => []

/-- The handle that the end of a run assigns. -/
def Outcome.assigns : Outcome → List Slot
  | .respondedError _ => [.error]
  | .responded _ => [.resp]
  | .returned _ | .threw _ => []

/-- The handles that a run assigns. -/
def HandlerRun.assigns (run : HandlerRun) : List Slot :=
  run.actions.flatMap HandlerAction.assigns ++ run.outcome.assigns

/-! ## Posted replies -/

/-- A handler `write(resp.data())` on the write strand of a session, with the
response that it has captured. -/
structure PostedReply where
  session : SessionId
  id : UInt32
  error : Option StoredObject
  result : Option StoredObject
  /-- The thread whose handles were captured. -/
  thread : ThreadId
  /-- The handle that was captured and the object that the handler gave, when
  the handler has ended by `respond_error` or `respond`. -/
  promised : Option (Slot × Object)

namespace PostedReply

/-- The object that the reply carries for a handle. -/
def field (p : PostedReply) : Slot → Option StoredObject
  | .error => p.error
  | .resp => p.result

/-- The response that the task has posted, if every zone were alive. -/
def value (p : PostedReply) : Response :=
  ⟨p.id, p.error.map StoredObject.value, p.result.map StoredObject.value,
    false⟩

/-- The tuple that `data` would pack if every zone were alive. -/
def frame (p : PostedReply) : Object :=
  .array [.ofUInt32 1, .ofUInt32 p.id,
    (p.error.map StoredObject.value).getD .nil,
    (p.result.map StoredObject.value).getD .nil]

end PostedReply

namespace Zones

/-- A null handle packs as nil. -/
def readField (m : Zones) : Option StoredObject → Option Object
  | none => some .nil
  | some o => m.read o

/-- The tuple that `Response::data` packs; an error when it reads an object
whose zone is destroyed. -/
def data (m : Zones) (p : PostedReply) : Option Object :=
  (m.readField p.error).bind fun error =>
    (m.readField p.result).map fun result =>
      .array [.ofUInt32 1, .ofUInt32 p.id, error, result]

/-- The handle whose object the task captures: the error set in the handler
comes first. -/
def captured (m : Zones) (t : ThreadId) : Option Slot :=
  if (m.handles t .error).object.value.isNil = false then some .error
  else if (m.handles t .resp).object.value.isNil = false then some .resp
  else none

/-- The object that a handler has given to `respond_error` or `respond`, when
it has ended so and this is the handle that the task captures. -/
def promise (m : Zones) (t : ThreadId) :
    Option Outcome → Option (Slot × Object)
  | some (.respondedError v) =>
      if m.captured t = some .error then some (.error, v) else none
  | some (.responded v) =>
      if m.captured t = some .resp then some (.resp, v) else none
  | _ => none

/-- The reply for the response of a dispatch on the thread.  A field that is
captured points into the zone of the handle, any other has its own. -/
def reply (m : Zones) (t : ThreadId) (session : SessionId)
    (outcome : Option Outcome) (resp : Response) : PostedReply where
  session := session
  id := resp.id
  error :=
    if m.captured t = some .error then some (m.handles t .error).object
    else resp.error.map .own
  result :=
    if m.captured t = some .resp then some (m.handles t .resp).object
    else resp.result.map .own
  thread := t
  promised := m.promise t outcome

end Zones

/-! ## Dispatches and writes of all sessions -/

namespace ReplyZones

/-- What the dispatch tasks and the write strands of all sessions share. -/
structure State (ω V : Type) where
  app : ω
  invocations : List (String × List V)
  zones : Zones
  /-- The replies posted and not packed yet, in the order of posting. -/
  posted : List PostedReply
  /-- History: the replies packed, with the tuple or the error. -/
  packed : List (PostedReply × Option Object)

/-- Before the first dispatch. -/
def State.initial (app : ω) : State ω V := ⟨app, [], .initial, [], []⟩

/-- The thread as a dispatch finds it; the dispatch resets the thread-local
objects before anything reads them. -/
def State.worker (s : State ω V) : Worker ω V :=
  ⟨s.app, ⟨.nil, .nil, true⟩, ⟨false, 0⟩, ⟨false⟩, s.invocations⟩

/-- The run of the handler that a dispatch calls. -/
def State.runOf (s : State ω V) (session : ServerSession ω V)
    (msg : Object) : Option HandlerRun :=
  session.disp.runOf mp msg (session.prepare s.worker)

/-- The handles after the dispatch of a message. -/
def State.zonesAfter (s : State ω V) (t : ThreadId)
    (session : ServerSession ω V) (msg : Object) : Zones :=
  match s.runOf mp session msg with
  | none => s.zones.clear t
  | some run => (s.zones.clear t).runHandler t run

/-- The reply that the task posts at its end, if any. -/
def replies (m : Zones) (t : ThreadId) (session : SessionId)
    (outcome : Option Outcome) (w : Worker ω V) (resp : Response) :
    List PostedReply :=
  if w.thisHandler.respEnabled = false then []
  else if resp.empty then []
  else [m.reply t session outcome resp]

/-- The dispatch task of a message on a thread.  An exception leaves the task
before it posts anything. -/
def State.dispatch (s : State ω V) (t : ThreadId)
    (session : ServerSession ω V) (msg : Object) : State ω V :=
  let zones := s.zonesAfter mp t session msg
  match (session.disp.dispatch mp msg session.suppressExceptions).exec
    (session.prepare s.worker) with
  | (.error _, w) =>
      { s with app := w.app, invocations := w.invocations, zones := zones }
  | (.ok resp, w) =>
      { s with
        app := w.app
        invocations := w.invocations
        zones := zones
        posted := s.posted ++ replies zones t session.id
          ((s.runOf mp session msg).map HandlerRun.outcome) w resp }

/-- A thread runs the dispatch task of a session, or a write strand runs the
next write of its session. -/
inductive Event (ω V : Type) where
  | dispatch (t : ThreadId) (session : ServerSession ω V) (msg : Object)
  | write (session : SessionId)

/-- The step of an event; a write is enabled when the session has one
posted. -/
def step (s : State ω V) : Event ω V → Option (State ω V)
  | .dispatch t session msg => some (s.dispatch mp t session msg)
  | .write session =>
      (s.posted.find? fun p => p.session = session).map fun p =>
        { s with
          posted := s.posted.eraseP fun p => p.session = session
          packed := s.packed ++ [(p, s.zones.data p)] }

end ReplyZones

/-! ## What an assignment does to the zones -/

namespace Zones

@[simp] theorem setHandle_self (m : Zones) (t : ThreadId) (k : Slot)
    (h : ObjectHandle) : (m.setHandle t k h).handles t k = h := by
  simp [setHandle]

theorem setHandle_other {m : Zones} {t t' : ThreadId} {k k' : Slot}
    (h : ObjectHandle) (hother : t' ≠ t ∨ k' ≠ k) :
    (m.setHandle t k h).handles t' k' = m.handles t' k' := by
  by_cases hthread : t' = t
  · subst hthread
    have hslot : k' ≠ k := hother.resolve_left (fun hne => hne rfl)
    simp [setHandle, hslot]
  · simp [setHandle, hthread]

/-- The zones that handles own are alive, and no two handles own the same. -/
structure Owned (m : Zones) : Prop where
  below : ∀ t k z, (m.handles t k).zone = some z → z < m.created
  gone : ∀ z ∈ m.destroyed, z < m.created
  alive : ∀ t k z, (m.handles t k).zone = some z → z ∉ m.destroyed
  distinct : ∀ t k t' k' z, (m.handles t k).zone = some z →
    (m.handles t' k').zone = some z → t' = t ∧ k' = k

/-- What happens to the zones when some handles of one thread are assigned:
the zones of these handles are destroyed and all other handles keep theirs. -/
structure Replaces (t : ThreadId) (slots : List Slot) (m m' : Zones) :
    Prop where
  owned : Owned m → Owned m'
  created : m.created ≤ m'.created
  destroyed : ∀ z ∈ m.destroyed, z ∈ m'.destroyed
  kept : ∀ t' k, t' ≠ t ∨ k ∉ slots →
    (m'.handles t' k).zone = (m.handles t' k).zone
  replaced : ∀ k ∈ slots, ∀ z, (m.handles t k).zone = some z →
    z ∈ m'.destroyed

namespace Replaces

theorem refl (t : ThreadId) (m : Zones) : Replaces t [] m m :=
  ⟨id, Nat.le_refl _, fun _ h => h, fun _ _ _ => rfl,
    fun _ hnone => absurd hnone (by simp)⟩

theorem trans {t : ThreadId} {slots slots' : List Slot} {m m' m'' : Zones}
    (h : Replaces t slots m m') (h' : Replaces t slots' m' m'') :
    Replaces t (slots ++ slots') m m'' where
  owned := fun howned => h'.owned (h.owned howned)
  created := Nat.le_trans h.created h'.created
  destroyed := fun z hz => h'.destroyed z (h.destroyed z hz)
  kept := by
    intro t' k hother
    rw [List.mem_append, not_or] at hother
    rw [h'.kept t' k (hother.imp_right And.right),
      h.kept t' k (hother.imp_right And.left)]
  replaced := by
    intro k hk z hz
    by_cases hfirst : k ∈ slots
    · exact h'.destroyed z (h.replaced k hfirst z hz)
    · -- the first part has left the handle its zone
      have hsecond := (List.mem_append.mp hk).resolve_left hfirst
      exact h'.replaced k hsecond z
        ((h.kept t k (Or.inr hfirst)).trans hz)

/-- Setting the objects of handles leaves all zones where they are. -/
theorem set (m : Zones) (t : ThreadId) (k : Slot) (o : StoredObject) :
    Replaces t [] m (m.setHandle t k ((m.handles t k).set o)) := by
  have hzone : ∀ t' k',
      ((m.setHandle t k ((m.handles t k).set o)).handles t' k').zone =
        (m.handles t' k').zone := by
    intro t' k'
    by_cases hself : t' = t ∧ k' = k
    · obtain ⟨rfl, rfl⟩ := hself
      rw [setHandle_self]
      rfl
    · rw [setHandle_other _ (not_and_or.mp hself)]
  refine ⟨fun howned => ⟨?_, howned.gone, ?_, ?_⟩, Nat.le_refl _,
    fun _ hz => hz, fun t' k' _ => hzone t' k', by simp⟩
  · intro t' k' z hz
    exact howned.below t' k' z ((hzone t' k').symm.trans hz)
  · intro t' k' z hz
    exact howned.alive t' k' z ((hzone t' k').symm.trans hz)
  · intro t' k' t'' k'' z hz hz'
    exact howned.distinct t' k' t'' k'' z ((hzone t' k').symm.trans hz)
      ((hzone t'' k'').symm.trans hz')

theorem clear (m : Zones) (t : ThreadId) : Replaces t [] m (m.clear t) :=
  (set m t .resp (.own .nil)).trans (set _ t .error (.own .nil))

end Replaces

theorem assign_self (m : Zones) (t : ThreadId) (k : Slot) (v : Object) :
    (m.assign t k v).handles t k = .pack v m.created :=
  setHandle_self m t k _

theorem assign_other {m : Zones} {t t' : ThreadId} {k k' : Slot} (v : Object)
    (hother : t' ≠ t ∨ k' ≠ k) :
    (m.assign t k v).handles t' k' = m.handles t' k' :=
  setHandle_other _ hother

/-- After an assignment the assigned handle owns the new zone. -/
theorem assign_zone (m : Zones) (t : ThreadId) (k : Slot) (v : Object)
    (t' : ThreadId) (k' : Slot) :
    (t' = t ∧ k' = k ∧
      ((m.assign t k v).handles t' k').zone = some m.created) ∨
    ((t' ≠ t ∨ k' ≠ k) ∧
      ((m.assign t k v).handles t' k').zone = (m.handles t' k').zone) := by
  by_cases hself : t' = t ∧ k' = k
  · obtain ⟨rfl, rfl⟩ := hself
    exact Or.inl ⟨rfl, rfl, by rw [assign_self]; rfl⟩
  · have hother := not_and_or.mp hself
    exact Or.inr ⟨hother, by rw [assign_other v hother]⟩

theorem mem_destroyed_assign (m : Zones) (t : ThreadId) (k : Slot)
    (v : Object) (z : ZoneId) :
    z ∈ (m.assign t k v).destroyed ↔
      z ∈ m.destroyed ∨ (m.handles t k).zone = some z := by
  simp [assign, setHandle]

theorem Owned.assign {m : Zones} (h : Owned m) (t : ThreadId) (k : Slot)
    (v : Object) : Owned (m.assign t k v) := by
  have hlater : ∀ z, z < m.created → z < (m.assign t k v).created :=
    fun z hz => Nat.lt_succ_of_lt hz
  refine ⟨?_, ?_, ?_, ?_⟩
  · intro t' k' z hz
    rcases m.assign_zone t k v t' k' with ⟨-, -, hnew⟩ | ⟨-, hold⟩
    · obtain rfl := Option.some.inj (hnew.symm.trans hz)
      exact Nat.lt_succ_self _
    · exact hlater z (h.below t' k' z (hold.symm.trans hz))
  · intro z hz
    rcases (mem_destroyed_assign m t k v z).mp hz with hold | hzone
    · exact hlater z (h.gone z hold)
    · exact hlater z (h.below t k z hzone)
  · intro t' k' z hz hdestroyed
    rw [mem_destroyed_assign] at hdestroyed
    rcases m.assign_zone t k v t' k' with ⟨-, -, hnew⟩ | ⟨hother, hold⟩
    · -- the new zone has a number that no zone had before
      obtain rfl := Option.some.inj (hnew.symm.trans hz)
      rcases hdestroyed with hgone | hzone
      · exact Nat.lt_irrefl _ (h.gone _ hgone)
      · exact Nat.lt_irrefl _ (h.below t k _ hzone)
    · have hz' := hold.symm.trans hz
      rcases hdestroyed with hgone | hzone
      · exact h.alive t' k' z hz' hgone
      · obtain ⟨rfl, rfl⟩ := h.distinct t k t' k' z hzone hz'
        exact hother.elim (fun hne => hne rfl) (fun hne => hne rfl)
  · intro t' k' t'' k'' z hz hz'
    rcases m.assign_zone t k v t' k' with ⟨ht, hk, hnew⟩ | ⟨-, hold⟩ <;>
      rcases m.assign_zone t k v t'' k'' with ⟨ht', hk', hnew'⟩ | ⟨-, hold'⟩
    · exact ⟨ht'.trans ht.symm, hk'.trans hk.symm⟩
    · obtain rfl := Option.some.inj (hnew.symm.trans hz)
      exact absurd (h.below t'' k'' _ (hold'.symm.trans hz'))
        (Nat.lt_irrefl _)
    · obtain rfl := Option.some.inj (hnew'.symm.trans hz')
      exact absurd (h.below t' k' _ (hold.symm.trans hz)) (Nat.lt_irrefl _)
    · exact h.distinct t' k' t'' k'' z (hold.symm.trans hz)
        (hold'.symm.trans hz')

theorem Replaces.assign (m : Zones) (t : ThreadId) (k : Slot) (v : Object) :
    Replaces t [k] m (m.assign t k v) where
  owned := fun h => h.assign t k v
  created := Nat.le_succ _
  destroyed := fun z hz => (mem_destroyed_assign m t k v z).mpr (Or.inl hz)
  kept := by
    intro t' k' hother
    rw [assign_other v (hother.imp_right (fun hne heq =>
      hne (List.mem_singleton.mpr heq)))]
  replaced := by
    intro k' hk z hz
    obtain rfl := List.mem_singleton.mp hk
    exact (mem_destroyed_assign m t k' v z).mpr (Or.inr hz)

/-! ## What a dispatch does to the zones -/

theorem replaces_perform (t : ThreadId) (m : Zones) (action : HandlerAction) :
    Replaces t action.assigns m (perform t m action) := by
  cases action with
  | clear => exact Replaces.clear m t
  | caughtRespondError v => exact Replaces.assign m t .error v
  | caughtRespond v => exact Replaces.assign m t .resp v
  | _ => exact Replaces.refl t m

theorem replaces_foldl (t : ThreadId) (actions : List HandlerAction)
    (m : Zones) :
    Replaces t (actions.flatMap HandlerAction.assigns) m
      (actions.foldl (perform t) m) := by
  induction actions generalizing m with
  | nil => exact Replaces.refl t m
  | cons action actions ih =>
      rw [List.flatMap_cons, List.foldl_cons]
      exact (replaces_perform t m action).trans (ih _)

theorem replaces_finish (t : ThreadId) (m : Zones) (outcome : Outcome) :
    Replaces t outcome.assigns m (finish t m outcome) := by
  cases outcome with
  | respondedError v => exact Replaces.assign m t .error v
  | responded v => exact Replaces.assign m t .resp v
  | returned r => exact Replaces.refl t m
  | threw e => exact Replaces.refl t m

theorem replaces_runHandler (m : Zones) (t : ThreadId) (run : HandlerRun) :
    Replaces t run.assigns m (m.runHandler t run) :=
  (replaces_foldl t run.actions m).trans (replaces_finish t _ run.outcome)

/-! ## The handles hold the objects of `this_handler()` -/

/-- The handles of a thread hold the objects of its `this_handler()`. -/
def Agrees (m : Zones) (t : ThreadId) (handler : ThisHandler) : Prop :=
  (m.handles t .error).object.value = handler.error ∧
    (m.handles t .resp).object.value = handler.resp

theorem agrees_clear (m : Zones) (t : ThreadId) (handler : ThisHandler) :
    Agrees (m.clear t) t handler.clear := by
  refine ⟨?_, ?_⟩
  · show ((m.clear t).handles t .error).object.value = .nil
    unfold clear
    dsimp only
    rw [setHandle_self]
    rfl
  · show ((m.clear t).handles t .resp).object.value = .nil
    unfold clear
    dsimp only
    rw [setHandle_other _ (Or.inr (by simp)), setHandle_self]
    rfl

theorem agrees_assign_error {m : Zones} {t : ThreadId}
    {handler : ThisHandler} (h : Agrees m t handler) (v : Object) :
    Agrees (m.assign t .error v) t { handler with error := v } := by
  refine ⟨by rw [assign_self]; rfl, ?_⟩
  rw [assign_other v (Or.inr (by simp))]
  exact h.2

theorem agrees_assign_resp {m : Zones} {t : ThreadId} {handler : ThisHandler}
    (h : Agrees m t handler) (v : Object) :
    Agrees (m.assign t .resp v) t { handler with resp := v } := by
  refine ⟨?_, by rw [assign_self]; rfl⟩
  rw [assign_other v (Or.inr (by simp))]
  exact h.1

theorem agrees_perform {m : Zones} {t : ThreadId} {w : Worker ω V}
    (h : Agrees m t w.thisHandler) (action : HandlerAction) :
    Agrees (perform t m action) t (action.perform w).thisHandler := by
  cases action with
  | clear => exact agrees_clear m t w.thisHandler
  | caughtRespondError v => exact agrees_assign_error h v
  | caughtRespond v => exact agrees_assign_resp h v
  | _ => exact h

theorem agrees_runHandler {m : Zones} {t : ThreadId} {w : Worker ω V}
    (h : Agrees m t w.thisHandler) (run : HandlerRun) :
    Agrees (m.runHandler t run) t (run.perform w).2.thisHandler := by
  have hactions : ∀ (actions : List HandlerAction) (m : Zones)
      (w : Worker ω V), Agrees m t w.thisHandler →
      Agrees (actions.foldl (perform t) m) t
        (actions.foldl HandlerAction.perform w).thisHandler := by
    intro actions
    induction actions with
    | nil => exact fun _ _ h => h
    | cons action actions ih =>
        exact fun m w h => ih _ _ (agrees_perform h action)
  have hbefore := hactions run.actions m w h
  unfold runHandler HandlerRun.perform
  cases run.outcome with
  | respondedError v => exact agrees_assign_error hbefore v
  | responded v => exact agrees_assign_resp hbefore v
  | returned r => exact hbefore
  | threw e => exact hbefore

/-- Up to the zones the reply is the response with the captured object. -/
theorem reply_value {m : Zones} {t : ThreadId} {handler : ThisHandler}
    (h : Agrees m t handler) (session : SessionId) (outcome : Option Outcome)
    (resp : Response) :
    (m.reply t session outcome resp).value =
      { ServerSession.answer handler resp with empty := false } := by
  obtain ⟨herror, hresp⟩ := h
  have hown : ∀ o : Option Object,
      (o.map StoredObject.own).map StoredObject.value = o := by
    intro o
    cases o <;> rfl
  unfold PostedReply.value reply captured ServerSession.answer
  rw [herror, hresp]
  by_cases hseterror : handler.error.isNil = false
  · simp [hseterror, hown, herror, Response.captureError]
  · by_cases hsetresp : handler.resp.isNil = false
    · simp [hseterror, hsetresp, hown, hresp, Response.captureResult]
    · simp [hseterror, hsetresp, hown]

/-- So is its tuple. -/
theorem reply_frame {m : Zones} {t : ThreadId} {handler : ThisHandler}
    (h : Agrees m t handler) (session : SessionId) (outcome : Option Outcome)
    (resp : Response) :
    (m.reply t session outcome resp).frame =
      (ServerSession.answer handler resp).frame :=
  congrArg Response.frame (reply_value h session outcome resp)

end Zones

namespace ReplyZones

/-- The handles that the dispatch of a message assigns. -/
def State.assigns (s : State ω V) (session : ServerSession ω V)
    (msg : Object) : List Slot :=
  ((s.runOf mp session msg).map HandlerRun.assigns).getD []

theorem replaces_zonesAfter (s : State ω V) (t : ThreadId)
    (session : ServerSession ω V) (msg : Object) :
    s.zones.Replaces t (s.assigns mp session msg)
      (s.zonesAfter mp t session msg) := by
  have hclear := Zones.Replaces.clear s.zones t
  unfold State.assigns State.zonesAfter
  cases s.runOf mp session msg with
  | none => exact hclear
  | some run => exact hclear.trans (Zones.replaces_runHandler _ t run)

theorem agrees_zonesAfter (s : State ω V) (t : ThreadId)
    (session : ServerSession ω V) (msg : Object) :
    (s.zonesAfter mp t session msg).Agrees t
      ((session.disp.dispatch mp msg session.suppressExceptions).exec
        (session.prepare s.worker)).2.thisHandler := by
  have hclear := Zones.agrees_clear s.zones t s.worker.thisHandler
  have hstate := session.disp.dispatch_state mp msg
    session.suppressExceptions (session.prepare s.worker)
  unfold State.zonesAfter State.runOf
  cases hrun : session.disp.runOf mp msg (session.prepare s.worker) with
  | none =>
      rw [hrun] at hstate
      rw [hstate.1]
      exact hclear
  | some run =>
      rw [hrun] at hstate
      obtain ⟨v, hhandler, -, -, -, hstate⟩ := hstate
      rw [hstate]
      apply Zones.agrees_runHandler
      rw [hhandler]
      exact hclear

/-- What a dispatch posts. -/
theorem dispatch_posted (s : State ω V) (t : ThreadId)
    (session : ServerSession ω V) (msg : Object) :
    (s.dispatch mp t session msg).zones = s.zonesAfter mp t session msg ∧
      (s.dispatch mp t session msg).packed = s.packed ∧
      ((s.dispatch mp t session msg).posted = s.posted ∨
        ∃ resp, (s.dispatch mp t session msg).posted =
          s.posted ++ [(s.zonesAfter mp t session msg).reply t session.id
            ((s.runOf mp session msg).map HandlerRun.outcome) resp]) := by
  unfold State.dispatch
  rcases (session.disp.dispatch mp msg session.suppressExceptions).exec
    (session.prepare s.worker) with ⟨e | resp, w⟩
  · exact ⟨rfl, rfl, Or.inl rfl⟩
  · refine ⟨rfl, rfl, ?_⟩
    dsimp only [replies]
    split
    · exact Or.inl (List.append_nil _)
    · split
      · exact Or.inl (List.append_nil _)
      · exact Or.inr ⟨resp, rfl⟩

/-- Up to the zones, a dispatch posts the frames that `dispatchTask` posts. -/
theorem posted_frames (s : State ω V) (t : ThreadId)
    (session : ServerSession ω V) (msg : Object) :
    (s.dispatch mp t session msg).posted.map PostedReply.frame =
      s.posted.map PostedReply.frame ++ session.sentFrames mp msg s.worker := by
  have hagrees := agrees_zonesAfter mp s t session msg
  unfold State.dispatch ServerSession.sentFrames
  rw [ServerSession.dispatchTask_exec]
  rcases hexec :
    (session.disp.dispatch mp msg session.suppressExceptions).exec
      (session.prepare s.worker) with ⟨e | resp, w⟩
  · exact (List.append_nil _).symm
  · rw [hexec] at hagrees
    dsimp only
    rw [List.map_append, ServerSession.replyFrames_posts]
    unfold replies
    cases w.thisHandler.respEnabled <;> cases hempty : resp.empty <;>
      simp [Zones.reply_frame hagrees]

end ReplyZones
end Server
end RpcLib
