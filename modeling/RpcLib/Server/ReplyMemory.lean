import RpcLib.Foundation.Component
import RpcLib.Server.Answering
import RpcLib.Server.ReplyIsolation

/-!
# The server beside the memory of its replies

`State` keeps a posted response by value.  In the program the handler on the
write strand holds copies of objects that may point into the zones of the
thread-local handles, and packs what it finds there when it runs.

`ReplyMemory` has these zones and copies.  It runs beside a server, or beside
any system that a server is a component of: a write packs the objects as they
are read at that time, and an object whose zone is destroyed reads as
anything.

* `Spares`: a dispatch assigns no handle of its thread that owns the zone of an
  object in a reply that waits.
* `Held`: the replies that wait are those on the write strands, in zones that
  their handles still own.
* `replyMemory`: the companion of the server; steps that spare it keep `Held`,
  and while it holds every write packs what was posted.
* `stepWithMemory`, `Sparing`: a system beside the memory, and the runs in which
  no dispatch takes the zone of a reply that waits.
* `without_memory`, `with_memory`: such a run is a run of the system, and a run
  of the system in which every dispatch finds the replies written is one of
  them.
-/

namespace RpcLib
namespace Server

open Protocol Transport Foundation TransitionSystem ReplyZones

variable {ω V Buf : Type} (mp : MsgPack Buf) (unpacker : Decoder Object UInt8)
  (disp : Dispatcher ω V) (garbage : StoredObject → Object)

/-- The zones, and for every session the replies that wait on its write
strand. -/
structure ReplyMemory where
  zones : Zones
  waiting : SessionNumber → List PostedReply

namespace ReplyMemory

/-- Before any handler has run. -/
def initial : ReplyMemory := ⟨.initial, fun _ => []⟩

/-- Read an object; anything when its zone is destroyed. -/
def fetch (m : ReplyMemory) (o : StoredObject) : Object :=
  (m.zones.read o).getD (garbage o)

/-- The response whose tuple is packed when the reply is written now. -/
def response (m : ReplyMemory) (p : PostedReply) : Response :=
  ⟨p.id, p.error.map (m.fetch garbage), p.result.map (m.fetch garbage), false⟩

/-- What a dispatch of the server does to the zones. -/
def view (m : ReplyMemory) (s : State ω V Buf) : ReplyZones.State ω V :=
  ⟨s.app, s.invocations, m.zones, [], []⟩

/-- The dispatch of a message of a session on a thread. -/
def dispatch (m : ReplyMemory) (s : State ω V Buf) (t : ThreadId)
    (k : SessionNumber) (msg : Object) : ReplyMemory :=
  let next :=
    (m.view s).dispatch mp t (s.connection k).toServerSession msg
  ⟨next.zones, Function.update m.waiting k (m.waiting k ++ next.posted)⟩

/-- The first reply that waits on a write strand is written. -/
def written (m : ReplyMemory) (k : SessionNumber) : ReplyMemory :=
  { m with waiting := Function.update m.waiting k (m.waiting k).tail }

section Waiting

variable (m : ReplyMemory) (s : State ω V Buf) (t : ThreadId)
  {j k : SessionNumber} (msg : Object)

theorem dispatch_waiting_self :
    (m.dispatch mp s t k msg).waiting k = m.waiting k ++
      ((m.view s).dispatch mp t (s.connection k).toServerSession msg).posted :=
  Function.update_self _ _ _

theorem dispatch_waiting_other (hj : j ≠ k) :
    (m.dispatch mp s t k msg).waiting j = m.waiting j :=
  Function.update_of_ne hj _ _

theorem written_waiting_self : (m.written k).waiting k = (m.waiting k).tail :=
  Function.update_self _ _ _

theorem written_waiting_other (hj : j ≠ k) :
    (m.written k).waiting j = m.waiting j :=
  Function.update_of_ne hj _ _

end Waiting

/-- The server as an event finds it: a write is about to pack what the memory
holds. -/
def before (m : ReplyMemory) (s : State ω V Buf) : Event → State ω V Buf
  | .runStrand _ k =>
      match (s.connection k).writeStrand, m.waiting k with
      | .posted (.write _) :: rest, p :: _ =>
          s.setConnection k
            { s.connection k with
              writeStrand :=
                .posted (.write (m.response garbage p)) :: rest }
      | _, _ => s
  | _ => s

/-- The memory after an event. -/
def after (m : ReplyMemory) (s : State ω V Buf) : Event → ReplyMemory
  | .dispatch t i =>
      match s.tasks[i]? with
      | some (k, msg) => m.dispatch mp s t k msg
      | none => m
  | .runStrand _ k =>
      match (s.connection k).writeStrand with
      | .posted (.write _) :: _ => m.written k
      | _ => m
  | _ => m

/-- A dispatch assigns no handle of its thread that owns the zone of an object
in a reply that waits. -/
def Spares (m : ReplyMemory) (s : State ω V Buf) : Event → Prop
  | .dispatch t i => ∀ k msg, s.tasks[i]? = some (k, msg) →
      ∀ j, ∀ p ∈ m.waiting j, p.thread = t → ∀ slot, zoneOf p slot ≠ none →
        slot ∉ (m.view s).assigns mp (s.connection k).toServerSession msg
  | _ => True

end ReplyMemory

/-! ## The responses that wait -/

/-- The response that a handler of the write strand writes. -/
def StrandTask.response : StrandTask → Option Response
  | .posted p => p.response
  | .closeSocket | .closeSession => none

/-- The responses that wait on the write strand. -/
def Connection.waitingResponses (c : Connection ω V Buf) : List Response :=
  c.writeStrand.filterMap StrandTask.response

namespace Zones

/-- The object of a handle lies in the zone that the handle owns. -/
def Homed (m : Zones) : Prop :=
  ∀ t k z, (m.handles t k).object.zone = some z →
    (m.handles t k).zone = some z

theorem Homed.initial : Homed .initial := by
  intro t k z hzone
  cases hzone

theorem Homed.setHandle {m : Zones} (h : Homed m) (t : ThreadId) (k : Slot)
    {handle : ObjectHandle}
    (hhandle : ∀ z, handle.object.zone = some z → handle.zone = some z) :
    Homed (m.setHandle t k handle) := by
  intro t' k' z hz
  by_cases hself : t' = t ∧ k' = k
  · obtain ⟨rfl, rfl⟩ := hself
    rw [setHandle_self] at hz ⊢
    exact hhandle z hz
  · rw [setHandle_other _ (not_and_or.mp hself)] at hz ⊢
    exact h t' k' z hz

theorem Homed.assign {m : Zones} (h : Homed m) (t : ThreadId) (k : Slot)
    (v : Object) : Homed (m.assign t k v) := by
  refine h.setHandle t k fun z hz => ?_
  have hnew : z = m.created := by
    unfold ObjectHandle.pack StoredObject.inZone at hz
    split at hz
    · cases hz
    · exact (Option.some.inj hz).symm
  rw [hnew]
  rfl

theorem Homed.clear {m : Zones} (h : Homed m) (t : ThreadId) :
    Homed (m.clear t) := by
  refine (h.setHandle t .resp ?_).setHandle t .error ?_
  · intro z hz
    cases hz
  · intro z hz
    cases hz

theorem Homed.perform {m : Zones} (h : Homed m) (t : ThreadId)
    (action : HandlerAction) : Homed (perform t m action) := by
  cases action with
  | clear => exact h.clear t
  | caughtRespondError v => exact h.assign t .error v
  | caughtRespond v => exact h.assign t .resp v
  | _ => exact h

theorem Homed.runHandler {m : Zones} (h : Homed m) (t : ThreadId)
    (run : HandlerRun) : Homed (m.runHandler t run) := by
  have hactions : ∀ (actions : List HandlerAction) (m : Zones), Homed m →
      Homed (actions.foldl (Zones.perform t) m) := by
    intro actions
    induction actions with
    | nil => exact fun _ h => h
    | cons action actions ih => exact fun m h => ih _ (h.perform t action)
  have hbefore := hactions run.actions m h
  unfold Zones.runHandler
  cases run.outcome with
  | respondedError v => exact hbefore.assign t .error v
  | responded v => exact hbefore.assign t .resp v
  | returned r => exact hbefore
  | threw e => exact hbefore

end Zones

theorem ReplyZones.homed_zonesAfter {s : ReplyZones.State ω V}
    (h : s.zones.Homed) (t : ThreadId) (session : ServerSession ω V)
    (msg : Object) : (s.zonesAfter mp t session msg).Homed := by
  unfold State.zonesAfter
  cases s.runOf mp session msg with
  | none => exact h.clear t
  | some run => exact (h.clear t).runHandler t run

/-- What the dispatch of a message posts is, up to the zones, what the task of
the session posts. -/
theorem ReplyMemory.dispatch_value (m : ReplyMemory) (s : State ω V Buf)
    (t : ThreadId) (session : ServerSession ω V) (msg : Object) :
    ((m.view s).dispatch mp t session msg).posted.map PostedReply.value =
      match (session.dispatchTask mp msg).exec (s.worker t) with
      | (.ok posted, _) => posted.filterMap Posted.response
      | (.error _, _) => [] := by
  have hagrees := agrees_zonesAfter mp (m.view s) t session msg
  have hstart : session.prepare (s.worker t) =
      session.prepare (m.view s).worker := rfl
  unfold ReplyZones.State.dispatch
  rw [ServerSession.dispatchTask_exec, hstart]
  rcases hexec :
    (session.disp.dispatch mp msg session.suppressExceptions).exec
      (session.prepare (m.view s).worker) with ⟨e | resp, w⟩
  · rfl
  · rw [hexec] at hagrees
    dsimp only
    rw [responses_posts, List.map_append]
    show [] ++ _ = _
    rw [List.nil_append]
    unfold replies
    cases henabled : w.thisHandler.respEnabled with
    | false => simp
    | true =>
        cases hempty : resp.empty with
        | true => simp
        | false =>
            rw [if_neg (by simp), if_neg (by simp), if_pos ⟨rfl, rfl⟩,
              List.map_singleton, Zones.reply_value hagrees, ← hempty,
              ← ServerSession.answer_empty w.thisHandler resp]

/-! ## The replies that wait -/

/-- The zones of the objects in a reply are owned by the handles from which it
was captured. -/
def PostedReply.Kept (m : Zones) (p : PostedReply) : Prop :=
  ∀ slot z, zoneOf p slot = some z →
    (m.handles p.thread slot).zone = some z

namespace PostedReply.Kept

theorem reply {m : Zones} (h : m.Homed) (t : ThreadId) (session : SessionId)
    (outcome : Option Outcome) (resp : Response) :
    PostedReply.Kept m (m.reply t session outcome resp) := by
  have hown : ∀ o : Option Object,
      (o.map StoredObject.own).bind StoredObject.zone = none := by
    intro o
    cases o <;> rfl
  intro slot z hz
  cases slot with
  | error =>
      have hfield : (if m.captured t = some .error then
          some (m.handles t .error).object
        else resp.error.map .own).bind StoredObject.zone = some z := hz
      split at hfield
      · exact h t .error z hfield
      · rw [hown] at hfield
        cases hfield
  | resp =>
      have hfield : (if m.captured t = some .resp then
          some (m.handles t .resp).object
        else resp.result.map .own).bind StoredObject.zone = some z := hz
      split at hfield
      · exact h t .resp z hfield
      · rw [hown] at hfield
        cases hfield

/-- A run that assigns none of these handles leaves them their zones. -/
theorem replaces {m m' : Zones} {t : ThreadId} {slots : List Slot}
    {p : PostedReply} (h : PostedReply.Kept m p)
    (hreplaces : m.Replaces t slots m')
    (hspares : p.thread = t → ∀ slot, zoneOf p slot ≠ none → slot ∉ slots) :
    PostedReply.Kept m' p := by
  intro slot z hz
  have hother : p.thread ≠ t ∨ slot ∉ slots := by
    by_cases hthread : p.thread = t
    · exact Or.inr (hspares hthread slot (by rw [hz]; simp))
    · exact Or.inl hthread
  rw [hreplaces.kept p.thread slot hother]
  exact h slot z hz

/-- What is packed for such a reply is what was posted. -/
theorem response {m : ReplyMemory} {p : PostedReply}
    (h : PostedReply.Kept m.zones p) (howned : m.zones.Owned) :
    m.response garbage p = p.value := by
  have hfetch : ∀ slot o, p.field slot = some o →
      m.fetch garbage o = o.value := by
    intro slot o ho
    have halive : o.Alive m.zones.destroyed := by
      intro z hz
      refine howned.alive p.thread slot z (h slot z ?_)
      unfold zoneOf
      rw [ho]
      exact hz
    unfold ReplyMemory.fetch Zones.read
    rw [StoredObject.read_of_alive halive]
    rfl
  unfold ReplyMemory.response PostedReply.value
  congr 1
  · exact Option.map_congr fun o ho => hfetch .error o ho
  · exact Option.map_congr fun o ho => hfetch .resp o ho

end PostedReply.Kept

/-- The replies that wait are those on the write strands, and the zones of
their objects are owned by the handles from which they were captured. -/
structure Held (s : State ω V Buf) (m : ReplyMemory) : Prop where
  numbered : Numbered s
  owned : m.zones.Owned
  homed : m.zones.Homed
  kept : ∀ k, ∀ p ∈ m.waiting k, PostedReply.Kept m.zones p
  waiting : ∀ k < s.created,
    (m.waiting k).map PostedReply.value = (s.connection k).waitingResponses
  late : ∀ k, s.created ≤ k → m.waiting k = []

namespace Held

theorem initial (app : ω) :
    Held (.initial disp app : State ω V Buf) .initial where
  numbered := .initial disp app
  owned := (WellStored.initial (V := V) app).owned
  homed := .initial
  kept := fun _ _ hp => (nomatch hp)
  waiting := fun _ hk => (nomatch hk)
  late := fun _ _ => rfl

variable {s s' : State ω V Buf} {m : ReplyMemory}

/-- Only sessions that exist have replies that wait. -/
theorem created (h : Held s m) {k : SessionNumber} {p : PostedReply}
    (hp : p ∈ m.waiting k) : k < s.created := by
  by_contra hlate
  rw [h.late k (Nat.le_of_not_lt hlate)] at hp
  cases hp

/-- While the memory is held, a write packs what was posted. -/
theorem before_eq (h : Held s m) (e : Event) : m.before garbage s e = s := by
  unfold ReplyMemory.before
  split
  · rename_i t k
    split
    · rename_i resp rest p later hstrand hwaiting
      have hk : k < s.created := h.created (hwaiting ▸ List.mem_cons_self)
      have hvalue := h.waiting k hk
      unfold Connection.waitingResponses at hvalue
      rw [hwaiting, hstrand, List.map_cons, List.filterMap_cons_some
        (show StrandTask.response (.posted (.write resp)) = some resp from rfl)]
        at hvalue
      have hpacked := (h.kept k p (hwaiting ▸ List.mem_cons_self)).response
        garbage h.owned
      rw [hpacked, (List.cons.inj hvalue).1, ← hstrand]
      exact congrArg (fun connection => { s with connection := connection })
        (Function.update_eq_self k s.connection)
    · rfl
  · rfl

/-- A step that leaves the sessions and their writes alone. -/
theorem frame (h : Held s m) (hnumbered : Numbered s')
    (hcreated : s'.created = s.created)
    (hwaiting : ∀ k, (s'.connection k).waitingResponses =
      (s.connection k).waitingResponses) : Held s' m where
  numbered := hnumbered
  owned := h.owned
  homed := h.homed
  kept := h.kept
  waiting := fun k hk => by
    rw [hwaiting k]
    exact h.waiting k (hcreated ▸ hk)
  late := fun k hk => h.late k (hcreated ▸ hk)

theorem accepted (h : Held s m) (t : ThreadId) (address : SessionId)
    (hnumbered : Numbered (s.accepted disp t address)) :
    Held (s.accepted disp t address) m where
  numbered := hnumbered
  owned := h.owned
  homed := h.homed
  kept := h.kept
  waiting := by
    intro k hk
    rcases Nat.lt_succ_iff_lt_or_eq.mp hk with hold | rfl
    · have hother : (s.accepted disp t address).connection k =
          s.connection k := s.setConnection_other (Nat.ne_of_lt hold) _
      rw [hother]
      exact h.waiting k hold
    · have hfresh : (s.accepted disp t address).connection s.created =
          .started ⟨address, disp, s.suppressException⟩ :=
        s.setConnection_self _ _
      rw [hfresh, h.late s.created (Nat.le_refl _)]
      rfl
  late := fun k hk => h.late k (Nat.le_of_succ_le hk)

/-- A dispatch posts one reply or none, in zones that it has just assigned. -/
theorem dispatch (h : Held s m) {t : ThreadId} {i : Nat} {k : SessionNumber}
    {msg : Object} (htask : s.tasks[i]? = some (k, msg))
    (hspares : ∀ j, ∀ p ∈ m.waiting j, p.thread = t → ∀ slot,
      zoneOf p slot ≠ none →
        slot ∉ (m.view s).assigns mp (s.connection k).toServerSession msg)
    (hnumbered : Numbered (s.dispatch mp t i k msg)) :
    Held (s.dispatch mp t i k msg) (m.dispatch mp s t k msg) := by
  have hk : k < s.created := h.numbered.tasks (k, msg)
    (List.mem_of_getElem? htask)
  obtain ⟨hzones, -, hposted⟩ := dispatch_posted mp (m.view s) t
    (s.connection k).toServerSession msg
  have hreplaces := replaces_zonesAfter mp (m.view s) t
    (s.connection k).toServerSession msg
  have hhomed := homed_zonesAfter mp (s := m.view s) h.homed t
    (s.connection k).toServerSession msg
  have hnext : (m.dispatch mp s t k msg).zones =
      (m.view s).zonesAfter mp t (s.connection k).toServerSession msg := hzones
  have hold : ∀ j, ∀ p ∈ m.waiting j,
      PostedReply.Kept (m.dispatch mp s t k msg).zones p := by
    intro j p hp
    rw [hnext]
    exact (h.kept j p hp).replaces hreplaces fun hthread =>
      hspares j p hp hthread
  refine ⟨hnumbered, ?_, ?_, ?_, ?_, ?_⟩
  · rw [hnext]
    exact hreplaces.owned h.owned
  · rw [hnext]
    exact hhomed
  · intro j p hp
    by_cases hj : j = k
    · subst hj
      rw [m.dispatch_waiting_self] at hp
      rcases List.mem_append.mp hp with hwaits | hnew
      · exact hold j p hwaits
      · rcases hposted with hnone | ⟨resp, hone⟩
        · rw [hnone] at hnew
          cases hnew
        · rw [hone] at hnew
          obtain rfl := List.mem_singleton.mp hnew
          rw [hnext]
          exact .reply hhomed t _ _ resp
    · rw [m.dispatch_waiting_other mp s t msg hj] at hp
      exact hold j p hp
  · intro j hj
    have hvalue := m.dispatch_value mp s t (s.connection k).toServerSession msg
    unfold State.dispatch
    dsimp only
    by_cases hjk : j = k
    · subst hjk
      rw [m.dispatch_waiting_self, List.map_append, h.waiting j hj, hvalue]
      generalize ((s.connection j).toServerSession.dispatchTask mp msg).exec
        (s.worker t) = ran
      obtain ⟨result, w⟩ := ran
      dsimp only
      rw [State.setConnection_self]
      unfold Connection.waitingResponses
      dsimp only
      rw [List.filterMap_append, List.filterMap_map]
      cases result <;> rfl
    · rw [m.dispatch_waiting_other mp s t msg hjk,
        State.setConnection_other s hjk]
      exact h.waiting j hj
  · intro j hj
    have hne : j ≠ k := by
      rintro rfl
      exact absurd hk (Nat.not_lt.mpr hj)
    rw [m.dispatch_waiting_other mp s t msg hne]
    exact h.late j hj

/-- A write takes the first reply that waits. -/
theorem written (h : Held s m) {k : SessionNumber} {resp : Response}
    {rest : List StrandTask} (hk : k < s.created)
    (hstrand : (s.connection k).writeStrand = .posted (.write resp) :: rest)
    (hnumbered : Numbered ((s.popStrand k rest).writeReply mp k resp)) :
    Held ((s.popStrand k rest).writeReply mp k resp) (m.written k) where
  numbered := hnumbered
  owned := h.owned
  homed := h.homed
  kept := by
    intro j p hp
    by_cases hj : j = k
    · subst hj
      rw [m.written_waiting_self] at hp
      exact h.kept j p (List.mem_of_mem_tail hp)
    · rw [m.written_waiting_other hj] at hp
      exact h.kept j p hp
  waiting := by
    intro j hj
    by_cases hjk : j = k
    · subst hjk
      have hwaiting := h.waiting j hk
      unfold Connection.waitingResponses at hwaiting ⊢
      rw [hstrand, List.filterMap_cons_some (show StrandTask.response
        (.posted (.write resp)) = some resp from rfl)] at hwaiting
      rw [m.written_waiting_self, List.map_tail, hwaiting]
      simp [State.writeReply, State.popStrand]
    · rw [m.written_waiting_other hjk]
      have hother : ((s.popStrand k rest).writeReply mp k resp).connection j =
          s.connection j := s.setConnection_twice hjk _ _
      rw [hother]
      exact h.waiting j hj
  late := by
    intro j hj
    have hne : j ≠ k := by
      rintro rfl
      exact absurd hk (Nat.not_lt.mpr hj)
    rw [m.written_waiting_other hne]
    exact h.late j hj

/-- A handler of the write strand of a session that writes no reply. -/
theorem popped (h : Held s m) {t : ThreadId} {k : SessionNumber}
    {task : StrandTask} {rest : List StrandTask}
    (hstrand : (s.connection k).writeStrand = task :: rest)
    (hsilent : task.response = none) (hnumbered : Numbered s')
    (hcreated : s'.created = s.created)
    (hthis : (s'.connection k).waitingResponses =
      rest.filterMap StrandTask.response)
    (hother : ∀ j, j ≠ k → s'.connection j = s.connection j) :
    Held s' (m.after mp s (.runStrand t k)) := by
  have hafter : m.after mp s (.runStrand t k) = m := by
    unfold ReplyMemory.after
    dsimp only
    rw [hstrand]
    cases task with
    | posted p =>
        cases p with
        | write resp => cases hsilent
        | _ => rfl
    | _ => rfl
  rw [hafter]
  refine h.frame hnumbered hcreated fun j => ?_
  by_cases hj : j = k
  · subst hj
    rw [hthis, Connection.waitingResponses, hstrand,
      List.filterMap_cons_none hsilent]
  · rw [hother j hj]

/-- Every step that spares the memory keeps it. -/
theorem step (h : Held s m) {e : Event} (hspares : m.Spares mp s e)
    (hstep : Server.step mp unpacker disp s e = some s') :
    Held s' (m.after mp s e) := by
  have hnumbered := h.numbered.step mp unpacker disp hstep
  cases (effect_of_step mp unpacker disp hstep).2 with
  | accepted address => exact h.accepted disp _ address hnumbered
  | @acceptFailed t =>
      obtain ⟨_, _, hnext⟩ := s.acceptFailed_eq t
      refine h.frame hnumbered ?_ fun k => ?_ <;> rw [hnext]
  | @register t j =>
      obtain ⟨_, _, hnext⟩ := s.register_eq t j
      refine h.frame hnumbered ?_ fun k => ?_ <;> rw [hnext]
  | @dispatch t i k msg htask =>
      have hafter : m.after mp s (.dispatch t i) =
          m.dispatch mp s t k msg := by
        unfold ReplyMemory.after
        dsimp only
        rw [htask]
      rw [hafter]
      exact h.dispatch mp htask (hspares k msg htask) hnumbered
  | @writeReply t k resp rest hk hstrand =>
      have hafter : m.after mp s (.runStrand t k) = m.written k := by
        unfold ReplyMemory.after
        dsimp only
        rw [hstrand]
      rw [hafter]
      exact h.written mp hk hstrand hnumbered
  | closeNext =>
      refine h.frame hnumbered rfl ?_
      exact State.setConnection_proj Connection.waitingResponses s
        (by simp [Connection.waitingResponses, StrandTask.response])
  | readClosed | readFailed =>
      refine h.frame hnumbered rfl ?_
      exact State.setConnection_proj Connection.waitingResponses s (by rfl)
  | readChunk =>
      refine h.frame hnumbered rfl fun j => ?_
      exact (State.setConnection_proj Connection.waitingResponses (s.endRead _)
        (by rfl) j).trans
        (State.setConnection_proj Connection.waitingResponses s (by rfl) j)
  | readLost =>
      refine h.frame hnumbered rfl fun j => ?_
      exact (State.setConnection_proj Connection.waitingResponses (s.endRead _)
        (by simp [Connection.waitingResponses, StrandTask.response]) j).trans
        (State.setConnection_proj Connection.waitingResponses s (by rfl) j)
  | close hk hstrand =>
      refine h.popped mp hstrand rfl hnumbered rfl ?_
        fun _ hj => s.setConnection_twice hj _ _
      simp [State.close, State.popStrand, Connection.waitingResponses,
        StrandTask.response]
  | closeSessionsPosted hk hstrand =>
      refine h.popped mp hstrand rfl hnumbered rfl ?_
        fun _ hj => s.setConnection_other hj _
      simp [State.closeSessions, State.setJob, State.popStrand,
        Connection.waitingResponses]
  | closeSocket hk hstrand =>
      refine h.popped mp hstrand rfl hnumbered rfl ?_
        fun _ hj => s.setConnection_twice hj _ _
      simp [State.closeSocket, State.popStrand, Connection.waitingResponses]
  | closeSession hk hstrand =>
      refine h.popped mp hstrand rfl hnumbered rfl ?_
        fun _ hj => s.setConnection_twice hj _ _
      simp [State.closeSession, State.popStrand, Connection.waitingResponses]
  | written =>
      refine h.frame hnumbered rfl ?_
      exact State.setConnection_proj Connection.waitingResponses s (by rfl)
  | _ => exact h.frame hnumbered rfl fun _ => rfl

end Held

/-- Every reply has left its write strand. -/
def State.AllWritten (s : State ω V Buf) : Prop :=
  ∀ k < s.created, (s.connection k).waitingResponses.length = 0

instance (s : State ω V Buf) : Decidable s.AllWritten :=
  inferInstanceAs (Decidable (∀ k < s.created, _ = 0))

/-- A dispatch finds every reply written. -/
def State.isPrompt (s : State ω V Buf) : Event → Bool
  | .dispatch _ _ => decide s.AllWritten
  | _ => true

/-- Then it spares the memory. -/
theorem Held.spares {s : State ω V Buf} {m : ReplyMemory} (h : Held s m)
    {e : Event} (hprompt : s.isPrompt e = true) : m.Spares mp s e := by
  cases e with
  | dispatch t i =>
      intro k msg _ j p hp
      have hwritten : s.AllWritten := by simpa [State.isPrompt] using hprompt
      have hj : j < s.created := h.created hp
      have hnone := congrArg List.length (h.waiting j hj)
      rw [List.length_map, hwritten j hj] at hnone
      rw [List.length_eq_zero_iff.mp hnone] at hp
      cases hp
  | _ => trivial

/-- The memory beside the server. -/
def replyMemory :
    Companion (step mp unpacker disp) ReplyMemory where
  before := fun m s e => m.before garbage s e
  after := fun m s e => m.after mp s e
  Spares := fun m s e => m.Spares mp s e
  Held := Held
  transparent := fun e h => h.before_eq garbage e
  kept := fun h hspares hstep => h.step mp unpacker disp hspares hstep

/-! ## Systems that a server is a component of -/

/-- The server as a component of itself. -/
def serverAlone :
    Component (step mp unpacker disp) (step mp unpacker disp) := .refl _

section Beside

universe u v

variable {mp unpacker disp} {σ : Type u} {ε : Type v}
  {next : σ → ε → Option σ}
  (c : Component next (step mp unpacker disp))

/-- The system beside the memory of its server's replies. -/
def stepWithMemory : σ × ReplyMemory → ε → Option (σ × ReplyMemory) :=
  c.attach (replyMemory mp unpacker disp garbage)

/-- A step within the guard that takes the zone of no reply that waits. -/
def Sparing (guard : σ → ε → Prop) (s : σ × ReplyMemory) (e : ε) : Prop :=
  guard s.1 e ∧ ∀ l, c.label s.1 e = some l → s.2.Spares mp (c.get s.1) l

/-- A dispatch finds every reply written. -/
def isPrompt (s : σ) (e : ε) : Bool := (c.label s e).all (c.get s).isPrompt

/-- A run that spares the memory is a run of the system. -/
theorem without_memory {guard : σ → ε → Prop} (first : σ × ReplyMemory)
    {s : σ × ReplyMemory} (hheld : Held (c.get first.1) first.2)
    (hreach : Reachable (stepWithMemory garbage c) (Sparing c guard) first s) :
    Reachable next guard first.1 s.1 ∧ Held (c.get s.1) s.2 :=
  c.project (replyMemory mp unpacker disp garbage) hheld hreach

theorem spares_of_isPrompt {s : σ} {m : ReplyMemory} {e : ε}
    (h : Held (c.get s) m) (hprompt : isPrompt c s e = true) {l : Event}
    (hlabel : c.label s e = some l) : m.Spares mp (c.get s) l := by
  unfold isPrompt at hprompt
  rw [hlabel] at hprompt
  exact h.spares mp hprompt

/-- A run in which every dispatch finds the replies written spares the
memory. -/
theorem with_memory {guard : σ → ε → Prop} (first : σ) {s : σ}
    {m : ReplyMemory} (hheld : Held (c.get first) m)
    (hreach : Reachable next (fun s e => guard s e ∧ isPrompt c s e = true)
      first s) :
    ∃ m', Reachable (stepWithMemory garbage c) (Sparing c guard)
      (first, m) (s, m') ∧ Held (c.get s) m' := by
  obtain ⟨m', hrun, hheld'⟩ :=
    c.lift (replyMemory mp unpacker disp garbage) hheld
      (fun _ _ _ hguard hheld _ hlabel =>
        spares_of_isPrompt c hheld hguard.2 hlabel) hreach
  exact ⟨m', hrun.mono fun _ _ hguard => ⟨hguard.1.1, hguard.2⟩, hheld'⟩

/-- The same of an infinite run. -/
theorem without_memory_forever {run : ℕ → σ × ReplyMemory} {label : ℕ → ε}
    (hheld : Held (c.get (run 0).1) (run 0).2)
    (hspares : ∀ n, Sparing c unguarded (run n) (label n))
    (hsteps : ∀ n, stepWithMemory garbage c (run n) (label n) =
      some (run (n + 1)))
    (n : ℕ) : next (run n).1 (label n) = some (run (n + 1)).1 :=
  c.project_forever (replyMemory mp unpacker disp garbage) hheld
    (fun n => (hspares n).2) hsteps n

theorem with_memory_forever {run : ℕ → σ} {label : ℕ → ε} {m : ReplyMemory}
    (hheld : Held (c.get (run 0)) m)
    (hprompt : ∀ n, isPrompt c (run n) (label n) = true)
    (hsteps : ∀ n, next (run n) (label n) = some (run (n + 1))) :
    ∃ memory : ℕ → ReplyMemory, memory 0 = m ∧ ∀ n,
      stepWithMemory garbage c (run n, memory n) (label n) =
        some (run (n + 1), memory (n + 1)) ∧
      Sparing c unguarded (run n, memory n) (label n) := by
  obtain ⟨memory, hfirst, hmemory⟩ :=
    c.lift_forever (replyMemory mp unpacker disp garbage) hheld
      (fun n _ hheld l hlabel =>
        spares_of_isPrompt c hheld (hprompt n) hlabel) hsteps
  exact ⟨memory, hfirst, fun n =>
    ⟨(hmemory n).1, trivial, (hmemory n).2⟩⟩

end Beside

end Server
end RpcLib
