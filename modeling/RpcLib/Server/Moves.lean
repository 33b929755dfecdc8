import RpcLib.Foundation.TransitionSystem
import RpcLib.Server.Impl

/-!
# Moving a `Server`

`Server` objects lie at addresses and are constructed, moved and destroyed
there.  A server owns its `impl` through `pimpl_` and shares its dispatcher
through `disp_`; the `impl` and every session point back to a server by its
address.  A pointer is `none` where it is null.  Reading through a null pointer
or at an address where no server lives is undefined, and nothing follows it.

* `moveAssign`, `moveConstruct`: the moves, member by member; `Moved` is what
  both do.
* `effect_of_step`: what a step can do.
-/

namespace RpcLib
namespace Server
namespace Ownership

open Foundation TransitionSystem

/-- Where a `Server` lies. -/
abbrev Address := Nat

/-- An `impl`, by how many servers were constructed before it. -/
abbrev ImplNumber := Nat

/-- A `Dispatcher`, by how many servers were constructed before it. -/
abbrev DispatcherNumber := Nat

/-- The members of a `Server`. -/
structure ServerObject where
  pimpl : Option ImplNumber
  disp : Option DispatcherNumber

/-- What `Server::impl` knows of its server and its sessions. -/
structure Impl where
  parent : Address
  /-- The `async_accept` operations in progress. -/
  accepting : Nat
  sessions : List SessionNumber
  suppressException : Bool

/-- What a `ServerSession` knows of its server. -/
structure Session where
  parent : Address
  /-- The `impl` whose `io_context` it uses. -/
  io : ImplNumber
  disp : Option DispatcherNumber
  suppressExceptions : Bool
  /-- The `close_session` handlers that are posted and have not run. -/
  closing : Nat

/-- The objects of a process. -/
structure State where
  server : Address → Option ServerObject
  impl : ImplNumber → Option Impl
  session : SessionNumber → Option Session
  /-- How many servers were constructed. -/
  constructed : Nat
  /-- How many sessions were created. -/
  created : Nat
  /-- A pointer was read that leads nowhere. -/
  undefined : Bool

namespace State

def initial : State where
  server := fun _ => none
  impl := fun _ => none
  session := fun _ => none
  constructed := 0
  created := 0
  undefined := false

/-- `pimpl_` of the server at an address. -/
def pimplOf (s : State) (a : Address) : Option ImplNumber :=
  (s.server a).bind ServerObject.pimpl

/-- `disp_` of the server at an address. -/
def dispOf (s : State) (a : Address) : Option DispatcherNumber :=
  (s.server a).bind ServerObject.disp

def setServer (s : State) (a : Address) (server : Option ServerObject) :
    State :=
  { s with server := Function.update s.server a server }

def setImpl (s : State) (i : ImplNumber) (impl : Option Impl) : State :=
  { s with impl := Function.update s.impl i impl }

def setSession (s : State) (k : SessionNumber) (session : Session) : State :=
  { s with session := Function.update s.session k (some session) }

/-! ## Construction, moves and destruction -/

/-- `Server(port)`: a new `impl`, which starts to accept, and a new
dispatcher. -/
def construct (s : State) (a : Address) : State :=
  { (s.setServer a (some ⟨some s.constructed, some s.constructed⟩)).setImpl
      s.constructed (some ⟨a, 1, [], false⟩) with
    constructed := s.constructed + 1 }

/-- Set `pimpl_` of the server at an address. -/
def setPimpl (s : State) (a : Address) (p : Option ImplNumber) : State :=
  { s with
    server := Function.update s.server a
      ((s.server a).map fun server => { server with pimpl := p }) }

/-- Set `disp_` of the server at an address. -/
def setDisp (s : State) (a : Address) (d : Option DispatcherNumber) : State :=
  { s with
    server := Function.update s.server a
      ((s.server a).map fun server => { server with disp := d }) }

/-- `delete` of what a `unique_ptr` has held. -/
def deleteImpl (s : State) : Option ImplNumber → State
  | none => s
  | some i => s.setImpl i none

/-- `pimpl_.reset(p)`. -/
def resetPimpl (s : State) (a : Address) (p : Option ImplNumber) : State :=
  (s.setPimpl a p).deleteImpl (s.pimplOf a)

/-- `pimpl_ = std::move(other.pimpl_)`: `reset(other.pimpl_.release())`. -/
def movePimpl (s : State) (dst src : Address) : State :=
  (s.setPimpl src none).resetPimpl dst (s.pimplOf src)

/-- `disp_ = std::move(other.disp_)`. -/
def moveDisp (s : State) (dst src : Address) : State :=
  (s.setDisp src none).setDisp dst (s.dispOf src)

/-- `Server::operator=(Server&&)`. -/
def moveAssign (s : State) (dst src : Address) : State :=
  (s.movePimpl dst src).moveDisp dst src

/-- `Server::Server(Server&&)`: null members first, then the assignments. -/
def moveConstruct (s : State) (dst src : Address) : State :=
  (s.setServer dst (some ⟨none, none⟩)).moveAssign dst src

/-- `~Server`, which has stopped the `io_context`, and the destructors of its
members. -/
def destroy (s : State) (a : Address) : State :=
  (s.resetPimpl a none).setServer a none

/-- `Server::suppress_exceptions` on the server of an `impl`. -/
def suppressExceptions (s : State) (i : ImplNumber) (impl : Impl)
    (suppress : Bool) : State :=
  s.setImpl i (some { impl with suppressException := suppress })

/-! ## The handlers of an `impl` -/

/-- The end of the accept handler. -/
def acceptNext (impl : Impl) (stopping : Bool) : Impl :=
  let left := impl.accepting - 1
  { impl with accepting := if stopping then left else left + 1 }

/-- The accept handler without an error: the session gets `parent` and
`parent->disp_`. -/
def accepted (s : State) (i : ImplNumber) (impl : Impl) (stopping : Bool) :
    State :=
  match s.server impl.parent with
  | none => { s with undefined := true }
  | some parent =>
      let registered := { impl with sessions := impl.sessions ++ [s.created] }
      { (s.setSession s.created
          ⟨impl.parent, i, parent.disp, impl.suppressException, 0⟩).setImpl i
            (some (acceptNext registered stopping)) with
        created := s.created + 1 }

/-- The accept handler with an error. -/
def acceptFailed (s : State) (i : ImplNumber) (impl : Impl)
    (stopping : Bool) : State :=
  s.setImpl i (some (acceptNext impl stopping))

/-- `ServerSession::close`, as far as its server is concerned. -/
def close (s : State) (k : SessionNumber) (session : Session) : State :=
  s.setSession k { session with closing := session.closing + 1 }

/-- The posted `parent_->close_session(self)`. -/
def closeSession (s : State) (k : SessionNumber) (session : Session) :
    State :=
  match (s.pimplOf session.parent).bind fun i =>
      (s.impl i).map fun impl => (i, impl) with
  | none => { s with undefined := true }
  | some (i, impl) =>
      (s.setSession k { session with closing := session.closing - 1 }).setImpl
        i (some { impl with sessions := impl.sessions.erase k })

end State

/-- What can happen next.  `stopping` is the flag of the thread that runs the
accept handler. -/
inductive Event where
  | construct (a : Address)
  | moveConstruct (dst src : Address)
  | moveAssign (dst src : Address)
  | destroy (a : Address)
  | suppressExceptions (a : Address) (suppress : Bool)
  | acceptDone (i : ImplNumber) (failed stopping : Bool)
  | close (k : SessionNumber)
  | closeSession (k : SessionNumber)

/-- A session whose `io_context` still exists. -/
def State.running (s : State) (k : SessionNumber) : Option Session :=
  (s.session k).filter fun session => (s.impl session.io).isSome

/-- The step of a process that has done nothing undefined.  Objects are
constructed where none lives, and used where one does. -/
def definedStep (s : State) : Event → Option State
  | .construct a => if (s.server a).isNone then some (s.construct a) else none
  | .moveConstruct dst src =>
      if (s.server dst).isNone ∧ (s.server src).isSome then
        some (s.moveConstruct dst src)
      else none
  | .moveAssign dst src =>
      if (s.server dst).isSome ∧ (s.server src).isSome then
        some (s.moveAssign dst src)
      else none
  | .destroy a => if (s.server a).isSome then some (s.destroy a) else none
  | .suppressExceptions a suppress =>
      (s.pimplOf a).bind fun i => (s.impl i).map fun impl =>
        s.suppressExceptions i impl suppress
  | .acceptDone i failed stopping =>
      (s.impl i).bind fun impl =>
        if 0 < impl.accepting then
          some (if failed then s.acceptFailed i impl stopping
            else s.accepted i impl stopping)
        else none
  | .close k => (s.running k).map fun session => s.close k session
  | .closeSession k =>
      (s.running k).bind fun session =>
        if 0 < session.closing then some (s.closeSession k session) else none

def step (s : State) (e : Event) : Option State :=
  if s.undefined = false then definedStep s e else none

/-! ## What the moves do -/

namespace State

/-- `parent` of an `impl` that exists. -/
def parentOf (s : State) (i : ImplNumber) : Option Address :=
  (s.impl i).map Impl.parent

/-- Setting a pointer of a server changes no other and neither constructs nor
destroys a server. -/
theorem setPimpl_frame (s : State) (a : Address) (p : Option ImplNumber)
    (b : Address) :
    (s.setPimpl a p).dispOf b = s.dispOf b ∧
      ((s.setPimpl a p).server b).isSome = (s.server b).isSome := by
  by_cases hb : b = a
  · subst hb
    cases hserver : s.server b <;> simp [setPimpl, dispOf, hserver]
  · simp [setPimpl, dispOf, hb]

theorem setDisp_frame (s : State) (a : Address) (d : Option DispatcherNumber)
    (b : Address) :
    (s.setDisp a d).pimplOf b = s.pimplOf b ∧
      ((s.setDisp a d).server b).isSome = (s.server b).isSome := by
  by_cases hb : b = a
  · subst hb
    cases hserver : s.server b <;> simp [setDisp, pimplOf, hserver]
  · simp [setDisp, pimplOf, hb]

theorem pimplOf_setPimpl (s : State) {a : Address}
    (hlive : (s.server a).isSome) (p : Option ImplNumber) (b : Address) :
    (s.setPimpl a p).pimplOf b = if b = a then p else s.pimplOf b := by
  obtain ⟨server, hserver⟩ := Option.isSome_iff_exists.mp hlive
  by_cases hb : b = a
  · simp [setPimpl, pimplOf, hserver, hb]
  · simp [setPimpl, pimplOf, hb]

theorem dispOf_setDisp (s : State) {a : Address}
    (hlive : (s.server a).isSome) (d : Option DispatcherNumber) (b : Address) :
    (s.setDisp a d).dispOf b = if b = a then d else s.dispOf b := by
  obtain ⟨server, hserver⟩ := Option.isSome_iff_exists.mp hlive
  by_cases hb : b = a
  · simp [setDisp, dispOf, hserver, hb]
  · simp [setDisp, dispOf, hb]

@[simp] theorem deleteImpl_frame (s : State) (p : Option ImplNumber) :
    (s.deleteImpl p).server = s.server ∧
      (s.deleteImpl p).session = s.session ∧
      (s.deleteImpl p).constructed = s.constructed ∧
      (s.deleteImpl p).created = s.created ∧
      (s.deleteImpl p).undefined = s.undefined := by
  cases p <;> simp [deleteImpl, setImpl]

theorem deleteImpl_impl (s : State) (p : Option ImplNumber)
    (i : ImplNumber) :
    (s.deleteImpl p).impl i = if p = some i then none else s.impl i := by
  cases p with
  | none => simp [deleteImpl]
  | some j =>
      by_cases hj : i = j
      · simp [deleteImpl, setImpl, hj]
      · simp [deleteImpl, setImpl, hj, Ne.symm hj]

end State

/-- What a move leaves: the members have gone from one server to the other,
the `impl` that the destination has owned is deleted, and nothing else has
changed. -/
structure Moved (dst src : Address) (s s' : State) : Prop where
  pimpl : ∀ a, s'.pimplOf a =
    if a = dst then s.pimplOf src else if a = src then none else s.pimplOf a
  disp : ∀ a, s'.dispOf a =
    if a = dst then s.dispOf src else if a = src then none else s.dispOf a
  parent : ∀ i, s'.parentOf i =
    if dst ≠ src ∧ s.pimplOf dst = some i then none else s.parentOf i
  session : s'.session = s.session
  constructed : s'.constructed = s.constructed
  undefined : s'.undefined = s.undefined

theorem moved_moveAssign (s : State) {dst src : Address}
    (hdst : (s.server dst).isSome) (hsrc : (s.server src).isSome) :
    Moved dst src s (s.moveAssign dst src) := by
  have hserver : ∀ a, ((s.movePimpl dst src).server a).isSome =
      (s.server a).isSome := by
    intro a
    simp [State.movePimpl, State.resetPimpl, State.setPimpl_frame]
  have hdst' : ((s.setPimpl src none).server dst).isSome := by
    rw [(s.setPimpl_frame src none dst).2]
    exact hdst
  have hpimpl : ∀ a, (s.movePimpl dst src).pimplOf a =
      if a = dst then s.pimplOf src else if a = src then none
        else s.pimplOf a := by
    intro a
    have hsame : (s.movePimpl dst src).pimplOf a =
        ((s.setPimpl src none).setPimpl dst (s.pimplOf src)).pimplOf a := by
      simp [State.movePimpl, State.resetPimpl, State.pimplOf]
    rw [hsame, State.pimplOf_setPimpl _ hdst',
      State.pimplOf_setPimpl s hsrc]
  have hdisp : ∀ a, (s.movePimpl dst src).dispOf a = s.dispOf a := by
    intro a
    have hsame : (s.movePimpl dst src).dispOf a =
        ((s.setPimpl src none).setPimpl dst (s.pimplOf src)).dispOf a := by
      simp [State.movePimpl, State.resetPimpl, State.dispOf]
    rw [hsame, (State.setPimpl_frame _ dst _ a).1,
      (s.setPimpl_frame src none a).1]
  refine ⟨fun a => ?_, fun a => ?_, fun i => ?_, ?_, ?_, ?_⟩
  · rw [State.moveAssign, State.moveDisp, (State.setDisp_frame _ dst _ a).1,
      (State.setDisp_frame _ src none a).1, hpimpl]
  · have hsrc'' : ((s.movePimpl dst src).server src).isSome := by
      rw [hserver]
      exact hsrc
    have hdst'' : (((s.movePimpl dst src).setDisp src none).server
        dst).isSome := by
      rw [(State.setDisp_frame _ src none dst).2, hserver]
      exact hdst
    rw [State.moveAssign, State.moveDisp, State.dispOf_setDisp _ hdst'',
      State.dispOf_setDisp _ hsrc'', hdisp, hdisp]
  · show Option.map _ ((s.movePimpl dst src).impl i) = _
    -- what is deleted is what the destination owns after the release
    rw [State.movePimpl, State.resetPimpl, State.deleteImpl_impl,
      State.pimplOf_setPimpl s hsrc]
    by_cases hsame : dst = src
    · simp [hsame, State.parentOf, State.setPimpl]
    · by_cases howned : s.pimplOf dst = some i
      · simp [hsame, howned]
      · simp [hsame, howned, State.parentOf, State.setPimpl]
  · simp [State.moveAssign, State.moveDisp, State.movePimpl,
      State.resetPimpl, State.setDisp, State.setPimpl]
  · simp [State.moveAssign, State.moveDisp, State.movePimpl,
      State.resetPimpl, State.setDisp, State.setPimpl]
  · simp [State.moveAssign, State.moveDisp, State.movePimpl,
      State.resetPimpl, State.setDisp, State.setPimpl]

/-- The null members of a new server own nothing. -/
theorem moved_moveConstruct (s : State) {dst src : Address}
    (hfree : s.server dst = none) (hsrc : (s.server src).isSome) :
    Moved dst src s (s.moveConstruct dst src) := by
  have hpimpl : ∀ a, (s.setServer dst (some ⟨none, none⟩)).pimplOf a =
      s.pimplOf a := by
    intro a
    by_cases ha : a = dst <;> simp [State.setServer, State.pimplOf, ha, hfree]
  have hdisp : ∀ a, (s.setServer dst (some ⟨none, none⟩)).dispOf a =
      s.dispOf a := by
    intro a
    by_cases ha : a = dst <;> simp [State.setServer, State.dispOf, ha, hfree]
  have hlive : ((s.setServer dst (some ⟨none, none⟩)).server src).isSome := by
    by_cases ha : src = dst <;> simp [State.setServer, ha, hsrc]
  have hmoved : Moved dst src (s.setServer dst (some ⟨none, none⟩))
      (s.moveConstruct dst src) :=
    moved_moveAssign _ (by simp [State.setServer]) hlive
  refine ⟨fun a => ?_, fun a => ?_, fun i => ?_, hmoved.session,
    hmoved.constructed, hmoved.undefined⟩
  · rw [← hpimpl src, ← hpimpl a]
    exact hmoved.pimpl a
  · rw [← hdisp src, ← hdisp a]
    exact hmoved.disp a
  · rw [← hpimpl dst]
    exact hmoved.parent i

/-- The states that an event leads to, with what enables it. -/
inductive Effect (s : State) : Event → State → Prop
  | construct {a : Address} (hfree : s.server a = none) :
      Effect s (.construct a) (s.construct a)
  | moveConstruct {dst src : Address} {s' : State}
      (hmoved : Moved dst src s s') : Effect s (.moveConstruct dst src) s'
  | moveAssign {dst src : Address} {s' : State}
      (hmoved : Moved dst src s s') : Effect s (.moveAssign dst src) s'
  | destroy {a : Address} (hlive : (s.server a).isSome) :
      Effect s (.destroy a) (s.destroy a)
  | suppressExceptions {a : Address} {i : ImplNumber} {impl : Impl}
      (suppress : Bool) (himpl : s.impl i = some impl) :
      Effect s (.suppressExceptions a suppress)
        (s.suppressExceptions i impl suppress)
  | accepted {i : ImplNumber} {impl : Impl} (stopping : Bool)
      (himpl : s.impl i = some impl) :
      Effect s (.acceptDone i false stopping) (s.accepted i impl stopping)
  | acceptFailed {i : ImplNumber} {impl : Impl} (stopping : Bool)
      (himpl : s.impl i = some impl) :
      Effect s (.acceptDone i true stopping) (s.acceptFailed i impl stopping)
  | close {k : SessionNumber} {session : Session}
      (hsession : s.session k = some session) :
      Effect s (.close k) (s.close k session)
  | closeSession {k : SessionNumber} {session : Session} {impl : Impl}
      (hsession : s.session k = some session)
      (himpl : s.impl session.io = some impl) :
      Effect s (.closeSession k) (s.closeSession k session)

/-- A step is taken while nothing undefined has happened and has one of the
effects. -/
theorem effect_of_step {s s' : State} {e : Event}
    (hstep : step s e = some s') : s.undefined = false ∧ Effect s e s' := by
  unfold step at hstep
  split at hstep
  · rename_i hdefined
    refine ⟨hdefined, ?_⟩
    cases e with
    | construct a =>
        obtain ⟨hfree, rfl⟩ : s.server a = none ∧ s.construct a = s' := by
          simpa [definedStep] using hstep
        exact .construct hfree
    | moveConstruct dst src =>
        obtain ⟨⟨hfree, hsrc⟩, rfl⟩ :
            (s.server dst = none ∧ (s.server src).isSome) ∧
              s.moveConstruct dst src = s' := by
          simpa [definedStep] using hstep
        exact .moveConstruct (moved_moveConstruct s hfree hsrc)
    | moveAssign dst src =>
        obtain ⟨⟨hdst, hsrc⟩, rfl⟩ :
            ((s.server dst).isSome ∧ (s.server src).isSome) ∧
              s.moveAssign dst src = s' := by
          simpa [definedStep] using hstep
        exact .moveAssign (moved_moveAssign s hdst hsrc)
    | destroy a =>
        obtain ⟨hlive, rfl⟩ : (s.server a).isSome ∧ s.destroy a = s' := by
          simpa [definedStep] using hstep
        exact .destroy hlive
    | suppressExceptions a suppress =>
        obtain ⟨i, -, hsome⟩ := Option.bind_eq_some_iff.mp hstep
        obtain ⟨impl, himpl, rfl⟩ := Option.map_eq_some_iff.mp hsome
        exact .suppressExceptions suppress himpl
    | acceptDone i failed stopping =>
        obtain ⟨impl, himpl, hsome⟩ := Option.bind_eq_some_iff.mp hstep
        obtain ⟨-, rfl⟩ : 0 < impl.accepting ∧
            (if failed then s.acceptFailed i impl stopping
              else s.accepted i impl stopping) = s' := by
          simpa using hsome
        cases failed with
        | false => exact .accepted stopping himpl
        | true => exact .acceptFailed stopping himpl
    | close k =>
        obtain ⟨session, hrunning, rfl⟩ := Option.map_eq_some_iff.mp hstep
        exact .close (Option.filter_eq_some_iff.mp hrunning).1
    | closeSession k =>
        obtain ⟨session, hrunning, hsome⟩ := Option.bind_eq_some_iff.mp hstep
        obtain ⟨hsession, hio⟩ := Option.filter_eq_some_iff.mp hrunning
        obtain ⟨impl, himpl⟩ := Option.isSome_iff_exists.mp hio
        obtain ⟨-, rfl⟩ : 0 < session.closing ∧
            s.closeSession k session = s' := by
          simpa using hsome
        exact .closeSession hsession himpl
  · cases hstep

end Ownership
end Server
end RpcLib
