import RpcLib.Client.ConnectionFlags
import RpcLib.Foundation.RetryLoop

/-!
# `do_connect`: the loop over the attempts to connect

`Client::impl` has two overloads of `do_connect`.  The first one hands a copy
of the member `reconnectable` to the handler of `async_connect`; the handler of
either of them, when it is called with an error, asks its own predicate and
moves it into a call of the second overload.  The client of `Client.Impl`
leaves the predicate open; here it is a function with a state, and each
attempt in progress has a handler with the state that it has captured.

* `client_of_reachable`: these runs are runs of the client.
* `follows_of_reachable`: over any run, with calls, notifications and reads in
  between, the two overloads are one plain retry loop.
* `exists_run_of_retryLoop`: and every run of that loop is one of theirs.
-/

namespace RpcLib
namespace Client

open Protocol Transport Foundation TransitionSystem

variable {Buf ρ : Type} (mp : MsgPack Buf)

/-- The two overloads of `do_connect`. -/
inductive Overload where
  /-- `do_connect(endpoints)`. -/
  | first
  /-- `do_connect(endpoints, reconnectable)`. -/
  | again
  deriving DecidableEq

/-- A client that connects.  `outcomes` and `answers` are history: with what
the attempts have completed, and what the predicate has answered. -/
structure Connecting (ρ Buf : Type) where
  client : State Buf
  /-- The member `reconnectable`. -/
  reconnectable : ρ
  /-- The handlers of the `async_connect` operations in progress: whose lambda
  each of them is, and the predicate it has captured. -/
  handlers : List (Overload × ρ)
  /-- The error code of the `SystemError` that was thrown. -/
  thrown : Option ErrorCode
  outcomes : List ErrorCode
  answers : List Bool

namespace Connecting

/-- `do_connect(endpoints)`: `re` is a copy of the member. -/
def doConnect (s : Connecting ρ Buf) : Connecting ρ Buf :=
  let re := s.reconnectable
  { s with handlers := s.handlers ++ [(.first, re)] }

/-- `do_connect(endpoints, reconnectable)`. -/
def doConnectAgain (s : Connecting ρ Buf) (reconnectable : ρ) :
    Connecting ρ Buf :=
  { s with handlers := s.handlers ++ [(.again, reconnectable)] }

/-- The client that the constructor of `Client` has started to connect. -/
def initial (reconnectable : ρ) : Connecting ρ Buf :=
  doConnect {
    client := .initial
    reconnectable := reconnectable
    handlers := []
    thrown := none
    outcomes := []
    answers := [] }

variable (ask : ρ → Bool × ρ)

/-- The lambda in `do_connect(endpoints)`. -/
def onConnect (s : Connecting ρ Buf) (reconnectable : ρ) (ec : ErrorCode) :
    Connecting ρ Buf :=
  if ec = .success then { s with client := s.client.connected }
  else
    let (answer, reconnectable) := ask reconnectable
    let s := { s with answers := s.answers ++ [answer] }
    if answer then s.doConnectAgain reconnectable
    else { s with client := s.client.refused, thrown := some ec }

/-- The lambda in `do_connect(endpoints, reconnectable)`. -/
def onConnectAgain (s : Connecting ρ Buf) (reconnectable : ρ)
    (ec : ErrorCode) : Connecting ρ Buf :=
  if ec = .success then { s with client := s.client.connected }
  else
    let (answer, reconnectable) := ask reconnectable
    let s := { s with answers := s.answers ++ [answer] }
    if answer then s.doConnectAgain reconnectable
    else { s with client := s.client.refused, thrown := some ec }

/-- The completion of an attempt, by the overload that made it. -/
def onAttempt (s : Connecting ρ Buf) :
    Overload → ρ → ErrorCode → Connecting ρ Buf
  | .first => s.onConnect ask
  | .again => s.onConnectAgain ask

/-- The handlers of the two overloads do the same. -/
theorem onAttempt_eq (s : Connecting ρ Buf) (overload : Overload) :
    s.onAttempt ask overload = s.onConnect ask := by
  cases overload <;> rfl

end Connecting

/-- The events of the client that complete an attempt to connect. -/
def Event.isConnect : Event → Bool
  | .connectDone => true
  | .connectFailed _ => true
  | _ => false

/-- What can happen next: the `i`-th attempt in progress completes, or anything
that is not about connecting. -/
inductive ConnectingEvent where
  | attempted (i : Nat) (ec : ErrorCode)
  | other (e : Event)

namespace Connecting

variable (ask : ρ → Bool × ρ)

def step (s : Connecting ρ Buf) :
    ConnectingEvent → Option (Connecting ρ Buf)
  | .attempted i ec =>
      if s.client.escaped.isSome then none
      else s.handlers[i]?.map fun (overload, reconnectable) =>
        { s with
          handlers := s.handlers.eraseIdx i
          outcomes := s.outcomes ++ [ec] }.onAttempt ask overload
            reconnectable ec
  | .other e =>
      if e.isConnect then none
      else (Client.step mp s.client e).map fun client =>
        { s with client := client }

/-! ## What does not touch the connecting -/

/-- A handler that the connect handler posts. -/
def isFlush : Task Buf → Bool
  | .flushPending => true
  | _ => false

/-- No flush has been posted. -/
def NoFlush (client : State Buf) : Prop :=
  client.flushed = false ∧ client.strand.countP isFlush = 0

/-- One flush has been posted: it waits in the strand, or it has run. -/
def OneFlush (client : State Buf) : Prop :=
  (client.flushed = false ∧ client.strand.countP isFlush = 1) ∨
    (client.flushed = true ∧ client.strand.countP isFlush = 0)

/-- What an event of another kind leaves of the connection.  It posts no flush
and may run one. -/
structure Aside (s s' : State Buf) : Prop where
  isConnected : s'.isConnected = s.isConnected
  connecting : s'.connecting = s.connecting
  state : s'.state = s.state ∨ 0 < s.reading ∧ s'.state = .disconnected
  flush : (s'.flushed = s.flushed ∧
      s'.strand.countP isFlush = s.strand.countP isFlush) ∨
    (s'.flushed = true ∧
      s.strand.countP isFlush = s'.strand.countP isFlush + 1)

/-- The end of a read may be the end of the connection, and posts erases. -/
theorem Aside.readDone {s : State Buf} (ec : ErrorCode) (objs : List Object)
    (hreading : 0 < s.reading) : Aside s (s.readDone mp objs ec) := by
  have hframe := ReadFrame.readDone mp s objs ec
  obtain ⟨ids, hstrand⟩ := hframe.strand
  have hflush : (s.readDone mp objs ec).strand.countP isFlush =
      s.strand.countP isFlush := by
    rw [hstrand]
    simp [isFlush]
  by_cases hsuccess : ec = .success
  · subst hsuccess
    obtain ⟨hstate, hconnecting, -⟩ := readDone_success_link mp objs hreading
    exact ⟨hframe.isConnected, hconnecting, Or.inl hstate,
      Or.inl ⟨hframe.flushed, hflush⟩⟩
  · obtain ⟨hstate, hconnecting, -⟩ := readDone_failure_link mp s objs hsuccess
    refine ⟨hframe.isConnected, hconnecting, ?_,
      Or.inl ⟨hframe.flushed, hflush⟩⟩
    rw [hstate]
    split
    · exact Or.inr ⟨hreading, rfl⟩
    · exact Or.inl rfl

theorem aside_of_effect {s s' : State Buf} {e : Event}
    (hother : e.isConnect = false) (heffect : Effect mp s e s') :
    Aside s s' := by
  cases heffect with
  | post hdrawn =>
      refine ⟨rfl, rfl, Or.inl rfl, Or.inl ⟨rfl, ?_⟩⟩
      simp [State.postCall, isFlush]
  | notify funcName args =>
      refine ⟨rfl, rfl, Or.inl rfl, Or.inl ⟨rfl, ?_⟩⟩
      simp [State.notify, isFlush]
  | @insertCall c rest hstrand =>
      obtain ⟨hconnected, hstate, hconnecting, -⟩ :=
        insertCall_link mp { s with strand := rest } c
      have hentered := entered_insertCall mp { s with strand := rest } c
      refine ⟨hconnected, hconnecting, Or.inl hstate, Or.inl ⟨?_, ?_⟩⟩
      · unfold State.insertCall
        dsimp only
        split <;> rfl
      · rw [hentered.strand, hstrand]
        simp [isFlush]
  | writeNotification hstrand =>
      refine ⟨rfl, rfl, Or.inl rfl, Or.inl ⟨rfl, ?_⟩⟩
      simp [State.write, hstrand, isFlush]
  | flushPending hstrand =>
      refine ⟨rfl, rfl, Or.inl rfl, Or.inr ⟨rfl, ?_⟩⟩
      rw [hstrand]
      exact List.countP_cons_of_pos rfl
  | eraseCall hstrand =>
      refine ⟨rfl, rfl, Or.inl rfl, Or.inl ⟨rfl, ?_⟩⟩
      simp [State.eraseCall, hstrand, isFlush]
  | connected hconnecting => cases hother
  | retried hconnecting => cases hother
  | refused hconnecting => cases hother
  | readDone ec objs hreading => exact .readDone mp ec objs hreading
  | _ => exact ⟨rfl, rfl, Or.inl rfl, Or.inl ⟨rfl, rfl⟩⟩

theorem Aside.noFlush {s s' : State Buf} (h : Aside s s') (hnone : NoFlush s) :
    NoFlush s' := by
  obtain ⟨hnot, hcount⟩ := hnone
  rcases h.flush with ⟨hflushed, hsame⟩ | ⟨-, hless⟩
  · exact ⟨hflushed.trans hnot, hsame.trans hcount⟩
  · omega

theorem Aside.oneFlush {s s' : State Buf} (h : Aside s s')
    (hone : OneFlush s) : OneFlush s' := by
  unfold OneFlush at hone ⊢
  rcases h.flush with ⟨hflushed, hsame⟩ | ⟨hflushed, hless⟩
  · rw [hflushed, hsame]
    exact hone
  · rcases hone with ⟨-, hcount⟩ | ⟨-, hcount⟩
    · exact Or.inr ⟨hflushed, by omega⟩
    · omega

/-! ## What one step does -/

/-- The effects of a step: a completed attempt connects, is followed by another
one, or ends the process, and anything else is a step of the client. -/
inductive Effect (s : Connecting ρ Buf) :
    ConnectingEvent → Connecting ρ Buf → Prop
  | connected {i : Nat} {handler : Overload × ρ}
      (hhandler : s.handlers[i]? = some handler) :
      Effect s (.attempted i .success) { s with
        client := s.client.connected
        handlers := s.handlers.eraseIdx i
        outcomes := s.outcomes ++ [.success] }
  | retried {i : Nat} {handler : Overload × ρ} {ec : ErrorCode}
      (hhandler : s.handlers[i]? = some handler) (herror : ec ≠ .success)
      (hask : (ask handler.2).1 = true) :
      Effect s (.attempted i ec) { s with
        handlers := s.handlers.eraseIdx i ++ [(.again, (ask handler.2).2)]
        outcomes := s.outcomes ++ [ec]
        answers := s.answers ++ [true] }
  | refused {i : Nat} {handler : Overload × ρ} {ec : ErrorCode}
      (hhandler : s.handlers[i]? = some handler) (herror : ec ≠ .success)
      (hask : (ask handler.2).1 = false) :
      Effect s (.attempted i ec) { s with
        client := s.client.refused
        handlers := s.handlers.eraseIdx i
        thrown := some ec
        outcomes := s.outcomes ++ [ec]
        answers := s.answers ++ [false] }
  | other {e : Event} {client : State Buf} (hother : e.isConnect = false)
      (hstep : Client.step mp s.client e = some client) :
      Effect s (.other e) { s with client := client }

theorem effect_of_step {s s' : Connecting ρ Buf} {e : ConnectingEvent}
    (hstep : step mp ask s e = some s') : Effect mp ask s e s' := by
  cases e with
  | attempted i ec =>
      dsimp only [step] at hstep
      split at hstep
      · cases hstep
      obtain ⟨⟨overload, reconnectable⟩, hhandler, rfl⟩ :=
        Option.map_eq_some_iff.mp hstep
      dsimp only
      rw [onAttempt_eq]
      unfold onConnect
      by_cases hsuccess : ec = .success
      · rw [if_pos hsuccess]
        subst hsuccess
        exact .connected hhandler
      · rw [if_neg hsuccess]
        rcases hask : ask reconnectable with ⟨_ | _, next⟩
        · exact .refused hhandler hsuccess (by rw [hask])
        · have hretried : Effect mp ask s (.attempted i ec) _ :=
            .retried hhandler hsuccess (by rw [hask])
          rw [hask] at hretried
          exact hretried
  | other e =>
      dsimp only [step] at hstep
      split at hstep
      · cases hstep
      rename_i hother
      obtain ⟨client, hclient, rfl⟩ := Option.map_eq_some_iff.mp hstep
      exact .other (by simpa using hother) hclient

theorem alive_of_attempted {s s' : Connecting ρ Buf} {i : Nat}
    {ec : ErrorCode} (hstep : step mp ask s (.attempted i ec) = some s') :
    s.client.escaped = none := by
  dsimp only [step] at hstep
  split at hstep
  · cases hstep
  · rename_i halive
    simpa using halive

/-! ## The plain loop -/

/-- An attempt that completes without an error. -/
def succeeds (ec : ErrorCode) : Bool := ec == .success

/-- What the client has done when the plain loop stands at a verdict. -/
def Realises (s : Connecting ρ Buf) : Verdict ρ ErrorCode → Prop
  -- one attempt is in progress, and its handler has the predicate
  | .trying reconnectable =>
      (∃ overload, s.handlers = [(overload, reconnectable)] ∧
        (overload = .first ↔ s.outcomes = [])) ∧
      s.client.isConnected = false ∧ s.client.state = .initial ∧
      s.client.connecting = 1 ∧ s.client.reading = 0 ∧ NoFlush s.client ∧
      s.thrown = none
  | .succeeded =>
      s.handlers = [] ∧ s.client.isConnected = true ∧
      s.client.state ≠ .initial ∧ s.client.reading ≤ 1 ∧ OneFlush s.client ∧
      s.thrown = none
  | .declined ec =>
      s.handlers = [] ∧ s.client.isConnected = false ∧
      s.client.state = .disconnected ∧ s.client.reading = 0 ∧
      NoFlush s.client ∧ s.client.escaped = some .connect ∧ s.thrown = some ec

/-- The attempts made so far are the plain loop over their outcomes. -/
structure Follows (reconnectable : ρ) (s : Connecting ρ Buf) : Prop where
  phases : Phases s.client
  loop : ∃ verdict, retryLoop succeeds ask reconnectable s.outcomes =
    some (verdict, s.answers) ∧ Realises s verdict

theorem Follows.initial (reconnectable : ρ) :
    Follows ask reconnectable (initial reconnectable : Connecting ρ Buf) where
  phases := .initial
  loop := by
    refine ⟨.trying reconnectable, rfl, ⟨.first, rfl, by simp [Connecting.initial,
      doConnect]⟩, rfl, rfl, rfl, rfl, ⟨rfl, rfl⟩, rfl⟩

namespace Follows

variable {mp ask}

/-- There is a handler only while the loop is trying, and it is the only
one. -/
theorem trying {reconnectable : ρ} {s : Connecting ρ Buf}
    (h : Follows ask reconnectable s) {i : Nat} {handler : Overload × ρ}
    (hhandler : s.handlers[i]? = some handler) :
    retryLoop succeeds ask reconnectable s.outcomes =
        some (.trying handler.2, s.answers) ∧
      Realises s (.trying handler.2) ∧ s.handlers.eraseIdx i = [] := by
  obtain ⟨verdict, hloop, hrealises⟩ := h.loop
  cases verdict with
  | trying policy =>
      obtain ⟨⟨overload, hone, -⟩, -⟩ := id hrealises
      rw [hone] at hhandler ⊢
      cases i with
      | zero =>
          obtain rfl := Option.some.inj hhandler
          exact ⟨hloop, hrealises, rfl⟩
      | succ i => simp at hhandler
  | succeeded => simp [hrealises.1] at hhandler
  | declined ec => simp [hrealises.1] at hhandler

/-- What the client does besides leaves the loop where it stands. -/
theorem other {reconnectable : ρ} {s : Connecting ρ Buf}
    (h : Follows ask reconnectable s) {e : Event} {client : State Buf}
    (hother : e.isConnect = false)
    (hstep : Client.step mp s.client e = some client) :
    Follows ask reconnectable { s with client := client } := by
  obtain ⟨halive, heffect⟩ := Client.effect_of_step mp hstep
  have haside := aside_of_effect mp hother heffect
  have hphases := h.phases.step halive heffect
  obtain ⟨verdict, hloop, hrealises⟩ := h.loop
  refine ⟨hphases, verdict, hloop, ?_⟩
  cases verdict with
  | trying policy =>
      obtain ⟨hhandlers, hnot, hstate, hconnecting, hreading, hflush,
        hthrown⟩ := hrealises
      have hnot' := haside.isConnected.trans hnot
      -- only the end of a read changes the state, and nothing is read yet
      have hstate' : client.state = .initial := by
        rcases haside.state with hsame | ⟨hread, -⟩
        · exact hsame.trans hstate
        · omega
      exact ⟨hhandlers, hnot', hstate', haside.connecting.trans hconnecting,
        (hphases.attempting hnot').1, haside.noFlush hflush, hthrown⟩
  | succeeded =>
      obtain ⟨hhandlers, hconnected, hstate, -, hflush, hthrown⟩ := hrealises
      have hconnected' := haside.isConnected.trans hconnected
      have hstate' : client.state ≠ .initial := by
        rcases haside.state with hsame | ⟨-, hlost⟩
        · rwa [hsame]
        · rw [hlost]
          decide
      exact ⟨hhandlers, hconnected', hstate',
        (hphases.connected hconnected').2, haside.oneFlush hflush, hthrown⟩
  | declined ec =>
      -- the process has ended
      cases halive.symm.trans hrealises.2.2.2.2.2.1

theorem step {reconnectable : ρ} {s s' : Connecting ρ Buf}
    {e : ConnectingEvent} (h : Follows ask reconnectable s)
    (hstep : Connecting.step mp ask s e = some s') :
    Follows ask reconnectable s' := by
  have heffect := effect_of_step mp ask hstep
  cases heffect with
  | @connected i handler hhandler =>
      obtain ⟨hloop, hrealises, hnone⟩ := h.trying hhandler
      obtain ⟨-, -, -, hconnecting, hreading, ⟨hflushed, hcount⟩, hthrown⟩ :=
        hrealises
      have hclient : Client.Effect mp s.client .connectDone
          s.client.connected := .connected (by omega)
      have hphases : Phases s.client.connected :=
        h.phases.step (alive_of_attempted mp ask hstep) hclient
      -- the flush is the first one, and so is the read
      refine ⟨hphases, .succeeded, ?_, hnone, rfl, by simp [State.connected],
        ?_, Or.inl ⟨hflushed, ?_⟩, hthrown⟩
      · rw [retryLoop_concat hloop, retryLoop_of_success _ rfl]
        simp
      · show s.client.reading + 1 ≤ 1
        omega
      · show (s.client.strand ++ [Task.flushPending]).countP isFlush = 1
        rw [List.countP_append, hcount]
        rfl
  | @retried i handler ec hhandler herror hask =>
      -- the client stays as it is, and the handler has the predicate's new
      -- state
      obtain ⟨hloop, hrealises, hnone⟩ := h.trying hhandler
      obtain ⟨-, hrest⟩ := hrealises
      refine ⟨h.phases, .trying (ask handler.2).2, ?_,
        ⟨.again, by simp [hnone], by simp⟩, hrest⟩
      have hfailure : succeeds ec = false := by simpa [succeeds] using herror
      rw [retryLoop_concat hloop, retryLoop_of_failure _ hfailure, hask]
      rfl
  | @refused i handler ec hhandler herror hask =>
      obtain ⟨hloop, hrealises, hnone⟩ := h.trying hhandler
      obtain ⟨-, hnot, -, hconnecting, hreading, hflush, -⟩ := hrealises
      have hclient : Client.Effect mp s.client (.connectFailed false)
          s.client.refused := .refused (by omega)
      have hphases : Phases s.client.refused :=
        h.phases.step (alive_of_attempted mp ask hstep) hclient
      refine ⟨hphases, .declined ec, ?_, hnone, hnot, rfl, hreading, hflush,
        rfl, rfl⟩
      have hfailure : succeeds ec = false := by simpa [succeeds] using herror
      rw [retryLoop_concat hloop, retryLoop_of_failure _ hfailure, hask]
      rfl
  | other hother hclient => exact h.other hother hclient

end Follows

theorem follows_of_reachable {reconnectable : ρ} {s : Connecting ρ Buf}
    (hreach : Reachable (step mp ask) unguarded (initial reconnectable) s) :
    Follows ask reconnectable s :=
  hreach.invariant (.initial ask reconnectable) fun _ _ _ h _ hstep =>
    h.step hstep

/-- The event of the client that an event amounts to. -/
def clientEvent (s : Connecting ρ Buf) : ConnectingEvent → Event
  | .attempted i ec =>
      if ec = .success then .connectDone
      else .connectFailed
        ((s.handlers[i]?.map fun handler => (ask handler.2).1).getD false)
  | .other e => e

/-- A run of the connecting client is a run of the client, whose predicate
answers as this one does. -/
theorem client_of_reachable {reconnectable : ρ} {s : Connecting ρ Buf}
    (hreach : Reachable (step mp ask) unguarded (initial reconnectable) s) :
    Reachable (Client.step mp) unguarded State.initial s.client := by
  have hsim : ∀ (s : Connecting ρ Buf) (e : ConnectingEvent)
      (s' : Connecting ρ Buf) (client : State Buf),
      Follows ask reconnectable s ∧ s.client = client → unguarded s e →
      step mp ask s e = some s' →
      ∃ client', Reachable (Client.step mp) unguarded client client' ∧
        Follows ask reconnectable s' ∧ s'.client = client' := by
    rintro s e s' _ ⟨h, rfl⟩ - hstep
    suffices hclient : Client.step mp s.client (clientEvent ask s e) =
        some s'.client from
      ⟨s'.client, .single trivial hclient, h.step hstep, rfl⟩
    cases effect_of_step mp ask hstep with
    | connected hhandler =>
        have halive := alive_of_attempted mp ask hstep
        have hconnecting := (h.trying hhandler).2.1.2.2.2.1
        simp [clientEvent, Client.step, liveStep, halive, hconnecting]
    | retried hhandler herror hask =>
        have halive := alive_of_attempted mp ask hstep
        have hconnecting := (h.trying hhandler).2.1.2.2.2.1
        simp [clientEvent, Client.step, liveStep, halive, hconnecting,
          herror, hhandler, hask]
    | refused hhandler herror hask =>
        have halive := alive_of_attempted mp ask hstep
        have hconnecting := (h.trying hhandler).2.1.2.2.2.1
        simp [clientEvent, Client.step, liveStep, halive, hconnecting,
          herror, hhandler, hask]
    | other hother hclient => exact hclient
  obtain ⟨client, hclient, -, rfl⟩ :=
    hreach.simulate ⟨.initial ask reconnectable, rfl⟩ hsim
  exact hclient

/-- A first success connects: it stores the state, posts one flush behind what
the strand holds, and starts the only read. -/
theorem connected_of_success {reconnectable : ρ} {s s' : Connecting ρ Buf}
    (hreach : Reachable (step mp ask) unguarded (initial reconnectable) s)
    {i : Nat} (hstep : step mp ask s (.attempted i .success) = some s') :
    s'.client.state = .connected ∧
      s'.client.strand = s.client.strand ++ [.flushPending] ∧
      s.client.reading = 0 ∧ s'.client.reading = 1 := by
  have h := follows_of_reachable mp ask hreach
  have heffect := effect_of_step mp ask hstep
  cases heffect with
  | connected hhandler =>
      have hreading := (h.trying hhandler).2.1.2.2.2.2.1
      refine ⟨rfl, rfl, hreading, ?_⟩
      show s.client.reading + 1 = 1
      omega
  | retried hhandler herror hask => exact absurd rfl herror
  | refused hhandler herror hask => exact absurd rfl herror

/-- Every run of the plain loop is a run of the two overloads. -/
theorem exists_run_of_retryLoop {policy : ρ} {outcomes : List ErrorCode}
    {verdict : Verdict ρ ErrorCode} {answers : List Bool}
    (hloop : retryLoop succeeds ask policy outcomes = some (verdict, answers))
    {s : Connecting ρ Buf} {overload : Overload}
    (hhandlers : s.handlers = [(overload, policy)])
    (halive : s.client.escaped = none) :
    ∃ s', run (step mp ask) s (outcomes.map (.attempted 0)) = some s' ∧
      s'.outcomes = s.outcomes ++ outcomes ∧
      s'.answers = s.answers ++ answers := by
  induction outcomes generalizing policy verdict answers s overload with
  | nil =>
      obtain ⟨-, rfl⟩ := Prod.mk.inj (Option.some.inj hloop)
      exact ⟨s, rfl, by simp, by simp⟩
  | cons ec outcomes ih =>
      have hstep : step mp ask s (.attempted 0 ec) = some
          ({ s with handlers := [], outcomes := s.outcomes ++ [ec] }.onConnect
            ask policy ec) := by
        simp [step, halive, hhandlers, onAttempt_eq]
      rw [List.map_cons, run_cons, hstep, Option.bind_some]
      unfold onConnect
      cases firstRound_of_retryLoop hloop with
      | succeeded hsuccess hlast =>
          rw [if_pos (by simpa [succeeds] using hsuccess), hlast]
          exact ⟨_, rfl, rfl, by simp⟩
      | declined hfailure hask hlast =>
          rw [if_neg (by simpa [succeeds] using hfailure), hlast]
          dsimp only
          rw [hask]
          exact ⟨_, rfl, rfl, rfl⟩
      | again hfailure hask hrest =>
          rw [if_neg (by simpa [succeeds] using hfailure)]
          dsimp only
          rw [hask]
          obtain ⟨s', hrun, houtcomes, hanswers⟩ :=
            ih hrest (s := { s with
              handlers := [(.again, (ask policy).2)]
              outcomes := s.outcomes ++ [ec]
              answers := s.answers ++ [true] }) rfl halive
          refine ⟨s', hrun, ?_, ?_⟩
          · rw [houtcomes]
            simp
          · rw [hanswers]
            simp

/-- Connecting is one retry loop.  Over any run of the client the outcomes of
the attempts and the answers of the predicate are those of the plain loop, the
client has done what the loop stands for, and the predicate was asked once for
each failure, with its state carried on.  A success connects with one flush and
one read.  Every run of the plain loop takes place, and the two overloads
handle an outcome in the same way. -/
theorem reconnect_loop (reconnectable : ρ) :
    (∀ s : Connecting ρ Buf,
      Reachable (step mp ask) unguarded (initial reconnectable) s →
      (∃ verdict, retryLoop succeeds ask reconnectable s.outcomes =
        some (verdict, s.answers) ∧ Realises s verdict) ∧
      s.answers = answersOf ask reconnectable
        (s.outcomes.countP fun ec => !succeeds ec) ∧
      ∀ i s', step mp ask s (.attempted i .success) = some s' →
        s'.client.state = .connected ∧
          s'.client.strand = s.client.strand ++ [.flushPending] ∧
          s.client.reading = 0 ∧ s'.client.reading = 1) ∧
    (∀ outcomes verdict answers,
      retryLoop succeeds ask reconnectable outcomes =
        some (verdict, answers) →
      ∃ s : Connecting ρ Buf,
        run (step mp ask) (initial reconnectable)
          (outcomes.map (.attempted 0)) = some s ∧
        s.outcomes = outcomes ∧ s.answers = answers) ∧
    ∀ s : Connecting ρ Buf, s.onConnectAgain ask = s.onConnect ask := by
  refine ⟨fun s hreach => ?_, fun outcomes verdict answers hloop => ?_,
    fun s => ?_⟩
  · obtain ⟨verdict, hloop, hrealises⟩ :=
      (follows_of_reachable mp ask hreach).loop
    exact ⟨⟨verdict, hloop, hrealises⟩, retryLoop_answers hloop,
      fun i s' hstep => connected_of_success mp ask hreach hstep⟩
  · obtain ⟨s, hrun, houtcomes, hanswers⟩ :=
      exists_run_of_retryLoop mp ask hloop
        (s := (initial reconnectable : Connecting ρ Buf))
        (show _ = [(Overload.first, reconnectable)] from rfl) rfl
    exact ⟨s, hrun, houtcomes, hanswers⟩
  · exact onAttempt_eq ask s .again

end Connecting

/-! ## The default predicate -/

/-- The `reconnectable` of a client that is given none; its state is
`failure_count`.  How long it sleeps is left out. -/
def defaultReconnectable (failureCount : Nat) : Bool × Nat :=
  let failureCount := failureCount + 1
  (failureCount != 5, failureCount)

/-- It declines after the fifth failure at the latest. -/
theorem default_attempts_le {failureCount : Nat} (hbound : failureCount < 5)
    {outcomes : List ErrorCode} {verdict : Verdict Nat ErrorCode}
    {answers : List Bool}
    (hloop : retryLoop Connecting.succeeds defaultReconnectable failureCount
      outcomes = some (verdict, answers)) :
    failureCount + outcomes.length ≤ 5 := by
  induction outcomes generalizing failureCount verdict answers with
  | nil => exact Nat.le_of_lt hbound
  | cons ec outcomes ih =>
      rw [List.length_cons]
      cases firstRound_of_retryLoop hloop with
      | succeeded hsuccess hlast =>
          rw [hlast, List.length_nil]
          omega
      | declined hfailure hask hlast =>
          rw [hlast, List.length_nil]
          omega
      | again hfailure hask hrest =>
          -- it has agreed, so this was not the fifth failure
          have hcount : failureCount + 1 ≠ 5 := by
            simpa [defaultReconnectable] using hask
          have hbound' : failureCount + 1 < 5 := by omega
          have hle := ih hbound' hrest
          omega

namespace Connecting

/-- Two attempts that fail and one that succeeds, with a call in between. -/
theorem reconnect_loop_default :
    ∃ s : Connecting Nat (Option Object),
      run (step .reference defaultReconnectable) (initial 0)
        [.attempted 0 (.other 111), .other (.draw "f" []),
          .attempted 0 (.other 111), .attempted 0 .success] = some s ∧
      s.answers = [true, true] ∧
      (∃ verdict, retryLoop succeeds defaultReconnectable 0 s.outcomes =
        some (verdict, s.answers) ∧ Realises s verdict) := by
  obtain ⟨s, hrun⟩ : ∃ s : Connecting Nat (Option Object),
      run (step .reference defaultReconnectable) (initial 0)
        [.attempted 0 (.other 111), .other (.draw "f" []),
          .attempted 0 (.other 111), .attempted 0 .success] = some s :=
    ⟨_, rfl⟩
  have hanswers : (run (step .reference defaultReconnectable)
      (initial 0 : Connecting Nat (Option Object))
      [.attempted 0 (.other 111), .other (.draw "f" []),
        .attempted 0 (.other 111), .attempted 0 .success]).map answers =
    some [true, true] := rfl
  rw [hrun] at hanswers
  have hloop := (reconnect_loop .reference defaultReconnectable 0).1 s
    (reachable_of_run (eachStep_unguarded _ _ _) hrun)
  exact ⟨s, hrun, Option.some.inj hanswers, hloop.1⟩

end Connecting
end Client
end RpcLib
