import RpcLib.Client.LostConnection
import RpcLib.Transport.SocketWriter

/-!
# Destroying a client

`~Client` stops the `io_context` and joins its thread: a handler that has not
started by then never runs.  The client is put on a socket that takes the
bytes of the write in progress, and its destruction is one more step, after
which nothing happens.

An accepted message waits on the strand, in `pending_calls` or in
`write_queue_`, or the socket has taken it (`Conserved`); an accepted call has
its response, waits for it, or has lost its promise (`Answers`).
`always_done_iff` says that the destruction finishes the accepted work exactly
when nothing of it is left in one of these places.
-/

namespace RpcLib
namespace Client

open Protocol Transport Foundation TransitionSystem

variable {Buf : Type} (mp : MsgPack Buf)

/-! ## The client and its socket -/

/-- A client, its socket, and whether `~Client` has returned. -/
structure Lifetime (Buf : Type) where
  client : State Buf
  /-- The socket has taken all bytes of the write in progress. -/
  transferred : Bool
  /-- The buffers that the socket has taken completely, in order. -/
  sent : List Buf
  destroyed : Bool

namespace Lifetime

def initial : Lifetime Buf := ⟨.initial, false, [], false⟩

/-- The writer of the client on its socket. -/
def socket (l : Lifetime Buf) : SocketWriter Buf :=
  ⟨l.client.writer, l.transferred, l.sent⟩

/-- A step of the client, the socket takes the rest of the buffer in progress,
or `~Client` runs: no handler starts between `io.stop()` and the end of the
thread. -/
inductive Event where
  | client (e : Client.Event)
  | transfer
  | destroy

/-- `async_write` reports success only when all bytes have been taken. -/
def admits (l : Lifetime Buf) : Client.Event → Bool
  | .writeDone _ .success => l.transferred
  | _ => true

def stillTransferred (l : Lifetime Buf) : Client.Event → Bool
  | .writeDone _ _ => false
  | _ => l.transferred

/-- The step of a client that is not destroyed. -/
def liveStep (l : Lifetime Buf) : Event → Option (Lifetime Buf)
  | .client e =>
      if l.admits e then
        (Client.step mp l.client e).map fun s =>
          { l with client := s, transferred := l.stillTransferred e }
      else none
  | .transfer =>
      match l.client.writer.outstanding with
      | [] => none
      | item :: _ =>
          if l.transferred then none
          else some { l with transferred := true, sent := l.sent ++ [item] }
  | .destroy =>
      if l.client.escaped.isSome then none
      else some { l with destroyed := true }

def step (l : Lifetime Buf) (e : Event) : Option (Lifetime Buf) :=
  if l.destroyed then none else liveStep mp l e

/-- The states that an event leads to, with what enables it. -/
inductive Effect (l : Lifetime Buf) : Event → Lifetime Buf → Prop
  | client {e : Client.Event} {s : State Buf} (hadmits : l.admits e = true)
      (hstep : Client.step mp l.client e = some s) :
      Effect l (.client e)
        { l with client := s, transferred := l.stillTransferred e }
  | transfer {item : Buf} {rest : List Buf}
      (houtstanding : l.client.writer.outstanding = item :: rest)
      (hnot : l.transferred = false) :
      Effect l .transfer
        { l with transferred := true, sent := l.sent ++ [item] }
  | destroy : Effect l .destroy { l with destroyed := true }

theorem effect_of_step {l l' : Lifetime Buf} {e : Event}
    (hstep : step mp l e = some l') :
    l.destroyed = false ∧ Effect mp l e l' := by
  unfold step at hstep
  split at hstep
  · cases hstep
  rename_i hlive
  refine ⟨by simpa using hlive, ?_⟩
  cases e with
  | client e =>
      obtain ⟨hadmits, s, hclient, rfl⟩ : l.admits e = true ∧
          ∃ s, Client.step mp l.client e = some s ∧
            ({ l with client := s, transferred := l.stillTransferred e } :
              Lifetime Buf) = l' := by
        simpa [liveStep] using hstep
      exact .client hadmits hclient
  | transfer =>
      rcases houtstanding : l.client.writer.outstanding with _ | ⟨item, rest⟩
      · simp [liveStep, houtstanding] at hstep
      · obtain ⟨hnot, rfl⟩ : l.transferred = false ∧
            ({ l with transferred := true, sent := l.sent ++ [item] } :
              Lifetime Buf) = l' := by
          simpa [liveStep, houtstanding] using hstep
        exact .transfer houtstanding hnot
  | destroy =>
      obtain ⟨-, rfl⟩ : l.client.escaped = none ∧
          ({ l with destroyed := true } : Lifetime Buf) = l' := by
        simpa [liveStep] using hstep
      exact .destroy

end Lifetime

/-! ## Where the accepted messages are -/

/-- Every message that was posted has been handed to the writer, is parked, or
is queued on the strand, once. -/
structure Conserved (s : State Buf) : Prop where
  tracked : RequestsTracked mp s
  placed : (s.handedOver.filter (isMessage mp) ++
    (s.pendingCalls.filter (isMessage mp) ++
      s.strand.filterMap (Task.operation mp))).Perm s.posted

namespace Conserved

theorem initial : Conserved mp (State.initial : State Buf) :=
  ⟨.initial mp, .nil⟩

variable {mp}

theorem step {s s' : State Buf} {e : Event} (h : Conserved mp s)
    (heffect : Effect mp s e s') : Conserved mp s' := by
  refine ⟨h.tracked.step heffect, ?_⟩
  have hplaced : (s.messages mp).Perm s.posted := h.placed
  show (s'.messages mp).Perm s'.posted
  rcases Ordered.messages_of_effect h.tracked heffect with
    ⟨posted, hposted, hmessages⟩ |
    ⟨buffer, rest, rfl, hstrand, hposted, hmessages⟩
  · rw [hmessages, hposted]
    exact hplaced.append_right posted
  · rw [hmessages, hposted]
    -- the notification only changes its place among the parked messages
    refine List.Perm.trans ?_ hplaced
    rw [State.messages, hstrand]
    exact List.Perm.append_left _ List.perm_middle.symm

end Conserved

/-! ## Where the accepted calls are -/

/-- A promise that has an outcome was satisfied by a response with the index of
its call, or was destroyed. -/
def Answers (s : State Buf) : Prop :=
  ∀ c ∈ s.ran, ∀ outcome, s.shared (.call c.number) = some outcome →
    outcome = .brokenPromise ∨ ∃ r ∈ s.responses, r.id = c.idx.toUInt32 ∧
      outcome = State.outcomeOf r c.funcName

theorem outcomeOf_ne_brokenPromise (response : Response) (funcName : String) :
    State.outcomeOf response funcName ≠ .brokenPromise := by
  unfold State.outcomeOf
  split <;> simp

/-- Destroying an entry adds no outcome but `brokenPromise`. -/
theorem abandon_cases {shared : Shared} {entry : Option Entry} {p : PromiseId}
    {outcome : Outcome}
    (houtcome : State.abandon shared entry p = some outcome) :
    shared p = some outcome ∨ outcome = .brokenPromise := by
  cases entry with
  | none => exact Or.inl houtcome
  | some entry =>
      cases hcell : shared p with
      | some before =>
          have hsame := extends_abandon shared (some entry) p before hcell
          rw [houtcome] at hsame
          exact Or.inl hsame.symm
      | none =>
          right
          by_cases hp : p = entry.promise
          · subst hp
            have hfilled : State.abandon shared (some entry) entry.promise =
                some .brokenPromise := by
              show WriteOnce.fill shared entry.promise .brokenPromise _ = _
              rw [WriteOnce.fill_of_empty hcell]
              exact Function.update_self ..
            exact Option.some.inj (houtcome.symm.trans hfilled)
          · have hsame : State.abandon shared (some entry) p = shared p :=
              WriteOnce.fill_of_ne shared hp _
            rw [houtcome, hcell] at hsame
            cases hsame

namespace Answers

theorem initial : Answers (State.initial : State Buf) := by
  simp [Answers, State.initial]

variable {mp}

theorem insertCall {s : State Buf} (h : Answers s) (htracked : Tracked s)
    {c : Call} {rest : List (Task Buf)}
    (hstrand : s.strand = .insertCall c :: rest) :
    Answers ({ s with strand := rest }.insertCall mp c) := by
  have hentered := entered_insertCall mp { s with strand := rest } c
  intro d hd outcome houtcome
  rw [hentered.ran] at hd
  rw [hentered.shared] at houtcome
  rw [hentered.responses]
  rcases abandon_cases houtcome with hbefore | hbroken
  · rcases List.mem_append.mp hd with hold | hnew
    · exact h d hold outcome hbefore
    · obtain rfl := List.mem_singleton.mp hnew
      have hnot := (htracked.calls.not_ran_of_queued hstrand).2
      have hempty : s.shared (.call d.number) = none :=
        htracked.table.unrun _ hnot
      cases hempty.symm.trans hbefore
  · exact Or.inl hbroken

/-- More responses, and nothing else of what is looked at. -/
theorem of_responses {s s' : State Buf} (h : Answers s) (hran : s'.ran = s.ran)
    (hshared : s'.shared = s.shared) (hresponses : s.responses ⊆ s'.responses) :
    Answers s' := by
  intro c hc outcome houtcome
  rw [hran] at hc
  rw [hshared] at houtcome
  rcases h c hc outcome houtcome with hbroken | ⟨r, hr, hresponse⟩
  · exact Or.inl hbroken
  · exact Or.inr ⟨r, hresponses hr, hresponse⟩

/-- A response satisfies the promise of the call with its index. -/
theorem satisfied {s : State Buf} (h : Answers s) (htracked : Tracked s)
    {entry : Entry} {response : Response}
    (hentry : s.ongoingCalls response.id.toInt32 = some entry) :
    Answers (s.satisfied entry response) := by
  intro c hc outcome houtcome
  by_cases hown : entry.promise = .call c.number
  · -- the entry with this promise is the entry of the call
    obtain ⟨-, hkey, rfl⟩ := htracked.entry_of_call hentry
      (htracked.calls.ran_subset hc) hown
    refine Or.inr ⟨response, ?_, ?_, ?_⟩
    · exact List.mem_append_right _ List.mem_cons_self
    · rw [← hkey, UInt32.toUInt32_toInt32]
    · have hfilled : (s.satisfied c.entry response).shared (.call c.number) =
          some (State.outcomeOf response c.funcName) := Function.update_self ..
      exact Option.some.inj (houtcome.symm.trans hfilled)
  · have hsame : (s.satisfied entry response).shared (.call c.number) =
        s.shared (.call c.number) :=
      Function.update_of_ne (Ne.symm hown) _ _
    rcases h c hc outcome (hsame.symm.trans houtcome) with
      hbroken | ⟨r, hr, hresponse⟩
    · exact Or.inl hbroken
    · exact Or.inr ⟨r, List.mem_append_left _ hr, hresponse⟩

theorem handleResponse {s : State Buf} (h : Answers s) (htracked : Tracked s)
    (obj : Object) : Answers (s.handleResponse mp obj) := by
  cases hdecoded : Response.ofHandle mp obj with
  | none =>
      rw [handleResponse_of_undecoded mp hdecoded]
      exact h
  | some response =>
      have hframe := ReadFrame.currentCall s response.id.toInt32
      obtain ⟨hshared, hresponses, -⟩ :=
        currentCall_frame s response.id.toInt32
      cases hcell : s.shared
          (s.currentCall response.id.toInt32).2.promise with
      | none =>
          have hcurrent : Answers (s.currentCall response.id.toInt32).1 :=
            h.of_responses hframe.ran hshared (by simp [hresponses])
          rw [handleResponse_of_empty mp hdecoded hcell]
          exact hcurrent.satisfied
            ⟨htracked.calls.read hframe, htracked.table.currentCall _⟩
            (currentCall_entry s response.id.toInt32)
      | some outcome =>
          rw [handleResponse_of_filled mp hdecoded hcell]
          exact h.of_responses hframe.ran hshared
            (List.subset_append_left ..)

theorem handleResponses {s : State Buf} (h : Answers s)
    (htracked : Tracked s) (objs : List Object) :
    Answers (s.handleResponses mp objs) := by
  induction objs generalizing s with
  | nil => exact h
  | cons obj objs ih =>
      have htracked' : Tracked (s.handleResponse mp obj) :=
        ⟨htracked.calls.read (ReadFrame.handleResponse mp s obj),
          htracked.table.handleResponse obj⟩
      unfold State.handleResponses
      dsimp only
      split
      · exact h.handleResponse htracked obj
      · exact ih (h.handleResponse htracked obj) htracked'

theorem step {s s' : State Buf} {e : Event} (h : Answers s)
    (htracked : Tracked s) (heffect : Effect mp s e s') : Answers s' := by
  cases heffect with
  | insertCall hstrand => exact h.insertCall htracked hstrand
  | @eraseCall id rest hstrand =>
      intro c hc outcome houtcome
      rcases abandon_cases houtcome with hbefore | hbroken
      · exact h c hc outcome hbefore
      · exact Or.inl hbroken
  | readDone ec objs hreading =>
      by_cases hsuccess : ec = .success
      · subst hsuccess
        obtain ⟨reading, hdone⟩ := readDone_success mp s objs
        rw [hdone]
        exact h.handleResponses htracked objs
      · obtain ⟨reading, state, hdone⟩ := readDone_error mp s objs hsuccess
        rw [hdone]
        exact h
  | _ => exact h

end Answers

/-! ## When the accepted work is done -/

/-- No write fails. -/
def NoWriteFails (_ : Lifetime Buf) (e : Lifetime.Event) : Prop :=
  ∀ i ec, e = .client (.writeDone i ec) → ec = .success

namespace Lifetime

/-- What waits in `write_queue_` without having been taken by the socket. -/
def unsent (l : Lifetime Buf) : List Buf :=
  l.client.writer.writeQueue.drop (if l.transferred then 1 else 0)

/-- The socket has taken every message that was accepted, and the promise of
every call that was accepted has been satisfied by a response to it. -/
structure AcceptedDone (l : Lifetime Buf) : Prop where
  sent : (l.sent.filter (isMessage mp)).Perm l.client.posted
  answered : ∀ c ∈ l.client.queued ++ l.client.ran,
    ∃ r ∈ l.client.responses, r.id = c.idx.toUInt32 ∧
      l.client.shared (.call c.number) =
        some (State.outcomeOf r c.funcName)

/-- None of the places an accepted message can be in holds one, no call that
has been entered waits for its response, and none has lost its promise. -/
structure NothingLeft (l : Lifetime Buf) : Prop where
  strand : l.client.strand.filterMap (Task.operation mp) = []
  pending : l.client.pendingCalls.filter (isMessage mp) = []
  queue : l.unsent.filter (isMessage mp) = []
  waiting : ∀ c ∈ l.client.ran,
    l.client.ongoingCalls c.idx = some c.entry →
    l.client.shared (.call c.number) ≠ none
  promises : ∀ c ∈ l.client.ran,
    l.client.shared (.call c.number) ≠ some .brokenPromise

/-- What holds of every client whose writes do not fail. -/
structure Working (l : Lifetime Buf) : Prop where
  conserved : Conserved mp l.client
  waiting : Waiting l.client
  answers : Answers l.client
  flowing : SocketWriter.Flowing l.socket

theorem Working.initial : Working mp (initial : Lifetime Buf) :=
  ⟨.initial mp, .initial, .initial, .initial⟩

/-- Writing a list of buffers keeps the socket going. -/
theorem flowing_writeEach {w : AsyncWriter Buf} {transferred : Bool}
    {sent : List Buf} (h : SocketWriter.Flowing ⟨w, transferred, sent⟩)
    (items : List Buf) :
    SocketWriter.Flowing
      ⟨(State.writeEach mp w items).1, transferred, sent⟩ := by
  induction items generalizing w with
  | nil => exact h
  | cons item items ih => exact ih (h.write item)

/-- A handler of the client writes to its socket, and nothing else. -/
theorem flowing_client {l : Lifetime Buf} {e : Client.Event} {s : State Buf}
    (h : SocketWriter.Flowing l.socket) (hadmits : l.admits e = true)
    (hfails : NoWriteFails l (.client e))
    (heffect : Client.Effect mp l.client e s) :
    SocketWriter.Flowing ⟨s.writer, l.stillTransferred e, l.sent⟩ := by
  cases heffect with
  | @insertCall c rest hstrand =>
      show SocketWriter.Flowing
        ⟨(State.insertCall mp { l.client with strand := rest } c).writer,
          l.transferred, l.sent⟩
      unfold State.insertCall
      dsimp only
      split
      · exact (flowing_writeEach mp h l.client.pendingCalls).write
          (c.buffer mp)
      · exact h
  | @writeNotification buffer rest hstrand => exact h.write buffer
  | flushPending hstrand =>
      exact flowing_writeEach mp h l.client.pendingCalls
  | readDone ec objs hreading =>
      rw [(ReadFrame.readDone mp l.client objs ec).writer]
      exact h
  | @written i ec houtstanding =>
      obtain rfl := hfails i ec rfl
      exact h.settled houtstanding hadmits
  | _ => exact h

theorem Working.step {l l' : Lifetime Buf} {e : Event} (h : Working mp l)
    (hfails : NoWriteFails l e) (hstep : step mp l e = some l') :
    Working mp l' := by
  cases (effect_of_step mp hstep).2 with
  | @client e s hadmits hclient =>
      have heffect := (Client.effect_of_step mp hclient).2
      exact ⟨h.conserved.step heffect, h.waiting.step mp hclient,
        h.answers.step h.waiting.tracked heffect,
        flowing_client mp h.flowing hadmits hfails heffect⟩
  | transfer houtstanding hnot =>
      exact { h with flowing := h.flowing.transfer houtstanding hnot }
  | destroy => exact { h with }

/-- What was handed to the writer is sent or waits in the queue. -/
theorem Working.handedOver {l : Lifetime Buf} (h : Working mp l) :
    l.sent ++ l.unsent = l.client.handedOver := by
  have hwriter := h.conserved.tracked.writer
  have hrunning : l.client.writer.outstanding =
      l.client.writer.writeQueue.take 1 := by
    rcases h.flowing.running with htake | ⟨hclosed, -⟩
    · exact htake
    · cases hwriter.open_.symm.trans hclosed
  have haccepted : l.client.writer.popped.map Prod.fst ++
      l.client.writer.writeQueue = l.client.writer.accepted :=
    h.flowing.accepted
  have hstarted : l.client.writer.popped.map Prod.fst ++
      l.client.writer.outstanding = l.client.writer.started :=
    h.flowing.started
  have hsent : l.sent = if l.transferred then l.client.writer.started
      else l.client.writer.popped.map Prod.fst := h.flowing.sent
  rw [← hwriter.accepted, ← haccepted, hsent]
  unfold unsent
  cases l.transferred with
  | true =>
      rw [if_pos rfl, if_pos rfl, ← hstarted, hrunning, List.append_assoc,
        List.take_append_drop]
  | false => rw [if_neg (by simp), if_neg (by simp), List.drop_zero]

/-- The accepted messages have been sent exactly when none is left in the
queue, in `pending_calls` and on the strand. -/
theorem Working.sent_iff {l : Lifetime Buf} (h : Working mp l) :
    (l.sent.filter (isMessage mp)).Perm l.client.posted ↔
      l.unsent.filter (isMessage mp) = [] ∧
        l.client.pendingCalls.filter (isMessage mp) = [] ∧
        l.client.strand.filterMap (Task.operation mp) = [] := by
  have hplaced := h.conserved.placed
  rw [← h.handedOver, List.filter_append, List.append_assoc] at hplaced
  constructor
  · intro hsent
    have hlength := (hplaced.trans hsent.symm).length_eq
    simp only [List.length_append] at hlength
    refine ⟨?_, ?_, ?_⟩ <;> apply List.eq_nil_of_length_eq_zero <;> omega
  · rintro ⟨hqueue, hpending, hstrand⟩
    rw [hqueue, hpending, hstrand] at hplaced
    simpa using hplaced

/-- The accepted work is done exactly when nothing of it is left. -/
theorem Working.done_iff {l : Lifetime Buf} (h : Working mp l) :
    AcceptedDone mp l ↔ NothingLeft mp l := by
  constructor
  · intro hdone
    obtain ⟨hqueue, hpending, hstrand⟩ := h.sent_iff.mp hdone.sent
    refine ⟨hstrand, hpending, hqueue, fun c hc _ hempty => ?_,
      fun c hc hbroken => ?_⟩
    · obtain ⟨r, -, -, houtcome⟩ :=
        hdone.answered c (List.mem_append_right _ hc)
      cases hempty.symm.trans houtcome
    · obtain ⟨r, -, -, houtcome⟩ :=
        hdone.answered c (List.mem_append_right _ hc)
      exact outcomeOf_ne_brokenPromise r c.funcName
        (Option.some.inj (houtcome.symm.trans hbroken))
  · intro hleft
    refine ⟨h.sent_iff.mpr ⟨hleft.queue, hleft.pending, hleft.strand⟩,
      fun c hc => ?_⟩
    have hnone : l.client.queued = [] := by
      rw [List.eq_nil_iff_forall_not_mem]
      intro d hd
      obtain ⟨task, htask, hcall⟩ := List.mem_filterMap.mp hd
      -- a queued call is an operation on the strand
      have hoperation : d.buffer mp ∈
          l.client.strand.filterMap (Task.operation mp) := by
        refine List.mem_filterMap.mpr ⟨task, htask, ?_⟩
        cases task with
        | insertCall c =>
            obtain rfl : c = d := by simpa [Task.call] using hcall
            rfl
        | _ => cases hcall
      rw [hleft.strand] at hoperation
      cases hoperation
    rw [hnone, List.nil_append] at hc
    cases hcell : l.client.shared (.call c.number) with
    | none =>
        have hentry := h.waiting.kept c hc hcell
        exact absurd hcell (hleft.waiting c hc hentry)
    | some outcome =>
        rcases h.answers c hc outcome hcell with rfl | ⟨r, hr, hid, rfl⟩
        · exact absurd hcell (hleft.promises c hc)
        · exact ⟨r, hr, hid, rfl⟩

/-- When `~Client` has returned, the accepted work is done. -/
def DoneAtEnd (l : Lifetime Buf) : Prop :=
  l.destroyed = true → AcceptedDone mp l

/-- The destruction starts when nothing is left. -/
def DestroysIdle (l : Lifetime Buf) (e : Event) : Prop :=
  e = .destroy → NothingLeft mp l

/-- In every run in which no write fails, whatever the server answers, the
accepted work is done when `~Client` returns exactly when the destruction
starts with no accepted message on the strand, in `pending_calls` or in
`write_queue_`, no entered call without an outcome and no call whose promise
was destroyed. -/
theorem always_done_iff (es : List Event)
    (hfails : EachStep (step mp) NoWriteFails initial es) :
    Always (step mp) (DoneAtEnd mp) initial es ↔
      EachStep (step mp) (DestroysIdle mp) initial es := by
  refine always_iff_eachStep
    (J := fun l => Working mp l ∧ DoneAtEnd mp l) (fun _ h => h.2)
    (fun l e l' h hsucceeds hidle hstep => ?_)
    (fun l e l' h hsucceeds hnot hstep => ?_)
    ⟨.initial mp, by simp [DoneAtEnd, Lifetime.initial]⟩ hfails
  · have hworking := h.1.step mp hsucceeds hstep
    refine ⟨hworking, fun hdestroyed => ?_⟩
    obtain ⟨hlive, heffect⟩ := effect_of_step mp hstep
    cases heffect with
    | destroy =>
        have hdone := (h.1.done_iff mp).mpr (hidle rfl)
        exact { hdone with }
    | client hadmits hclient => cases hlive.symm.trans hdestroyed
    | transfer houtstanding hnot => cases hlive.symm.trans hdestroyed
  · unfold DestroysIdle at hnot
    push Not at hnot
    obtain ⟨rfl, hleft⟩ := hnot
    obtain ⟨-, heffect⟩ := effect_of_step mp hstep
    cases heffect with
    | destroy =>
        intro hdone
        have hdone' : AcceptedDone mp l := { hdone rfl with }
        exact hleft ((h.1.done_iff mp).mp hdone')

/-- A connected client notifies and is destroyed. -/
def notifyThenDestroy : List Event :=
  [.client .connectDone, .client .runStrand, .client (.notify "log" []),
    .destroy]

/-- The handler of the notification is still on the strand, where `io.stop()`
leaves it. -/
theorem notification_dies_with_client :
    EachStep (step .reference) NoWriteFails initial notifyThenDestroy ∧
      (run (step .reference) initial notifyThenDestroy).map
        (fun l => (l.destroyed, l.client.posted, l.sent)) =
        some (true, [some (.array [.ofInt8 2, .str "log", .array []])], []) ∧
      ¬ Always (step .reference) (DoneAtEnd .reference) initial
        notifyThenDestroy := by
  have hends : (run (step .reference) initial notifyThenDestroy).map
      (fun l => (l.destroyed, l.client.posted, l.sent)) =
      some (true, [some (.array [.ofInt8 2, .str "log", .array []])], []) :=
    rfl
  refine ⟨?_, hends, fun halways => ?_⟩
  · apply eachStep_of_forall
    rintro e he l i ec rfl
    simp [notifyThenDestroy] at he
  · obtain ⟨l, hrun, hend⟩ := Option.map_eq_some_iff.mp hends
    simp only [Prod.mk.injEq] at hend
    obtain ⟨hdestroyed, hposted, hsent⟩ := hend
    have hdone := (halways.of_run hrun) hdestroyed
    have hlength := hdone.sent.length_eq
    simp [hposted, hsent] at hlength

/-- A call is sent and answered before the client is destroyed. -/
def answeredThenDestroy : List Event :=
  [.client .connectDone, .client .runStrand, .client (.draw "get" []),
    .client (.post 0), .client .runStrand, .transfer,
    .client (.readDone .success
      [.array [.ofUInt32 1, .ofUInt32 1, .nil, .str "x"]]), .destroy]

theorem always_done_iff_answered :
    Always (step .reference) (DoneAtEnd .reference) initial
      answeredThenDestroy := by
  have hfails : EachStep (step .reference) NoWriteFails initial
      answeredThenDestroy := by
    apply eachStep_of_forall
    rintro e he l i ec rfl
    simp [answeredThenDestroy] at he
  have hsplit : answeredThenDestroy =
      answeredThenDestroy.dropLast ++ [.destroy] := rfl
  refine (always_done_iff .reference answeredThenDestroy hfails).mpr ?_
  rw [hsplit]
  -- only the last step is a destruction
  refine eachStep_append
    (eachStep_of_forall (by simp [DestroysIdle, answeredThenDestroy]) _) ?_
  rintro _ ⟨⟩ _ ⟨⟩
  refine ⟨fun _ => ⟨rfl, rfl, rfl, fun c hc _ hempty => ?_,
    fun c hc hbroken => ?_⟩, trivial⟩
  · obtain rfl := List.mem_singleton.mp hc
    cases hempty
  · obtain rfl := List.mem_singleton.mp hc
    cases hbroken

end Lifetime

end Client
end RpcLib
