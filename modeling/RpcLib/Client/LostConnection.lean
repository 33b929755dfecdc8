import RpcLib.Client.CallTable
import RpcLib.Client.ConnectionFlags

/-!
# Calls that wait for a lost connection

No error branch of the read handler looks at `ongoing_calls`.  What becomes of
the calls after the loss is decided by the handlers that are still queued on
the strand, and by the calls that are posted later.

* `tableAfter`: the table and the promises after the queued handlers.  Once the
  read loop has ended only the posting of a call changes it
  (`tableAfter_of_effect`).
* `noneHanging_iff`: no call is left hanging exactly when a read error finds no
  call that would still wait after the queued handlers, and no call is posted
  later.
-/

namespace RpcLib
namespace Client

open Protocol Transport Foundation TransitionSystem

variable {Buf : Type} (mp : MsgPack Buf)

/-! ## The table after the queued handlers -/

/-- `ongoing_calls` and the shared states of the promises. -/
abbrev Table := (Int32 → Option Entry) × Shared

def State.table (s : State Buf) : Table := (s.ongoingCalls, s.shared)

/-- What a handler of the strand does to the table. -/
def settle (t : Table) : Task Buf → Table
  | .insertCall c =>
      (Function.update t.1 c.idx (some c.entry),
        State.abandon t.2 (t.1 c.idx))
  | .eraseCall id =>
      (Function.update t.1 id.toInt32 none,
        State.abandon t.2 (t.1 id.toInt32))
  | .writeNotification _ => t
  | .flushPending => t

/-- The table after the handlers queued on the strand. -/
def State.tableAfter (s : State Buf) : Table := s.strand.foldl settle s.table

/-- Some entry has a promise without an outcome. -/
def Hanging (t : Table) : Prop :=
  ∃ key entry, t.1 key = some entry ∧ t.2 entry.promise = none

/-- Running a handler of the strand changes the table by `settle`. -/
theorem runTask_table (s : State Buf) (task : Task Buf) :
    (s.runTask mp task).table = settle s.table task := by
  cases task with
  | insertCall c =>
      have hentered := entered_insertCall mp s c
      show ((s.insertCall mp c).ongoingCalls, (s.insertCall mp c).shared) = _
      rw [hentered.ongoingCalls, hentered.shared]
      rfl
  | _ => rfl

theorem tableAfter_of_pop {s s' : State Buf} {task : Task Buf}
    {rest : List (Task Buf)} (hstrand : s.strand = task :: rest)
    (hrest : s'.strand = rest) (htable : s'.table = settle s.table task) :
    s'.tableAfter = s.tableAfter := by
  unfold State.tableAfter
  rw [hstrand, hrest, htable]
  rfl

/-- Queueing a handler that does not touch the table. -/
theorem tableAfter_append (s : State Buf) {task : Task Buf}
    (hidle : ∀ t, settle t task = t) :
    { s with strand := s.strand ++ [task] }.tableAfter = s.tableAfter := by
  show (s.strand ++ [task]).foldl settle s.table = s.strand.foldl settle s.table
  rw [List.foldl_append]
  exact hidle _

/-- Posting a call adds its entry to the table to come. -/
theorem tableAfter_postCall (s : State Buf) (i : Nat) (c : Call) :
    (s.postCall mp i c).tableAfter =
      settle s.tableAfter (Task.insertCall c : Task Buf) := by
  show (s.strand ++ [Task.insertCall c]).foldl settle s.table = _
  rw [List.foldl_append]
  rfl

/-- A read error changes neither the table nor the strand. -/
theorem tableAfter_readError (s : State Buf) (objs : List Object)
    {ec : ErrorCode} (herror : ec ≠ .success) :
    (s.readDone mp objs ec).tableAfter = s.tableAfter := by
  obtain ⟨reading, state, hdone⟩ := readDone_error mp s objs herror
  rw [hdone]
  rfl

/-- Only a posted call and a response change the table to come. -/
theorem tableAfter_of_effect {s s' : State Buf} {e : Event}
    (heffect : Effect mp s e s') (hpost : ∀ i, e ≠ .post i)
    (hread : ∀ objs, e ≠ .readDone .success objs) :
    s'.tableAfter = s.tableAfter := by
  cases heffect with
  | draw funcName args => rfl
  | @post i c hdrawn => exact absurd rfl (hpost i)
  | notify funcName args => exact tableAfter_append s fun _ => rfl
  | @insertCall c rest hstrand =>
      have hrest := (entered_insertCall mp { s with strand := rest } c).strand
      exact tableAfter_of_pop hstrand hrest
        (runTask_table mp { s with strand := rest } (.insertCall c))
  | writeNotification hstrand => exact tableAfter_of_pop hstrand rfl rfl
  | flushPending hstrand => exact tableAfter_of_pop hstrand rfl rfl
  | eraseCall hstrand => exact tableAfter_of_pop hstrand rfl rfl
  | connected hconnecting => exact tableAfter_append s fun _ => rfl
  | retried hconnecting => rfl
  | refused hconnecting => rfl
  | readDone ec objs hreading =>
      have herror : ec ≠ .success := by
        rintro rfl
        exact hread objs rfl
      exact tableAfter_readError mp s objs herror
  | written ec houtstanding => rfl

/-! ## A promise nobody mentions -/

/-- A promise without an outcome that no entry has. -/
def Absent (p : PromiseId) (t : Table) : Prop :=
  t.2 p = none ∧ ∀ key entry, t.1 key = some entry → entry.promise ≠ p

theorem abandon_of_absent {p : PromiseId} {t : Table} (h : Absent p t)
    (key : Int32) : State.abandon t.2 (t.1 key) p = none := by
  cases hentry : t.1 key with
  | none => exact h.1
  | some entry =>
      have hne : p ≠ entry.promise := (h.2 key entry hentry).symm
      show WriteOnce.fill t.2 entry.promise .brokenPromise p = none
      rw [WriteOnce.fill_of_ne t.2 hne]
      exact h.1

theorem absent_settle {p : PromiseId} {t : Table} (h : Absent p t)
    {task : Task Buf} (hnot : ∀ c, task.call = some c → .call c.number ≠ p) :
    Absent p (settle t task) := by
  cases task with
  | insertCall c =>
      refine ⟨abandon_of_absent h c.idx, fun key entry hentry => ?_⟩
      by_cases hkey : key = c.idx
      · obtain rfl : c.entry = entry := by simpa [settle, hkey] using hentry
        exact hnot c rfl
      · exact h.2 key entry (by simpa [settle, hkey] using hentry)
  | eraseCall id =>
      refine ⟨abandon_of_absent h id.toInt32, fun key entry hentry => ?_⟩
      by_cases hkey : key = id.toInt32
      · simp [settle, hkey] at hentry
      · exact h.2 key entry (by simpa [settle, hkey] using hentry)
  | writeNotification buffer => exact h
  | flushPending => exact h

theorem absent_foldl {p : PromiseId} {tasks : List (Task Buf)} {t : Table}
    (h : Absent p t)
    (hnot : ∀ c ∈ tasks.filterMap Task.call, .call c.number ≠ p) :
    Absent p (tasks.foldl settle t) := by
  induction tasks generalizing t with
  | nil => exact h
  | cons task tasks ih =>
      rw [List.foldl_cons]
      apply ih
      · apply absent_settle h
        intro c hcall
        exact hnot c (List.mem_filterMap.mpr ⟨task, List.mem_cons_self, hcall⟩)
      · intro c hc
        obtain ⟨task', htask', hcall⟩ := List.mem_filterMap.mp hc
        exact hnot c (List.mem_filterMap.mpr
          ⟨task', List.mem_cons_of_mem _ htask', hcall⟩)

/-- The promise of a drawn call is in the hands of its thread only. -/
theorem absent_of_drawn {s : State Buf} (h : Tracked s) {c : Call}
    (hdrawn : c ∈ s.drawn) : Absent (.call c.number) s.tableAfter := by
  have hnodup := h.calls.nodup
  rw [List.map_append, List.map_append] at hnodup
  have hfree : c.number ∉ s.queued.map Call.number ∧
      c.number ∉ s.ran.map Call.number := by
    have hmem : c.number ∈ s.drawn.map Call.number :=
      List.mem_map_of_mem hdrawn
    rw [List.append_assoc] at hnodup
    have hdisjoint := List.disjoint_of_nodup_append hnodup hmem
    rw [List.mem_append] at hdisjoint
    exact not_or.mp hdisjoint
  apply absent_foldl
  · refine ⟨h.table.unrun _ hfree.2, fun key entry hentry => ?_⟩
    rcases h.table.promise hentry with ⟨n, hn, hpromise⟩ | ⟨n, -, hpromise⟩
    · rw [hpromise]
      rintro ⟨rfl⟩
      exact hfree.2 hn
    · simp [hpromise]
  · intro d hd hsame
    have hnumber : d.number = c.number := PromiseId.call.inj hsame
    exact hfree.1 (hnumber ▸ List.mem_map_of_mem hd)

/-- A posted call waits for a response. -/
theorem hanging_of_posted {s : State Buf} (h : Tracked s) {i : Nat} {c : Call}
    (hdrawn : s.drawn[i]? = some c) : Hanging (s.postCall mp i c).tableAfter := by
  have habsent := absent_of_drawn h (List.mem_of_getElem? hdrawn)
  rw [tableAfter_postCall]
  exact ⟨c.idx, c.entry, Function.update_self ..,
    abandon_of_absent habsent c.idx⟩

/-! ## A call is answered or has its entry -/

/-- The entry of a call stays in the table until the call has an outcome. -/
def Kept (s : State Buf) : Prop :=
  ∀ c ∈ s.ran, s.shared (.call c.number) = none →
    s.ongoingCalls c.idx = some c.entry

/-- A promise that is empty after the entry of a key was destroyed belongs to
another entry, which is still there. -/
theorem waits_of_abandon {table : Int32 → Option Entry} {shared : Shared}
    {c : Call} {key : Int32}
    (hentry : shared (.call c.number) = none → table c.idx = some c.entry)
    (hempty : State.abandon shared (table key) (.call c.number) = none) :
    c.idx ≠ key ∧ table c.idx = some c.entry := by
  have hbefore : shared (.call c.number) = none := by
    by_contra hfilled
    obtain ⟨outcome, houtcome⟩ := Option.ne_none_iff_exists'.mp hfilled
    rw [extends_abandon shared (table key) _ _ houtcome] at hempty
    cases hempty
  refine ⟨?_, hentry hbefore⟩
  rintro rfl
  rw [hentry hbefore] at hempty
  have hfilled : State.abandon shared (some c.entry) (.call c.number) =
      some .brokenPromise := by
    show WriteOnce.fill shared (.call c.number) .brokenPromise _ = _
    rw [WriteOnce.fill_of_empty hbefore]
    exact Function.update_self ..
  rw [hfilled] at hempty
  cases hempty

namespace Kept

theorem initial : Kept (State.initial : State Buf) := by
  simp [Kept, State.initial]

variable {mp}

theorem insertCall {s : State Buf} (h : Kept s) (c : Call) :
    Kept (s.insertCall mp c) := by
  have hentered := entered_insertCall mp s c
  intro d hd hempty
  rw [hentered.ran] at hd
  rw [hentered.shared] at hempty
  rw [hentered.ongoingCalls]
  rcases List.mem_append.mp hd with hold | hnew
  · obtain ⟨hne, hentry⟩ := waits_of_abandon (h d hold) hempty
    rw [Function.update_of_ne hne]
    exact hentry
  · obtain rfl := List.mem_singleton.mp hnew
    exact Function.update_self ..

theorem eraseCall {s : State Buf} (h : Kept s) (id : UInt32) :
    Kept (s.eraseCall id) := by
  intro d hd hempty
  obtain ⟨hne, hentry⟩ := waits_of_abandon (h d hd) hempty
  show Function.update s.ongoingCalls id.toInt32 none d.idx = some d.entry
  rw [Function.update_of_ne hne]
  exact hentry

/-- A response fills a promise and removes no entry. -/
theorem of_extends {s s' : State Buf} (h : Kept s) (hran : s'.ran = s.ran)
    (hshared : WriteOnce.Extends s.shared s'.shared)
    (htable : ∀ key entry, s.ongoingCalls key = some entry →
      s'.ongoingCalls key = some entry) : Kept s' := by
  intro c hc hempty
  rw [hran] at hc
  apply htable
  apply h c hc
  by_contra hfilled
  obtain ⟨outcome, houtcome⟩ := Option.ne_none_iff_exists'.mp hfilled
  rw [hshared _ _ houtcome] at hempty
  cases hempty

theorem currentCall_keeps (s : State Buf) (id key : Int32) {entry : Entry}
    (hentry : s.ongoingCalls key = some entry) :
    (s.currentCall id).1.ongoingCalls key = some entry := by
  by_cases hkey : key = id
  · subst hkey
    unfold State.currentCall
    rw [hentry]
    exact hentry
  · obtain ⟨-, -, -, hothers⟩ := currentCall_frame s id
    rw [hothers key hkey]
    exact hentry

theorem handleResponse {s : State Buf} (h : Kept s) (obj : Object) :
    Kept (s.handleResponse mp obj) := by
  apply h.of_extends (ReadFrame.handleResponse mp s obj).ran
    (extends_handleResponse mp s obj)
  intro key entry hentry
  cases hdecoded : Response.ofHandle mp obj with
  | none =>
      rw [handleResponse_of_undecoded mp hdecoded]
      exact hentry
  | some response =>
      have hkept := currentCall_keeps s response.id.toInt32 key hentry
      cases hcell : s.shared
          (s.currentCall response.id.toInt32).2.promise with
      | none =>
          rw [handleResponse_of_empty mp hdecoded hcell]
          exact hkept
      | some outcome =>
          rw [handleResponse_of_filled mp hdecoded hcell]
          exact hkept

theorem handleResponses {s : State Buf} (h : Kept s) (objs : List Object) :
    Kept (s.handleResponses mp objs) := by
  induction objs generalizing s with
  | nil => exact h
  | cons obj objs ih =>
      unfold State.handleResponses
      dsimp only
      split
      · exact h.handleResponse obj
      · exact ih (h.handleResponse obj)

theorem step {s s' : State Buf} {e : Event} (h : Kept s)
    (heffect : Effect mp s e s') : Kept s' := by
  cases heffect with
  | @insertCall c rest hstrand =>
      have hpopped : Kept { s with strand := rest } := h
      exact hpopped.insertCall c
  | @eraseCall id rest hstrand =>
      have hpopped : Kept { s with strand := rest } := h
      exact hpopped.eraseCall id
  | readDone ec objs hreading =>
      by_cases hsuccess : ec = .success
      · subst hsuccess
        obtain ⟨reading, hdone⟩ := readDone_success mp s objs
        rw [hdone]
        exact h.handleResponses objs
      · obtain ⟨reading, state, hdone⟩ := readDone_error mp s objs hsuccess
        rw [hdone]
        exact h
  | _ => exact h

end Kept

/-! ## When no call is left hanging -/

/-- After the end of the read loop, once the strand has run, every entry has
an outcome, and so has every call. -/
def NoneHanging (s : State Buf) : Prop :=
  LoopEnded s → s.strand = [] →
    (∀ key entry, s.ongoingCalls key = some entry →
      s.shared entry.promise ≠ none) ∧
    ∀ c ∈ s.ran, s.shared (.call c.number) ≠ none

/-- A read error finds no call that would wait after the queued handlers, and
no call is posted after the end of the read loop. -/
def LosesNoCall (s : State Buf) (e : Event) : Prop :=
  (ReadError e → ¬ Hanging s.tableAfter) ∧
    ∀ i, e = .post i → ¬ LoopEnded s

/-- What holds of every client. -/
structure Waiting (s : State Buf) : Prop where
  phases : Phases s
  tracked : Tracked s
  kept : Kept s

theorem Waiting.initial : Waiting (State.initial : State Buf) :=
  ⟨.initial, .initial, .initial⟩

theorem Waiting.step {s s' : State Buf} {e : Event} (h : Waiting s)
    (hstep : step mp s e = some s') : Waiting s' := by
  obtain ⟨halive, heffect⟩ := effect_of_step mp hstep
  exact ⟨h.phases.step halive heffect, h.tracked.step heffect,
    h.kept.step heffect⟩

/-- After the end of the read loop nothing is read. -/
theorem tableAfter_of_loopEnded {s s' : State Buf} {e : Event}
    (hended : LoopEnded s) (heffect : Effect mp s e s')
    (hpost : ∀ i, e ≠ .post i) : s'.tableAfter = s.tableAfter := by
  apply tableAfter_of_effect mp heffect hpost
  rintro objs rfl
  cases heffect with
  | readDone _ _ hreading =>
      have hnone := hended.2.1
      omega

/-- A client that has lost no call. -/
structure Settled (s : State Buf) : Prop where
  waiting : Waiting s
  settled : LoopEnded s → ¬ Hanging s.tableAfter

theorem Settled.noneHanging {s : State Buf} (h : Settled s) :
    NoneHanging s := by
  intro hended hstrand
  have hentries : ∀ key entry, s.ongoingCalls key = some entry →
      s.shared entry.promise ≠ none := by
    intro key entry hentry hempty
    apply h.settled hended
    unfold State.tableAfter
    rw [hstrand]
    exact ⟨key, entry, hentry, hempty⟩
  refine ⟨hentries, fun c hc hempty => ?_⟩
  exact hentries c.idx c.entry (h.waiting.kept c hc hempty) hempty

theorem Settled.step {s s' : State Buf} {e : Event} (h : Settled s)
    (hloses : LosesNoCall s e) (hstep : Client.step mp s e = some s') :
    Settled s' := by
  obtain ⟨halive, heffect⟩ := effect_of_step mp hstep
  refine ⟨h.waiting.step mp hstep, fun hended' => ?_⟩
  rcases (loopEnded_of_effect mp h.waiting.phases halive heffect
    hended'.2.2).mp hended' with hended | ⟨ec, objs, rfl, herror⟩
  · rw [tableAfter_of_loopEnded mp hended heffect
      fun i hpost => hloses.2 i hpost hended]
    exact h.settled hended
  · have hsame : s'.tableAfter = s.tableAfter := by
      apply tableAfter_of_effect mp heffect (by simp)
      rintro _ ⟨⟩
      exact herror rfl
    rw [hsame]
    exact hloses.1 ⟨ec, objs, rfl, herror⟩

/-- A client that waits for a response that can no longer arrive, or whose
process has ended. -/
def Lost (s : State Buf) : Prop :=
  Waiting s ∧ (s.escaped = none → LoopEnded s ∧ Hanging s.tableAfter)

/-- Nothing that happens after the loss saves the call that waits. -/
theorem Lost.step {s s' : State Buf} {e : Event} (h : Lost s)
    (hstep : Client.step mp s e = some s') : Lost s' := by
  obtain ⟨halive, heffect⟩ := effect_of_step mp hstep
  obtain ⟨hwaiting, hlost⟩ := h
  obtain ⟨hended, hhanging⟩ := hlost halive
  refine ⟨hwaiting.step mp hstep, fun halive' => ⟨?_, ?_⟩⟩
  · exact (loopEnded_of_effect mp hwaiting.phases halive heffect
      halive').mpr (Or.inl hended)
  · by_cases hpost : ∃ i, e = .post i
    · obtain ⟨i, rfl⟩ := hpost
      cases heffect with
      | post hdrawn => exact hanging_of_posted mp hwaiting.tracked hdrawn
    · push Not at hpost
      rw [tableAfter_of_loopEnded mp hended heffect hpost]
      exact hhanging

theorem Lost.not_noneHanging {s : State Buf} (h : Lost s)
    (halive : s.escaped = none) (hstrand : s.strand = []) :
    ¬ NoneHanging s := by
  obtain ⟨hended, key, entry, hentry, hempty⟩ := h.2 halive
  intro hnone
  have hlast : s.tableAfter = s.table := by
    unfold State.tableAfter
    rw [hstrand]
    rfl
  rw [hlast] at hentry hempty
  exact (hnone hended hstrand).1 key entry hentry hempty

/-- A step outside the condition loses a call. -/
theorem lost_of_not_losesNoCall {s s' : State Buf} {e : Event}
    (h : Waiting s) (hnot : ¬ LosesNoCall s e)
    (hstep : Client.step mp s e = some s') : Lost s' := by
  obtain ⟨halive, heffect⟩ := effect_of_step mp hstep
  refine ⟨h.step mp hstep, fun halive' => ?_⟩
  have hcause := loopEnded_of_effect mp h.phases halive heffect halive'
  unfold LosesNoCall at hnot
  rw [not_and_or] at hnot
  rcases hnot with hread | hpost
  · push Not at hread
    obtain ⟨⟨ec, objs, rfl, herror⟩, hhanging⟩ := hread
    refine ⟨hcause.mpr (Or.inr ⟨ec, objs, rfl, herror⟩), ?_⟩
    have hsame : s'.tableAfter = s.tableAfter := by
      apply tableAfter_of_effect mp heffect (by simp)
      rintro _ ⟨⟩
      exact herror rfl
    rw [hsame]
    exact hhanging
  · push Not at hpost
    obtain ⟨i, rfl, hended⟩ := hpost
    refine ⟨hcause.mpr (Or.inl hended), ?_⟩
    cases heffect with
    | post hdrawn => exact hanging_of_posted mp h.tracked hdrawn

/-- No call is left hanging in a run in which every read error finds no call
that would wait after the queued handlers, and no call is posted later; and a
run that ends with all posted handlers run leaves no call hanging in no other
way. -/
theorem noneHanging_iff (es : List Event) :
    (EachStep (step mp) LosesNoCall State.initial es →
      Always (step mp) NoneHanging State.initial es) ∧
    ∀ s, run (step mp) State.initial es = some s → s.escaped = none →
      s.strand = [] → Always (step mp) NoneHanging State.initial es →
      EachStep (step mp) LosesNoCall State.initial es := by
  constructor
  · intro hloses
    exact always_of_eachStep (J := Settled) (fun _ h => h.noneHanging)
      (fun _ _ _ h _ hkeeps hstep => h.step mp hkeeps hstep)
      ⟨.initial, by simp [LoopEnded, State.initial]⟩
      (eachStep_unguarded _ _ es) hloses
  · intro s hrun halive hstrand
    exact eachStep_of_always (J := Waiting) (D := Lost)
      (F := fun s => s.escaped = none ∧ s.strand = [])
      (fun _ _ _ h _ hstep => h.step mp hstep)
      (fun _ _ _ h _ hnot hstep =>
        Or.inl (lost_of_not_losesNoCall mp h hnot hstep))
      (fun _ _ _ h _ hstep => Or.inl (h.step mp hstep))
      (fun _ h hfinal => h.not_noneHanging hfinal.1 hfinal.2) .initial
      (eachStep_unguarded _ _ es) hrun ⟨halive, hstrand⟩

/-- A call is on its way when the server closes the connection. -/
def lossDuringCall : List Event :=
  [.connectDone, .runStrand, .draw "get" [], .post 0, .runStrand,
    .readDone .eof []]

/-- The promise of the call stays empty: a call without a timeout waits for
ever. -/
theorem loss_during_call_hangs :
    ¬ Always (step .reference) NoneHanging State.initial lossDuringCall ∧
    (run (step .reference) State.initial lossDuringCall).map
      (fun s => (s.state, s.reading, s.ran.length, s.strand.length,
        s.ongoingCalls 1 |>.map Entry.funcName)) =
      some (.disconnected, 0, 1, 0, some "get") := by
  have hends : (run (step .reference) State.initial lossDuringCall).map
      (fun s => (s.state, s.reading, s.ran.length, s.strand.length,
        s.ongoingCalls 1 |>.map Entry.funcName)) =
      some (.disconnected, 0, 1, 0, some "get") := by
    rfl
  refine ⟨fun halways => ?_, hends⟩
  have hrun : run (step .reference) State.initial lossDuringCall =
      some _ := rfl
  have hnone := (halways.of_run hrun) ⟨rfl, rfl, rfl⟩ rfl
  exact hnone.1 1 _ rfl rfl

/-- The server answers a call and then closes the connection. -/
def lossAfterAnswer : List Event :=
  [.connectDone, .runStrand, .draw "get" [], .post 0, .runStrand,
    .readDone .success [.array [.ofUInt32 1, .ofUInt32 1, .nil, .str "x"]],
    .readDone .eof []]

theorem noneHanging_iff_after_answer :
    Always (step .reference) NoneHanging State.initial lossAfterAnswer := by
  have hloses : EachStep (step .reference) LosesNoCall State.initial
      lossAfterAnswer := by
    have hquiet : ∀ (es : List Event) (s : State (Option Object)),
        (∀ e ∈ es, ¬ ReadError e ∧ ∀ i, e ≠ .post i) →
        EachStep (step .reference) LosesNoCall s es :=
      fun es s hes => eachStep_of_forall (fun e he _ =>
        ⟨fun herror => absurd herror (hes e he).1,
          fun i hpost => absurd hpost ((hes e he).2 i)⟩) s
    show EachStep (step .reference) LosesNoCall State.initial
      ([.connectDone, .runStrand, .draw "get" []] ++ (.post 0 ::
        ([.runStrand, .readDone .success
          [.array [.ofUInt32 1, .ofUInt32 1, .nil, .str "x"]]] ++
            [.readDone .eof []])))
    refine eachStep_append (hquiet _ _ (by simp [ReadError])) ?_
    rintro _ ⟨⟩ _ ⟨⟩
    -- the call is posted while the connection stands
    refine ⟨⟨by simp [ReadError], fun _ _ hended => ?_⟩, ?_⟩
    · cases hended.2.1
    refine eachStep_append (hquiet _ _ (by simp [ReadError])) ?_
    rintro _ ⟨⟩ _ ⟨⟩
    -- the queued erase leaves no entry
    refine ⟨⟨fun _ => ?_, by simp⟩, trivial⟩
    rintro ⟨key, entry, hentry, -⟩
    have hkey : key = 1 ∨ key ≠ 1 := eq_or_ne key 1
    rcases hkey with rfl | hne
    · cases hentry
    · have hnone : (Function.update (Function.update
          (fun _ : Int32 => (none : Option Entry)) 1
            (some ⟨"get", .call 0⟩)) 1 none) key = some entry := hentry
      simp [hne] at hnone
  exact (noneHanging_iff .reference lossAfterAnswer).1 hloses

end Client
end RpcLib
