import RpcLib.Client.CallTable

/-!
# A server that repeats ids or makes them up

The read handler looks a response up with `operator[]`, which creates an entry
for an unknown id, and the entry is removed later, by a handler on the strand.
Until then a second response with that id finds a satisfied promise, and both
`set_value` and `set_exception` throw; and an erase that comes after a call
with that index was entered destroys the promise of the call.

`always_robust_iff` is the exact condition under which neither happens.
-/

namespace RpcLib
namespace Client

open Protocol Transport Foundation TransitionSystem

variable {Buf : Type} (mp : MsgPack Buf)

/-- Every chunk consists of well-formed responses; the ids are arbitrary. -/
def ReadsResponses (_ : State Buf) (e : Event) : Prop :=
  ∀ objs, e = .readDone .success objs →
    ∃ messages : List Response.Message,
      objs = messages.map Response.Message.toObject

/-- No exception has left the read handler, the call that has run keeps its
promise until it is satisfied, and a satisfied promise keeps its outcome. -/
structure Robust (s : State Buf) : Prop where
  noEscape : ∀ failure, s.escaped ≠ some (.read failure)
  noneBroken : ∀ c ∈ s.ran, s.shared (.call c.number) ≠ some .brokenPromise
  firstLasts : ∀ s', Reachable (step mp) unguarded s s' →
    WriteOnce.Extends s.shared s'.shared

/-- An entry under the key, if there is one, can still be satisfied. -/
def Satisfiable (s : State Buf) (key : Int32) : Prop :=
  ∀ entry, s.ongoingCalls key = some entry → s.shared entry.promise = none

/-- The entry under the key belongs to a call that waits for its response. -/
def AwaitedAt (s : State Buf) (key : Int32) : Prop :=
  ∃ c ∈ s.ran, s.ongoingCalls key = some c.entry ∧
    s.shared (.call c.number) = none

/-- A chunk answers different ids whose entries can be satisfied, and neither
an erase nor the entering of a call hits the entry of a waiting call. -/
structure Undisturbed (s : State Buf) (e : Event) : Prop where
  chunk : ∀ messages : List Response.Message,
    e = .readDone .success (messages.map Response.Message.toObject) →
    (messages.map Response.Message.id).Nodup ∧
      ∀ m ∈ messages, Satisfiable s m.id.toInt32
  erase : ∀ id rest, e = .runStrand → s.strand = .eraseCall id :: rest →
    ¬ AwaitedAt s id.toInt32
  insert : ∀ c rest, e = .runStrand → s.strand = .insertCall c :: rest →
    ¬ AwaitedAt s c.idx

/-! ## Reading a chunk -/

/-- The promise that `operator[]` yields is empty exactly when the entry under
the key can be satisfied. -/
theorem currentCall_empty_iff {s : State Buf} (h : TableTracked s)
    (key : Int32) :
    s.shared (s.currentCall key).2.promise = none ↔ Satisfiable s key := by
  unfold State.currentCall Satisfiable
  cases hentry : s.ongoingCalls key with
  | some entry => simp
  | none => simpa using h.undefaulted s.defaults (Nat.le_refl _)

/-- A response whose entry cannot be satisfied ends the process. -/
theorem handleResponse_of_unsatisfiable {s : State Buf} (h : TableTracked s)
    {obj : Object} {response : Response}
    (hdecoded : Response.ofHandle mp obj = some response)
    (hnot : ¬ Satisfiable s response.id.toInt32) :
    (s.handleResponse mp obj).escaped = some (.read .alreadySatisfied) := by
  rw [← currentCall_empty_iff h] at hnot
  obtain ⟨outcome, hfilled⟩ := Option.ne_none_iff_exists'.mp hnot
  rw [handleResponse_of_filled mp hdecoded hfilled]

/-- A response whose entry can be satisfied is survived.  Afterwards its own
entry cannot be satisfied again, and the others are as they were. -/
theorem handleResponse_of_satisfiable {s : State Buf} (h : TableTracked s)
    {obj : Object} {response : Response}
    (hdecoded : Response.ofHandle mp obj = some response)
    (hsatisfiable : Satisfiable s response.id.toInt32) :
    (s.handleResponse mp obj).escaped = s.escaped ∧
      ¬ Satisfiable (s.handleResponse mp obj) response.id.toInt32 ∧
      ∀ key, key ≠ response.id.toInt32 →
        (Satisfiable (s.handleResponse mp obj) key ↔ Satisfiable s key) := by
  have hempty := (currentCall_empty_iff h response.id.toInt32).mpr hsatisfiable
  have htable := h.currentCall response.id.toInt32
  have hentry := currentCall_entry s response.id.toInt32
  obtain ⟨hshared, -, hescaped, hothers⟩ :=
    currentCall_frame s response.id.toInt32
  rw [handleResponse_of_empty mp hdecoded hempty]
  refine ⟨hescaped, ?_, ?_⟩
  · intro hagain
    have hnone := hagain _ hentry
    simp [State.satisfied] at hnone
  · intro key hne
    have hsame : ∀ entry, s.ongoingCalls key = some entry →
        ((s.currentCall response.id.toInt32).1.satisfied
          (s.currentCall response.id.toInt32).2 response).shared
            entry.promise = s.shared entry.promise := by
      intro entry hkey
      have hdistinct : entry.promise ≠
          (s.currentCall response.id.toInt32).2.promise := by
        intro hpromise
        rw [← hothers key hne] at hkey
        exact hne (htable.distinct _ _ _ _ hkey hentry hpromise)
      rw [← hshared]
      exact Function.update_of_ne hdistinct _ _
    constructor
    · intro hall entry hkey
      rw [← hsame entry hkey]
      exact hall entry ((hothers key hne).trans hkey)
    · intro hall entry hkey
      have hold : s.ongoingCalls key = some entry :=
        (hothers key hne).symm.trans hkey
      rw [hsame entry hold]
      exact hall entry hold

/-- The objects of a chunk decode to responses with different ids, each of
whose entries can be satisfied. -/
def Digestible (s : State Buf) (objs : List Object) : Prop :=
  ∃ responses : List Response,
    objs.map (Response.ofHandle mp) = responses.map some ∧
    (responses.map Response.id).Nodup ∧
    ∀ response ∈ responses, Satisfiable s response.id.toInt32

/-- The first object of a digestible chunk decodes, its entry can be
satisfied, and the rest of the chunk does not repeat its id. -/
theorem digestible_cons (s : State Buf) {obj : Object} (objs : List Object)
    {response : Response}
    (hdecoded : Response.ofHandle mp obj = some response) :
    Digestible mp s (obj :: objs) ↔
      Satisfiable s response.id.toInt32 ∧
        ∃ responses : List Response,
          objs.map (Response.ofHandle mp) = responses.map some ∧
          (responses.map Response.id).Nodup ∧
          ∀ later ∈ responses, later.id ≠ response.id ∧
            Satisfiable s later.id.toInt32 := by
  constructor
  · rintro ⟨_ | ⟨first, responses⟩, hmap, hnodup, hall⟩
    · cases hmap
    obtain ⟨hfirst, hrest⟩ := List.cons.inj hmap
    obtain rfl := Option.some.inj (hdecoded.symm.trans hfirst)
    obtain ⟨hfresh, hnodup⟩ := List.nodup_cons.mp hnodup
    refine ⟨hall response List.mem_cons_self, responses, hrest, hnodup, ?_⟩
    intro later hlater
    refine ⟨fun hsame => hfresh ?_, hall later (List.mem_cons_of_mem _ hlater)⟩
    exact hsame ▸ List.mem_map_of_mem hlater
  · rintro ⟨hsatisfiable, responses, hrest, hnodup, hall⟩
    refine ⟨response :: responses, ?_, List.nodup_cons.mpr ⟨?_, hnodup⟩, ?_⟩
    · rw [List.map_cons, hdecoded, hrest]
      rfl
    · intro hmem
      obtain ⟨later, hlater, hid⟩ := List.mem_map.mp hmem
      exact (hall later hlater).1 hid
    · intro later hlater
      rcases List.mem_cons.mp hlater with rfl | hold
      · exact hsatisfiable
      · exact (hall later hold).2

/-- A chunk is survived exactly when it is digestible. -/
theorem handleResponses_escaped_iff_digestible {s : State Buf}
    (h : TableTracked s) (hlive : s.escaped = none) (objs : List Object) :
    (s.handleResponses mp objs).escaped = none ↔ Digestible mp s objs := by
  induction objs generalizing s with
  | nil => exact iff_of_true hlive ⟨[], rfl, List.nodup_nil, by simp⟩
  | cons obj objs ih =>
      unfold State.handleResponses
      dsimp only
      cases hdecoded : Response.ofHandle mp obj with
      | none =>
          have hescaped : (s.handleResponse mp obj).escaped =
              some (.read .typeError) := by
            rw [handleResponse_of_undecoded mp hdecoded]
          rw [if_pos (by simp [hescaped]), hescaped]
          refine iff_of_false (by simp) ?_
          rintro ⟨_ | ⟨first, responses⟩, hmap, -⟩
          · cases hmap
          · cases hdecoded.symm.trans (List.cons.inj hmap).1
      | some response =>
          rw [digestible_cons mp s objs hdecoded]
          by_cases hsatisfiable : Satisfiable s response.id.toInt32
          · obtain ⟨hescaped, hspent, hothers⟩ :=
              handleResponse_of_satisfiable mp h hdecoded hsatisfiable
            have hlive' : (s.handleResponse mp obj).escaped = none :=
              hescaped.trans hlive
            rw [if_neg (by simp [hlive']), ih (h.handleResponse _) hlive',
              and_iff_right hsatisfiable]
            refine exists_congr fun responses => and_congr_right fun _ =>
              and_congr_right fun _ => forall₂_congr fun later _ => ?_
            have hid : later.id.toInt32 = response.id.toInt32 →
                later.id = response.id := by
              intro hsame
              rw [← UInt32.toUInt32_toInt32 later.id, hsame,
                UInt32.toUInt32_toInt32]
            constructor
            · intro hlater
              -- a repeated id would find the entry of this response spent
              have hne : later.id.toInt32 ≠ response.id.toInt32 :=
                fun hsame => hspent (hsame ▸ hlater)
              exact ⟨fun hsame => hne (by rw [hsame]),
                (hothers _ hne).mp hlater⟩
            · rintro ⟨hne, hlater⟩
              exact (hothers _ fun hsame => hne (hid hsame)).mpr hlater
          · have hescaped :=
              handleResponse_of_unsatisfiable mp h hdecoded hsatisfiable
            rw [if_pos (by simp [hescaped]), hescaped]
            exact iff_of_false (by simp) fun hboth => hsatisfiable hboth.1

/-- A chunk of well-formed responses is survived exactly when its ids are
different and each of their entries can be satisfied. -/
theorem handleResponses_escaped_iff {s : State Buf} (h : TableTracked s)
    (hlive : s.escaped = none) (messages : List Response.Message) :
    (s.handleResponses mp
        (messages.map Response.Message.toObject)).escaped = none ↔
      (messages.map Response.Message.id).Nodup ∧
        ∀ m ∈ messages, Satisfiable s m.id.toInt32 := by
  have hdecoded : (messages.map Response.Message.toObject).map
        (Response.ofHandle mp) =
      (messages.map Response.Message.decoded).map some := by
    simp
  have hids : (messages.map Response.Message.decoded).map Response.id =
      messages.map Response.Message.id := by
    simp
  rw [handleResponses_escaped_iff_digestible mp h hlive]
  constructor
  · rintro ⟨responses, hmap, hnodup, hall⟩
    have hsame : responses = messages.map Response.Message.decoded :=
      List.map_injective_iff.mpr (fun _ _ => Option.some.inj)
        (hmap.symm.trans hdecoded)
    subst hsame
    exact ⟨hids ▸ hnodup, fun m hm => hall _ (List.mem_map_of_mem hm)⟩
  · rintro ⟨hnodup, hall⟩
    refine ⟨_, hdecoded, hids.symm ▸ hnodup, fun response hmem => ?_⟩
    obtain ⟨m, hm, rfl⟩ := List.mem_map.mp hmem
    exact hall m hm

/-! ## Broken promises -/

/-- A promise that an abandoned entry leaves broken was broken before or was
still empty. -/
theorem broken_of_abandon {shared : Shared} {entry : Option Entry}
    {p : PromiseId}
    (hbroken : State.abandon shared entry p = some .brokenPromise) :
    shared p = some .brokenPromise ∨
      ∃ e, entry = some e ∧ e.promise = p ∧ shared p = none := by
  cases entry with
  | none => exact Or.inl hbroken
  | some e =>
      by_cases hp : p = e.promise
      · subst hp
        cases hcell : shared e.promise with
        | none => exact Or.inr ⟨e, rfl, rfl, rfl⟩
        | some outcome =>
            rw [State.abandon, WriteOnce.fill_of_filled hcell, hcell]
              at hbroken
            exact Or.inl hbroken
      · rw [State.abandon, WriteOnce.fill_of_ne shared hp] at hbroken
        exact Or.inl hbroken

/-- Destroying the entry of a waiting call breaks its promise. -/
theorem abandon_of_awaited {s : State Buf} {key : Int32}
    (hawaited : AwaitedAt s key) :
    ∃ c ∈ s.ran, State.abandon s.shared (s.ongoingCalls key)
      (.call c.number) = some .brokenPromise := by
  obtain ⟨c, hc, hentry, hempty⟩ := hawaited
  refine ⟨c, hc, ?_⟩
  rw [hentry]
  show WriteOnce.fill s.shared (.call c.number) .brokenPromise
    (.call c.number) = _
  rw [WriteOnce.fill_of_empty hempty, Function.update_self]

/-- Reading breaks no promise. -/
theorem broken_of_handleResponse {s : State Buf} {obj : Object}
    {p : PromiseId}
    (hbroken : (s.handleResponse mp obj).shared p = some .brokenPromise) :
    s.shared p = some .brokenPromise := by
  cases hdecoded : Response.ofHandle mp obj with
  | none =>
      rw [handleResponse_of_undecoded mp hdecoded] at hbroken
      exact hbroken
  | some response =>
      obtain ⟨hshared, -⟩ := currentCall_frame s response.id.toInt32
      cases hcell : s.shared
          (s.currentCall response.id.toInt32).2.promise with
      | none =>
          rw [handleResponse_of_empty mp hdecoded hcell] at hbroken
          unfold State.satisfied at hbroken
          rw [hshared] at hbroken
          by_cases hp : p = (s.currentCall response.id.toInt32).2.promise
          · -- an outcome of a response is a value or an `RpcError`
            subst hp
            simp only [Function.update_self, Option.some.injEq] at hbroken
            unfold State.outcomeOf at hbroken
            split at hbroken <;> cases hbroken
          · simpa [Function.update_of_ne hp] using hbroken
      | some outcome =>
          rw [handleResponse_of_filled mp hdecoded hcell] at hbroken
          rw [← hshared]
          exact hbroken

theorem broken_of_handleResponses {s : State Buf} {objs : List Object}
    {p : PromiseId}
    (hbroken : (s.handleResponses mp objs).shared p = some .brokenPromise) :
    s.shared p = some .brokenPromise := by
  induction objs generalizing s with
  | nil => exact hbroken
  | cons obj objs ih =>
      unfold State.handleResponses at hbroken
      dsimp only at hbroken
      split at hbroken
      · exact broken_of_handleResponse mp hbroken
      · exact broken_of_handleResponse mp (ih hbroken)

/-! ## The exact condition -/

/-- A read that escapes does so with one of the read failures. -/
theorem handleResponses_escaped (s : State Buf) (hlive : s.escaped = none)
    (objs : List Object) :
    (s.handleResponses mp objs).escaped = none ∨
      ∃ failure, (s.handleResponses mp objs).escaped =
        some (.read failure) := by
  induction objs generalizing s with
  | nil => exact Or.inl hlive
  | cons obj objs ih =>
      have hone : (s.handleResponse mp obj).escaped = none ∨
          ∃ failure, (s.handleResponse mp obj).escaped =
            some (.read failure) := by
        unfold State.handleResponse
        split
        · exact Or.inr ⟨_, rfl⟩
        · rename_i response _
          obtain ⟨-, -, hescaped, -⟩ :=
            currentCall_frame s response.id.toInt32
          dsimp only
          split
          · exact Or.inl (hescaped.trans hlive)
          · exact Or.inr ⟨_, rfl⟩
      unfold State.handleResponses
      dsimp only
      rcases hone with hnone | ⟨failure, hescaped⟩
      · rw [if_neg (by simp [hnone])]
        exact ih _ hnone
      · rw [if_pos (by simp [hescaped])]
        exact Or.inr ⟨failure, hescaped⟩

/-- What undisturbed steps maintain. -/
structure Sound (s : State Buf) : Prop where
  tracked : Tracked s
  noEscape : ∀ failure, s.escaped ≠ some (.read failure)
  noneBroken : ∀ c ∈ s.ran, s.shared (.call c.number) ≠ some .brokenPromise

namespace Sound

theorem initial : Sound (State.initial : State Buf) :=
  ⟨.initial, by simp [State.initial], by simp [State.initial]⟩

variable {mp}

theorem robust {s : State Buf} (h : Sound s) : Robust mp s :=
  ⟨h.noEscape, h.noneBroken, fun _ hrest => extends_of_reachable mp hrest⟩

/-- Destroying an entry that is not the one of a waiting call breaks the
promise of no call. -/
theorem abandon {s : State Buf} (h : Sound s) {key : Int32}
    (hnot : ¬ AwaitedAt s key) {c : Call} (hc : c ∈ s.issued) :
    State.abandon s.shared (s.ongoingCalls key) (.call c.number) ≠
      some .brokenPromise := by
  intro hbroken
  rcases broken_of_abandon hbroken with hold | ⟨entry, hentry, hown, hempty⟩
  · -- broken before: neither a call that has run nor one that has not
    by_cases hran : c.number ∈ s.ran.map Call.number
    · obtain ⟨d, hd, hnumber⟩ := List.mem_map.mp hran
      rw [← hnumber] at hold
      exact h.noneBroken d hd hold
    · rw [h.tracked.table.unrun _ hran] at hold
      cases hold
  · obtain ⟨hran, rfl, rfl⟩ := h.tracked.entry_of_call hentry hc hown
    exact hnot ⟨c, hran, hentry, hempty⟩

theorem readDone {s : State Buf} (h : Sound s) (hlive : s.escaped = none)
    {ec : ErrorCode} {objs : List Object}
    (hguard : ReadsResponses s (.readDone ec objs))
    (hundisturbed : Undisturbed s (.readDone ec objs)) :
    (∀ failure, (s.readDone mp objs ec).escaped ≠ some (.read failure)) ∧
      ∀ c ∈ (s.readDone mp objs ec).ran,
        (s.readDone mp objs ec).shared (.call c.number) ≠
          some .brokenPromise := by
  rw [(ReadFrame.readDone mp s objs ec).ran]
  by_cases hsuccess : ec = .success
  · subst hsuccess
    obtain ⟨messages, rfl⟩ := hguard objs rfl
    have hescaped := (handleResponses_escaped_iff mp h.tracked.table hlive
      messages).mpr (hundisturbed.chunk messages rfl)
    obtain ⟨reading, hdone⟩ := readDone_success mp s
      (messages.map Response.Message.toObject)
    rw [hdone]
    constructor
    · intro failure hread
      cases hescaped.symm.trans hread
    · intro c hc hbroken
      exact h.noneBroken c hc (broken_of_handleResponses mp hbroken)
  · obtain ⟨reading, state, hdone⟩ := readDone_error mp s objs hsuccess
    rw [hdone]
    exact ⟨h.noEscape, h.noneBroken⟩

/-- An undisturbed step. -/
theorem step {s s' : State Buf} {e : Event} (h : Sound s)
    (hguard : ReadsResponses s e) (hundisturbed : Undisturbed s e)
    (hstep : Client.step mp s e = some s') : Sound s' := by
  obtain ⟨hlive, heffect⟩ := effect_of_step mp hstep
  have htracked := h.tracked.step heffect
  cases heffect with
  | @insertCall c rest hstrand =>
      have hentered := entered_insertCall mp { s with strand := rest } c
      refine ⟨htracked, ?_, ?_⟩
      · rw [hentered.escaped]
        exact h.noEscape
      · intro d hd
        have hissued := htracked.calls.ran_subset hd
        rw [hentered.issued] at hissued
        rw [hentered.shared]
        exact h.abandon (hundisturbed.insert c rest rfl hstrand) hissued
  | @eraseCall id rest hstrand =>
      refine ⟨htracked, h.noEscape, fun d hd => ?_⟩
      exact h.abandon (hundisturbed.erase id rest rfl hstrand)
        (h.tracked.calls.ran_subset hd)
  | readDone ec objs hreading =>
      obtain ⟨hescape, hbroken⟩ := h.readDone hlive hguard hundisturbed
      exact ⟨htracked, hescape, hbroken⟩
  | refused hconnecting =>
      exact ⟨htracked, by simp [State.refused], h.noneBroken⟩
  | written ec houtstanding =>
      refine ⟨htracked, ?_, h.noneBroken⟩
      intro failure hread
      simp only [State.writeDone] at hread
      split at hread
      · cases hread
      · exact h.noEscape failure hread
  | _ => exact ⟨htracked, h.noEscape, h.noneBroken⟩

/-- A step into a robust state is undisturbed. -/
theorem undisturbed {s s' : State Buf} {e : Event} (h : Sound s)
    (hstep : Client.step mp s e = some s') (hrobust : Robust mp s') :
    Undisturbed s e := by
  obtain ⟨hlive, heffect⟩ := effect_of_step mp hstep
  refine ⟨?_, ?_, ?_⟩
  · rintro messages rfl
    cases heffect with
    | readDone ec objs hreading =>
        obtain ⟨reading, hdone⟩ := readDone_success mp s
          (messages.map Response.Message.toObject)
        rw [hdone] at hrobust
        rcases handleResponses_escaped mp s hlive
          (messages.map Response.Message.toObject) with
          hnone | ⟨failure, hescaped⟩
        · exact (handleResponses_escaped_iff mp h.tracked.table hlive
            messages).mp hnone
        · exact absurd hescaped (hrobust.noEscape failure)
  · rintro id rest rfl hstrand hawaited
    obtain ⟨c, hc, hbroken⟩ := abandon_of_awaited hawaited
    cases heffect with
    | eraseCall hstrand' =>
        cases hstrand.symm.trans hstrand'
        exact hrobust.noneBroken c hc hbroken
    | insertCall hstrand' => cases hstrand.symm.trans hstrand'
    | writeNotification hstrand' => cases hstrand.symm.trans hstrand'
    | flushPending hstrand' => cases hstrand.symm.trans hstrand'
  · rintro d rest rfl hstrand hawaited
    obtain ⟨c, hc, hbroken⟩ := abandon_of_awaited hawaited
    cases heffect with
    | insertCall hstrand' =>
        cases hstrand.symm.trans hstrand'
        have hentered := entered_insertCall mp { s with strand := rest } d
        apply hrobust.noneBroken c
        · rw [hentered.ran]
          exact List.mem_append_left _ hc
        · rw [hentered.shared]
          exact hbroken
    | eraseCall hstrand' => cases hstrand.symm.trans hstrand'
    | writeNotification hstrand' => cases hstrand.symm.trans hstrand'
    | flushPending hstrand' => cases hstrand.symm.trans hstrand'

end Sound

/-- Whatever ids a server sends in well-formed responses: a run is robust
throughout exactly when every chunk answers different ids whose entries can
still be satisfied, no erase runs on the entry of a waiting call, and no call
is entered over one. -/
theorem always_robust_iff (es : List Event)
    (hreads : EachStep (step mp) ReadsResponses State.initial es) :
    Always (step mp) (Robust mp) State.initial es ↔
      EachStep (step mp) Undisturbed State.initial es :=
  always_iff_eachStep (fun _ h => h.robust)
    (fun _ _ _ h hguard hundisturbed hstep =>
      h.step hguard hundisturbed hstep)
    (fun _ _ _ h _ hnot hstep hrobust => hnot (h.undisturbed hstep hrobust))
    Sound.initial hreads

/-- A response with the id of no call arrives twice in one chunk. -/
def repeatedRun : List Event :=
  [.connectDone, .readDone .success
    [Response.Message.toObject ⟨1, 7, .nil, .nil⟩,
      Response.Message.toObject ⟨1, 7, .nil, .nil⟩]]

/-- A response arrives before the call with its index is entered: the erase
that it posts comes after the call. -/
def guessedRun : List Event :=
  [.connectDone, .runStrand, .draw "f" [], .post 0,
    .readDone .success [Response.Message.toObject ⟨1, 1, .nil, .nil⟩],
    .runStrand, .runStrand]

theorem always_robust_iff_repeated :
    Always (step .reference) (Robust .reference)
        (State.initial : State (Option Object)) repeatedRun ↔
      EachStep (step .reference) Undisturbed
        (State.initial : State (Option Object)) repeatedRun := by
  apply always_robust_iff
  rintro _ ⟨⟩
  refine ⟨by simp [ReadsResponses], ?_⟩
  rintro _ ⟨⟩
  refine ⟨?_, trivial⟩
  rintro _ ⟨⟩
  exact ⟨[⟨1, 7, .nil, .nil⟩, ⟨1, 7, .nil, .nil⟩], rfl⟩

/-- A repeated id makes an exception escape from the read handler, and a
guessed one destroys the promise of a call. -/
theorem repeated_and_guessed_ids_break :
    ¬ Always (step .reference) (Robust .reference) State.initial
        repeatedRun ∧
      (run (step .reference) State.initial repeatedRun).map State.escaped =
        some (some (.read .alreadySatisfied)) ∧
      ¬ Always (step .reference) (Robust .reference) State.initial
        guessedRun ∧
      (run (step .reference) State.initial guessedRun).map
        (fun s => (s.ran.map Call.number, s.shared (.call 0))) =
          some ([0], some .brokenPromise) := by
  refine ⟨?_, rfl, ?_, rfl⟩
  · intro halways
    have hlast : Robust .reference _ := (halways.2 _ rfl).2 _ rfl
    exact hlast.noEscape .alreadySatisfied rfl
  · intro halways
    have hlast : Robust .reference _ :=
      ((((((halways.2 _ rfl).2 _ rfl).2 _ rfl).2 _ rfl).2 _ rfl).2 _ rfl).2
        _ rfl
    exact hlast.noneBroken ⟨0, 1, "f", []⟩ List.mem_cons_self rfl

end Client
end RpcLib
