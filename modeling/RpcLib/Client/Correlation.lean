import RpcLib.Client.CallTable
import RpcLib.Client.RequestFlow

/-!
# Which response satisfies which promise

With a server that answers requests it has received, each at most once, and
with fewer than `2 ^ 32` calls, the promise of a call is satisfied by the
response with its own index and by nothing else (`correlated_of_reachable`).

The invariant is `Answered`: a call that has run and is not answered has its
entry in the table and its promise empty; one that is answered has the outcome
of its response; and an erase on the strand is for an answered call.
-/

namespace RpcLib
namespace Client

open Protocol Transport Foundation TransitionSystem

variable {Buf : Type} (mp : MsgPack Buf)

/-! ## The assumption on the server -/

/-- A request with this id has been handed to the socket.  The server reads
its index as an `int32_t` and answers with a `uint32_t`. -/
def Requested (s : State Buf) (id : UInt32) : Prop :=
  ∃ buffer ∈ s.writer.started, ∃ o code idx name args,
    mp.unpack buffer = some o ∧ mp.arraySize o = 4 ∧
      mp.callTuple o = some (code, idx, name, args) ∧ id = idx.toUInt32

/-- Fewer than `2 ^ 32` calls are made, and a chunk from the server consists
of well-formed responses to requests that the socket was given, with no id
answered twice. -/
structure AnswersRequests (s : State Buf) (e : Event) : Prop where
  fewCalls : ∀ funcName args, e = .draw funcName args →
    s.issued.length + 1 < UInt32.size
  answers : ∀ objs, e = .readDone .success objs →
    ∃ messages : List Response.Message,
      objs = messages.map Response.Message.toObject ∧
      (messages.map Response.Message.id).Nodup ∧
      ∀ m ∈ messages, m.id ∉ s.responses.map Response.id ∧
        Requested mp s m.id

/-- A requested id is the index of a call whose handler has run. -/
theorem exists_ran_of_requested {s : State Buf} (h : RequestsTracked mp s)
    {id : UInt32} (hrequested : Requested mp s id) :
    ∃ c ∈ s.ran, id = c.idx.toUInt32 := by
  obtain ⟨buffer, hstarted, o, code, idx, name, args, hunpack, hsize, htuple,
    rfl⟩ := hrequested
  have hrequest : isRequest mp buffer = true := by
    simp [isRequest, hunpack, hsize]
  have hhanded : buffer ∈ s.handedOver.filter (isRequest mp) :=
    List.mem_filter.mpr ⟨h.writer.started_subset mp hstarted, hrequest⟩
  have hran : buffer ∈ s.ran.map (Call.buffer mp) := by
    rw [← h.requests]
    exact List.mem_append_left _ hhanded
  obtain ⟨c, hc, rfl⟩ := List.mem_map.mp hran
  obtain rfl : c.message = o := by
    simpa [Call.buffer] using hunpack
  have hidx : c.idx = idx := by
    simp [Call.message] at htuple
    exact htuple.2.1
  exact ⟨c, hc, by rw [hidx]⟩

/-- An index is recovered from the id of its response. -/
theorem idx_eq_of_id {i j : Int32} (hid : i.toUInt32 = j.toUInt32) :
    i = j := by
  rw [← Int32.toInt32_toUInt32 i, hid, Int32.toInt32_toUInt32]

/-! ## The invariant -/

/-- Where the responses have gone. -/
structure Answered (s : State Buf) : Prop where
  answeredBy : ∀ r ∈ s.responses, ∃ c ∈ s.ran, r.id = c.idx.toUInt32
  nodup : (s.responses.map Response.id).Nodup
  erases : ∀ id, .eraseCall id ∈ s.strand → id ∈ s.responses.map Response.id
  waiting : ∀ c ∈ s.ran, c.idx.toUInt32 ∉ s.responses.map Response.id →
    s.ongoingCalls c.idx = some c.entry ∧ s.shared (.call c.number) = none
  settled : ∀ c ∈ s.ran, ∀ r ∈ s.responses, r.id = c.idx.toUInt32 →
    s.shared (.call c.number) = some (State.outcomeOf r c.funcName)
  noDefaults : s.defaults = 0
  noEscape : ∀ failure, s.escaped ≠ some (.read failure)

/-- The invariant of a client whose server answers requests. -/
structure Correlated (s : State Buf) : Prop where
  requests : RequestsTracked mp s
  tracked : Tracked s
  short : s.issued.length < UInt32.size
  answered : Answered s

theorem Answered.initial : Answered (State.initial : State Buf) where
  answeredBy := by simp [State.initial]
  nodup := .nil
  erases := by simp [State.initial]
  waiting := by simp [State.initial]
  settled := by simp [State.initial]
  noDefaults := rfl
  noEscape := fun _ h => by cases h

namespace Correlated

theorem initial : Correlated mp (State.initial : State Buf) :=
  ⟨.initial mp, .initial, show 0 < UInt32.size by decide, .initial⟩

variable {mp}

/-- Calls that have run are told apart by their indices. -/
theorem eq_of_idx {s : State Buf} (h : Correlated mp s) {c d : Call}
    (hc : c ∈ s.issued) (hd : d ∈ s.issued) (hidx : c.idx = d.idx) : c = d :=
  h.tracked.calls.eq_of_idx h.short hc hd hidx

/-- A response with the index of a call is there only after the call has
run. -/
theorem ran_of_response {s : State Buf} (h : Correlated mp s) {c : Call}
    (hc : c ∈ s.issued) {r : Response} (hr : r ∈ s.responses)
    (hid : r.id = c.idx.toUInt32) : c ∈ s.ran := by
  obtain ⟨d, hd, hid'⟩ := h.answered.answeredBy r hr
  have hidx : d.idx = c.idx := idx_eq_of_id (hid'.symm.trans hid)
  obtain rfl := h.eq_of_idx (h.tracked.calls.ran_subset hd) hc hidx
  exact hd

/-- An entry of the table is the entry of a call that has run. -/
theorem entry {s : State Buf} (h : Correlated mp s) {key : Int32}
    {entry : Entry} (hentry : s.ongoingCalls key = some entry) :
    ∃ c ∈ s.ran, key = c.idx ∧ entry = c.entry := by
  rcases h.tracked.table.owner key entry hentry with hcall | ⟨n, hn, -⟩
  · exact hcall
  · rw [h.answered.noDefaults] at hn
    omega

/-- A queued call has not been answered and its index is free. -/
theorem free_of_queued {s : State Buf} (h : Correlated mp s) {c : Call}
    {rest : List (Task Buf)} (hstrand : s.strand = .insertCall c :: rest) :
    s.ongoingCalls c.idx = none ∧
      c.idx.toUInt32 ∉ s.responses.map Response.id := by
  obtain ⟨hissued, hnot⟩ := h.tracked.calls.not_ran_of_queued hstrand
  -- an index in use would belong to this call, which has not run
  have hother : ∀ d ∈ s.ran, d.idx ≠ c.idx := by
    intro d hd hidx
    obtain rfl := h.eq_of_idx (h.tracked.calls.ran_subset hd) hissued hidx
    exact hnot (List.mem_map_of_mem hd)
  constructor
  · cases hentry : s.ongoingCalls c.idx with
    | none => rfl
    | some entry =>
        obtain ⟨d, hd, hidx, -⟩ := h.entry hentry
        exact absurd hidx.symm (hother d hd)
  · intro hanswered
    obtain ⟨r, hr, hid⟩ := List.mem_map.mp hanswered
    exact hother c (h.ran_of_response hissued hr hid) rfl

/-- Entering a call adds an unanswered call. -/
theorem insertCall {s : State Buf} (h : Correlated mp s) {c : Call}
    {rest : List (Task Buf)} (hstrand : s.strand = .insertCall c :: rest) :
    Answered ({ s with strand := rest }.insertCall mp c) := by
  obtain ⟨hfree, hunanswered⟩ := h.free_of_queued hstrand
  obtain ⟨hissued, hnot⟩ := h.tracked.calls.not_ran_of_queued hstrand
  have hentered := entered_insertCall mp { s with strand := rest } c
  have hshared : ({ s with strand := rest }.insertCall mp c).shared =
      s.shared := by
    rw [hentered.shared]
    show State.abandon s.shared (s.ongoingCalls c.idx) = s.shared
    rw [hfree]
    rfl
  have hran : ∀ d ∈ ({ s with strand := rest }.insertCall mp c).ran,
      d ∈ s.ran ∨ d = c := by
    intro d hd
    rw [hentered.ran] at hd
    simpa using hd
  refine ⟨?_, ?_, ?_, ?_, ?_, ?_, ?_⟩
  · intro r hr
    rw [hentered.responses] at hr
    obtain ⟨d, hd, hid⟩ := h.answered.answeredBy r hr
    refine ⟨d, ?_, hid⟩
    rw [hentered.ran]
    exact List.mem_append_left _ hd
  · rw [hentered.responses]
    exact h.answered.nodup
  · intro id hid
    rw [hentered.strand] at hid
    rw [hentered.responses]
    apply h.answered.erases
    rw [hstrand]
    exact List.mem_cons_of_mem _ hid
  · intro d hd hd'
    rw [hentered.responses] at hd'
    rw [hentered.ongoingCalls, hshared]
    rcases hran d hd with hold | rfl
    · obtain ⟨hentry, hempty⟩ := h.answered.waiting d hold hd'
      have hne : d.idx ≠ c.idx := by
        intro hidx
        rw [hidx, hfree] at hentry
        cases hentry
      exact ⟨by rw [Function.update_of_ne hne]; exact hentry, hempty⟩
    · exact ⟨Function.update_self .., h.tracked.table.unrun _ hnot⟩
  · intro d hd r hr hid
    rw [hentered.responses] at hr
    rw [hshared]
    rcases hran d hd with hold | rfl
    · exact h.answered.settled d hold r hr hid
    · exact absurd (hid ▸ List.mem_map_of_mem hr) hunanswered
  · rw [hentered.defaults]
    exact h.answered.noDefaults
  · rw [hentered.escaped]
    exact h.answered.noEscape

/-- The entry that a posted erase removes has a satisfied promise. -/
theorem satisfied_of_erase {s : State Buf} (h : Correlated mp s)
    {id : UInt32} {rest : List (Task Buf)}
    (hstrand : s.strand = .eraseCall id :: rest) {entry : Entry}
    (hentry : s.ongoingCalls id.toInt32 = some entry) :
    ∃ outcome, s.shared entry.promise = some outcome := by
  obtain ⟨c, hc, hidx, rfl⟩ := h.entry hentry
  have hanswered := h.answered.erases id (by simp [hstrand])
  obtain ⟨r, hr, hid⟩ := List.mem_map.mp hanswered
  have hown : r.id = c.idx.toUInt32 := by
    rw [hid, ← hidx, UInt32.toUInt32_toInt32]
  exact ⟨_, h.answered.settled c hc r hr hown⟩

/-- An erase removes the entry of an answered call. -/
theorem eraseCall {s : State Buf} (h : Correlated mp s) {id : UInt32}
    {rest : List (Task Buf)} (hstrand : s.strand = .eraseCall id :: rest) :
    Answered ({ s with strand := rest }.eraseCall id) := by
  have hanswered := h.answered.erases id (by simp [hstrand])
  -- the promise that goes with the entry has been satisfied
  have hshared : ({ s with strand := rest }.eraseCall id).shared =
      s.shared := by
    show State.abandon s.shared (s.ongoingCalls id.toInt32) = s.shared
    cases hentry : s.ongoingCalls id.toInt32 with
    | none => rfl
    | some entry =>
        obtain ⟨outcome, hfilled⟩ := h.satisfied_of_erase hstrand hentry
        exact WriteOnce.fill_of_filled hfilled _
  refine ⟨h.answered.answeredBy, h.answered.nodup, ?_, ?_, ?_,
    h.answered.noDefaults, h.answered.noEscape⟩
  · intro id' hid'
    apply h.answered.erases
    rw [hstrand]
    exact List.mem_cons_of_mem _ hid'
  · intro c hc hc'
    obtain ⟨hentry, hempty⟩ := h.answered.waiting c hc hc'
    -- a waiting call has not been answered, so its entry is another one
    have hne : c.idx ≠ id.toInt32 := by
      intro hidx
      rw [hidx, UInt32.toUInt32_toInt32] at hc'
      exact hc' hanswered
    rw [hshared]
    refine ⟨?_, hempty⟩
    show Function.update s.ongoingCalls id.toInt32 none c.idx = _
    rw [Function.update_of_ne hne]
    exact hentry
  · rw [hshared]
    exact h.answered.settled

/-! ## The responses of a chunk -/

/-- A response to an unanswered call finds the entry of that call, and its
empty promise. -/
theorem handleResponse {s : State Buf} (h : Correlated mp s)
    {m : Response.Message} {c : Call} (hc : c ∈ s.ran)
    (hid : m.id = c.idx.toUInt32)
    (hnew : m.id ∉ s.responses.map Response.id) :
    s.handleResponse mp m.toObject = s.satisfied c.entry m.decoded := by
  obtain ⟨hentry, hempty⟩ := h.answered.waiting c hc (hid ▸ hnew)
  have hkey : m.decoded.id.toInt32 = c.idx := by
    rw [Response.Message.decoded_id, hid, Int32.toInt32_toUInt32]
  have hcurrent : s.currentCall m.decoded.id.toInt32 = (s, c.entry) := by
    unfold State.currentCall
    rw [hkey, hentry]
  have hcell : s.shared
      (s.currentCall m.decoded.id.toInt32).2.promise = none := by
    rw [hcurrent]
    exact hempty
  rw [handleResponse_of_empty mp (Response.Message.ofHandle_toObject mp m)
    hcell, hcurrent]

/-- After its response a call is answered, and the others are as before. -/
theorem satisfied {s : State Buf} (h : Correlated mp s)
    {m : Response.Message} {c : Call} (hc : c ∈ s.ran)
    (hid : m.id = c.idx.toUInt32)
    (hnew : m.id ∉ s.responses.map Response.id) :
    Correlated mp (s.satisfied c.entry m.decoded) := by
  obtain ⟨hentry, -⟩ := h.answered.waiting c hc (hid ▸ hnew)
  have hother : ∀ d ∈ s.ran, d ≠ c →
      (s.satisfied c.entry m.decoded).shared (.call d.number) =
        s.shared (.call d.number) := by
    intro d hd hne
    apply Function.update_of_ne
    intro hnumber
    exact hne (h.tracked.calls.eq_of_number (h.tracked.calls.ran_subset hd)
      (h.tracked.calls.ran_subset hc) (PromiseId.call.inj hnumber))
  have hresponse : ∀ r ∈ (s.satisfied c.entry m.decoded).responses,
      r ∈ s.responses ∨ r = m.decoded := by
    intro r hr
    simpa [State.satisfied] using hr
  have hframe : ReadFrame s (s.satisfied c.entry m.decoded) :=
    { ReadFrame.refl s with
      strand := ⟨[m.decoded.id], by simp [State.satisfied]⟩ }
  refine ⟨h.requests.read hframe, ⟨h.tracked.calls.read hframe, ?_⟩, h.short,
    ⟨?_, ?_, ?_, ?_, ?_, h.answered.noDefaults, h.answered.noEscape⟩⟩
  · exact h.tracked.table.fill hentry rfl rfl rfl fun p hne =>
      Function.update_of_ne hne _ _
  · intro r hr
    rcases hresponse r hr with hold | rfl
    · exact h.answered.answeredBy r hold
    · exact ⟨c, hc, hid⟩
  · show ((s.responses ++ [m.decoded]).map Response.id).Nodup
    rw [List.map_append, List.nodup_append]
    refine ⟨h.answered.nodup, by simp, ?_⟩
    intro id hold id' hnew' hsame
    obtain rfl : id' = m.id := by simpa using hnew'
    exact hnew (hsame ▸ hold)
  · intro id hid'
    show id ∈ (s.responses ++ [m.decoded]).map Response.id
    rcases List.mem_append.mp hid' with hold | hnew'
    · simp only [List.map_append, List.mem_append]
      exact Or.inl (h.answered.erases id hold)
    · simp at hnew'
      simp [hnew']
  · intro d hd hd'
    have hunanswered : d.idx.toUInt32 ∉ s.responses.map Response.id := by
      intro hmem
      apply hd'
      simp only [State.satisfied, List.map_append, List.mem_append]
      exact Or.inl hmem
    have hne : d ≠ c := by
      rintro rfl
      apply hd'
      simp [State.satisfied, hid]
    rw [hother d hd hne]
    exact h.answered.waiting d hd hunanswered
  · intro d hd r hr hown
    rcases hresponse r hr with hold | rfl
    · have hne : d ≠ c := by
        rintro rfl
        rw [hid, ← hown] at hnew
        exact hnew (List.mem_map_of_mem hold)
      rw [hother d hd hne]
      exact h.answered.settled d hd r hold hown
    · -- the response is this call's own
      have hidx : d.idx = c.idx := idx_eq_of_id (hown.symm.trans hid)
      obtain rfl := h.eq_of_idx (h.tracked.calls.ran_subset hd)
        (h.tracked.calls.ran_subset hc) hidx
      exact Function.update_self ..

/-- A chunk of responses to different unanswered calls: no entry is created
or removed and no exception escapes. -/
theorem handleResponses {s : State Buf} (h : Correlated mp s)
    (hlive : s.escaped = none) {messages : List Response.Message}
    (hnodup : (messages.map Response.Message.id).Nodup)
    (hanswers : ∀ m ∈ messages, m.id ∉ s.responses.map Response.id ∧
      ∃ c ∈ s.ran, m.id = c.idx.toUInt32) :
    Correlated mp (s.handleResponses mp
        (messages.map Response.Message.toObject)) ∧
      (s.handleResponses mp
        (messages.map Response.Message.toObject)).ongoingCalls =
          s.ongoingCalls := by
  induction messages generalizing s with
  | nil => exact ⟨h, rfl⟩
  | cons m messages ih =>
      obtain ⟨hnew, c, hc, hid⟩ := hanswers m List.mem_cons_self
      rw [List.map_cons, List.nodup_cons] at hnodup
      have hnext := h.satisfied hc hid hnew
      have hrest : ∀ m' ∈ messages,
          m'.id ∉ (s.satisfied c.entry m.decoded).responses.map Response.id ∧
            ∃ d ∈ (s.satisfied c.entry m.decoded).ran,
              m'.id = d.idx.toUInt32 := by
        intro m' hm'
        obtain ⟨hnew', hown'⟩ := hanswers m' (List.mem_cons_of_mem _ hm')
        have hne : m'.id ≠ m.id := by
          intro hsame
          exact hnodup.1 (hsame ▸ List.mem_map_of_mem hm')
        refine ⟨?_, hown'⟩
        simp only [State.satisfied, List.map_append, List.mem_append]
        rintro (hold | hnew'')
        · exact hnew' hold
        · exact hne (by simpa using hnew'')
      obtain ⟨hcorrelated, htable⟩ := ih hnext hlive hnodup.2 hrest
      rw [List.map_cons]
      unfold State.handleResponses
      rw [h.handleResponse hc hid hnew]
      have halive : (s.satisfied c.entry m.decoded).escaped.isSome = false := by
        simp [State.satisfied, hlive]
      dsimp only
      rw [halive]
      exact ⟨hcorrelated, htable⟩

/-- A read that the assumption on the server admits. -/
theorem readDone {s : State Buf} (h : Correlated mp s)
    (hlive : s.escaped = none) {ec : ErrorCode} {objs : List Object}
    (hguard : AnswersRequests mp s (.readDone ec objs)) :
    Answered (s.readDone mp objs ec) ∧
      (s.readDone mp objs ec).ongoingCalls = s.ongoingCalls := by
  by_cases hsuccess : ec = .success
  · subst hsuccess
    obtain ⟨messages, rfl, hnodup, hanswers⟩ := hguard.answers _ rfl
    obtain ⟨hread, htable⟩ := h.handleResponses hlive hnodup fun m hm =>
      ⟨(hanswers m hm).1,
        exists_ran_of_requested mp h.requests (hanswers m hm).2⟩
    obtain ⟨reading, hdone⟩ := readDone_success mp s
      (messages.map Response.Message.toObject)
    rw [hdone]
    exact ⟨{ hread.answered with }, htable⟩
  · obtain ⟨reading, state, hdone⟩ := readDone_error mp s objs hsuccess
    rw [hdone]
    exact ⟨{ h.answered with }, rfl⟩

theorem step {s s' : State Buf} {e : Event} (h : Correlated mp s)
    (hguard : AnswersRequests mp s e) (hstep : step mp s e = some s') :
    Correlated mp s' := by
  obtain ⟨hlive, heffect⟩ := effect_of_step mp hstep
  refine ⟨h.requests.step heffect, h.tracked.step heffect, ?_, ?_⟩
  · cases heffect with
    | draw funcName args =>
        have hfew := hguard.fewCalls funcName args rfl
        simpa [State.drawCall] using hfew
    | @insertCall c rest hstrand =>
        rw [(entered_insertCall mp { s with strand := rest } c).issued]
        exact h.short
    | readDone ec objs hreading =>
        rw [(ReadFrame.readDone mp s objs ec).issued]
        exact h.short
    | _ => exact h.short
  · cases heffect with
    | insertCall hstrand => exact h.insertCall hstrand
    | eraseCall hstrand => exact h.eraseCall hstrand
    | readDone ec objs hreading => exact (h.readDone hlive hguard).1
    | written ec houtstanding =>
        refine { h.answered with noEscape := ?_ }
        intro failure hread
        simp only [State.writeDone] at hread
        split at hread
        · cases hread
        · exact h.answered.noEscape failure hread
    | refused hconnecting =>
        exact { h.answered with noEscape := by simp [State.refused] }
    | draw funcName args => exact { h.answered with }
    | retried hconnecting => exact h.answered
    | post hdrawn =>
        refine { h.answered with erases := fun id hid => ?_ }
        exact h.answered.erases id (by simpa [State.postCall] using hid)
    | notify funcName args =>
        refine { h.answered with erases := fun id hid => ?_ }
        exact h.answered.erases id (by simpa [State.notify] using hid)
    | connected hconnecting =>
        refine { h.answered with erases := fun id hid => ?_ }
        exact h.answered.erases id (by simpa [State.connected] using hid)
    | writeNotification hstrand =>
        refine { h.answered with erases := fun id hid => ?_ }
        exact h.answered.erases id
          (hstrand ▸ List.mem_cons_of_mem _ hid)
    | flushPending hstrand =>
        refine { h.answered with erases := fun id hid => ?_ }
        exact h.answered.erases id
          (hstrand ▸ List.mem_cons_of_mem _ hid)

/-- No step overwrites or erases an entry whose promise is empty. -/
theorem keeps_pending {s s' : State Buf} {e : Event} (h : Correlated mp s)
    (hguard : AnswersRequests mp s e) (hstep : Client.step mp s e = some s')
    {key : Int32} {entry : Entry} (hentry : s.ongoingCalls key = some entry)
    (hempty : s.shared entry.promise = none) :
    s'.ongoingCalls key = some entry := by
  obtain ⟨hlive, heffect⟩ := effect_of_step mp hstep
  cases heffect with
  | @insertCall c rest hstrand =>
      have hne : key ≠ c.idx := by
        rintro rfl
        rw [(h.free_of_queued hstrand).1] at hentry
        cases hentry
      rw [(entered_insertCall mp { s with strand := rest } c).ongoingCalls,
        Function.update_of_ne hne]
      exact hentry
  | @eraseCall id rest hstrand =>
      have hne : key ≠ id.toInt32 := by
        rintro rfl
        obtain ⟨outcome, hfilled⟩ := h.satisfied_of_erase hstrand hentry
        rw [hempty] at hfilled
        cases hfilled
      show Function.update s.ongoingCalls id.toInt32 none key = _
      rw [Function.update_of_ne hne]
      exact hentry
  | readDone ec objs hreading =>
      rw [(h.readDone hlive hguard).2]
      exact hentry
  | _ => exact hentry

/-- The promise of a call holds the outcome of the response with the index of
the call, and nothing before that response. -/
theorem shared_call_iff {s : State Buf} (h : Correlated mp s) {c : Call}
    (hc : c ∈ s.issued) (outcome : Outcome) :
    s.shared (.call c.number) = some outcome ↔
      ∃ r ∈ s.responses, r.id = c.idx.toUInt32 ∧
        outcome = State.outcomeOf r c.funcName := by
  constructor
  · intro hfilled
    by_contra hnone
    push Not at hnone
    have hunanswered : c.idx.toUInt32 ∉ s.responses.map Response.id := by
      intro hanswered
      obtain ⟨r, hr, hid⟩ := List.mem_map.mp hanswered
      have hown :=
        h.answered.settled c (h.ran_of_response hc hr hid) r hr hid
      rw [hfilled] at hown
      exact hnone r hr hid (Option.some.inj hown)
    -- a call that has run is waiting, and one that has not is untouched
    have hempty : s.shared (.call c.number) = none := by
      by_cases hmem : c.number ∈ s.ran.map Call.number
      · obtain ⟨d, hd, hnumber⟩ := List.mem_map.mp hmem
        obtain rfl := h.tracked.calls.eq_of_number
          (h.tracked.calls.ran_subset hd) hc hnumber
        exact (h.answered.waiting d hd hunanswered).2
      · exact h.tracked.table.unrun _ hmem
    rw [hempty] at hfilled
    cases hfilled
  · rintro ⟨r, hr, hid, rfl⟩
    exact h.answered.settled c (h.ran_of_response hc hr hid) r hr hid

end Correlated

/-- With fewer than `2 ^ 32` calls and a server that answers requests it was
sent, each at most once: a call's promise holds an outcome exactly when a
response with the index of the call has been read, and then the outcome of
that response, which is the only one; no run changes an outcome; no step
overwrites or erases an entry whose promise is empty; and the read handler
creates no entry and lets no exception escape. -/
theorem correlated_of_reachable {s : State Buf}
    (hreach : Reachable (step mp) (AnswersRequests mp) State.initial s) :
    (∀ c ∈ s.issued, ∀ outcome,
      s.shared (.call c.number) = some outcome ↔
        ∃ r ∈ s.responses, r.id = c.idx.toUInt32 ∧
          outcome = State.outcomeOf r c.funcName) ∧
    (s.responses.map Response.id).Nodup ∧
    (∀ s', Reachable (step mp) (AnswersRequests mp) s s' →
      WriteOnce.Extends s.shared s'.shared) ∧
    (∀ e s', AnswersRequests mp s e → step mp s e = some s' →
      ∀ key entry, s.ongoingCalls key = some entry →
        s.shared entry.promise = none →
        s'.ongoingCalls key = some entry) ∧
    s.defaults = 0 ∧ ∀ failure, s.escaped ≠ some (.read failure) := by
  have h : Correlated mp s := hreach.invariant (.initial mp)
    fun _ _ _ h hguard hstep => h.step hguard hstep
  refine ⟨fun c hc outcome => h.shared_call_iff hc outcome,
    h.answered.nodup, fun _ hrest => extends_of_reachable mp hrest, ?_,
    h.answered.noDefaults, h.answered.noEscape⟩
  intro e s' hguard hstep key entry hentry hempty
  exact h.keeps_pending hguard hstep hentry hempty

/-- A call is made, sent and answered. -/
def answeredRun : List Event :=
  [.connectDone, .draw "f" [], .post 0, .runStrand, .runStrand,
    .readDone .success [Response.Message.toObject ⟨1, 1, .nil, .str "ok"⟩]]

theorem correlated_of_reachable_answered :
    ∃ s : State (Option Object),
      run (step .reference) State.initial answeredRun = some s ∧
      s.shared (.call 0) = some (.value (.str "ok")) ∧ s.defaults = 0 := by
  obtain ⟨s, hrun⟩ : ∃ s : State (Option Object),
      run (step .reference) State.initial answeredRun = some s := ⟨_, rfl⟩
  have hguard : EachStep (step .reference) (AnswersRequests .reference)
      (State.initial : State (Option Object)) answeredRun := by
    rintro _ ⟨⟩
    refine ⟨⟨by simp, by simp⟩, ?_⟩
    rintro _ ⟨⟩
    refine ⟨⟨fun _ _ _ => by decide, by simp⟩, ?_⟩
    rintro _ ⟨⟩
    refine ⟨⟨by simp, by simp⟩, ?_⟩
    rintro _ ⟨⟩
    refine ⟨⟨by simp, by simp⟩, ?_⟩
    rintro _ ⟨⟩
    refine ⟨⟨by simp, by simp⟩, ?_⟩
    rintro _ ⟨⟩
    refine ⟨⟨by simp, ?_⟩, trivial⟩
    rintro _ ⟨⟩
    refine ⟨[⟨1, 1, .nil, .str "ok"⟩], rfl, by simp, ?_⟩
    intro m hm
    obtain rfl := List.mem_singleton.mp hm
    exact ⟨List.not_mem_nil, _, List.mem_cons_self, _, 0, 1, "f", .array [],
      rfl, rfl, rfl, rfl⟩
  have hcorrelated := correlated_of_reachable .reference
    (reachable_of_run hguard hrun)
  have hcall : (⟨0, 1, "f", []⟩ : Call) ∈ s.issued ∧
      (⟨1, none, some (.str "ok"), false⟩ : Response) ∈ s.responses := by
    obtain rfl := Option.some.inj hrun
    exact ⟨List.mem_cons_self, List.mem_cons_self⟩
  refine ⟨s, hrun, ?_, hcorrelated.2.2.2.2.1⟩
  exact (hcorrelated.1 _ hcall.1 _).mpr ⟨_, hcall.2, rfl, rfl⟩

end Client
end RpcLib
