import Mathlib.Data.List.Nodup
import Mathlib.Data.List.Perm.Basic
import RpcLib.Client.Step

/-!
# Calls, their indices and the table of ongoing calls

What holds in every reachable state, whatever the server sends.
`CallsTracked`: a call is in exactly one place, and its index is its number
plus one, reduced to an `int`.  `TableTracked`: an entry of `ongoing_calls`
belongs to a call whose handler has run, or was created by `operator[]` for a
response; no two entries share a promise; and the promise of a call whose
handler has not run is untouched.
-/

namespace RpcLib
namespace Client

open Protocol Transport Foundation TransitionSystem

variable {Buf : Type} (mp : MsgPack Buf)

/-- The call that a handler of the strand enters. -/
def Task.call : Task Buf → Option Call
  | .insertCall c => some c
  | _ => none

/-- The calls on the strand, in order. -/
def State.queued (s : State Buf) : List Call := s.strand.filterMap Task.call

/-- Every call is drawn, queued or run, and only one of them; calls are
numbered in order and indexed by number. -/
structure CallsTracked (s : State Buf) : Prop where
  numbered : s.issued.map Call.number = List.range s.issued.length
  indexed : ∀ c ∈ s.issued, c.idx = Int32.ofNat (c.number + 1)
  counter : s.callIdx = Int32.ofNat s.issued.length
  placed : (s.drawn ++ s.queued ++ s.ran).Perm s.issued

namespace CallsTracked

theorem initial : CallsTracked (State.initial : State Buf) :=
  ⟨rfl, by simp [State.initial], rfl, .nil⟩

variable {mp}

theorem nodup {s : State Buf} (h : CallsTracked s) :
    ((s.drawn ++ s.queued ++ s.ran).map Call.number).Nodup := by
  rw [(h.placed.map Call.number).nodup_iff, h.numbered]
  exact List.nodup_range

theorem ran_subset {s : State Buf} (h : CallsTracked s) :
    s.ran ⊆ s.issued := by
  intro c hc
  exact h.placed.subset (List.mem_append_right _ hc)

/-- Calls are told apart by their numbers. -/
theorem eq_of_number {s : State Buf} (h : CallsTracked s) {c d : Call}
    (hc : c ∈ s.issued) (hd : d ∈ s.issued) (hnumber : c.number = d.number) :
    c = d := by
  have hnodup : (s.issued.map Call.number).Nodup := by
    rw [h.numbered]
    exact List.nodup_range
  exact List.inj_on_of_nodup_map hnodup hc hd hnumber

/-- With fewer than `2 ^ 32` calls, calls are told apart by their indices,
also after the counter has wrapped. -/
theorem eq_of_idx {s : State Buf} (h : CallsTracked s)
    (hshort : s.issued.length < UInt32.size) {c d : Call} (hc : c ∈ s.issued)
    (hd : d ∈ s.issued) (hidx : c.idx = d.idx) : c = d := by
  have hbound : ∀ e ∈ s.issued, e.number < s.issued.length := by
    intro e he
    have hnumber : e.number ∈ s.issued.map Call.number :=
      List.mem_map_of_mem he
    rw [h.numbered] at hnumber
    exact List.mem_range.mp hnumber
  have hc' := hbound c hc
  have hd' := hbound d hd
  rw [h.indexed c hc, h.indexed d hd] at hidx
  -- the indices agree as 32-bit words, and both numbers are below `2 ^ 32`
  have hwords := congrArg (fun i : Int32 => i.toUInt32.toNat) hidx
  simp only [Int32.toUInt32_ofNat', UInt32.toNat_ofNat'] at hwords
  have hmod : (c.number + 1) % 4294967296 = (d.number + 1) % 4294967296 :=
    hwords
  have hsize : UInt32.size = 4294967296 := rfl
  have hnumber : c.number = d.number := by omega
  exact h.eq_of_number hc hd hnumber

/-- The handler of a call runs once. -/
theorem not_ran_of_queued {s : State Buf} (h : CallsTracked s) {c : Call}
    {rest : List (Task Buf)} (hstrand : s.strand = .insertCall c :: rest) :
    c ∈ s.issued ∧ c.number ∉ s.ran.map Call.number := by
  have hqueued : c ∈ s.queued := by
    simp [State.queued, hstrand, Task.call]
  have hplace : c ∈ s.drawn ++ s.queued := List.mem_append_right _ hqueued
  refine ⟨h.placed.subset (List.mem_append_left _ hplace), ?_⟩
  intro hran
  have hnodup := h.nodup
  rw [List.map_append] at hnodup
  exact (List.disjoint_of_nodup_append hnodup) (List.mem_map_of_mem hplace)
    hran

/-- Handlers that enter no call come and go. -/
theorem of_strand {s : State Buf} (h : CallsTracked s)
    {strand : List (Task Buf)}
    (hqueued : strand.filterMap Task.call = s.queued) :
    CallsTracked { s with strand := strand } := by
  have hplaced :
      (s.drawn ++ strand.filterMap Task.call ++ s.ran).Perm s.issued := by
    rw [hqueued]
    exact h.placed
  exact { h with placed := hplaced }

/-- Reading moves no call. -/
theorem read {s s' : State Buf} (h : CallsTracked s)
    (hframe : ReadFrame s s') : CallsTracked s' := by
  obtain ⟨ids, hstrand⟩ := hframe.strand
  have hqueued : s'.queued = s.queued := by
    simp [State.queued, hstrand, Task.call]
  refine ⟨?_, ?_, ?_, ?_⟩
  · rw [hframe.issued]
    exact h.numbered
  · rw [hframe.issued]
    exact h.indexed
  · rw [hframe.callIdx, hframe.issued]
    exact h.counter
  · rw [hframe.drawn, hqueued, hframe.ran, hframe.issued]
    exact h.placed

theorem drawCall {s : State Buf} (h : CallsTracked s) (funcName : String)
    (args : List Object) : CallsTracked (s.drawCall funcName args) := by
  have hnext : s.callIdx + 1 = Int32.ofNat (s.issued.length + 1) := by
    rw [Int32.ofNat_add, ← h.counter]
    rfl
  refine ⟨?_, ?_, ?_, ?_⟩
  · simp [State.drawCall, h.numbered, List.range_succ]
  · intro c hc
    rcases List.mem_append.mp hc with hold | hnew
    · exact h.indexed c hold
    · obtain rfl := List.mem_singleton.mp hnew
      exact hnext
  · simpa [State.drawCall] using hnext
  · -- the new call joins the drawn ones
    show ((s.drawn ++ [_]) ++ s.queued ++ s.ran).Perm (s.issued ++ [_])
    rw [List.append_assoc, List.append_assoc]
    refine List.perm_middle.trans ?_
    refine (List.Perm.cons _ ?_).trans (List.perm_append_singleton ..).symm
    simpa using h.placed

theorem postCall {s : State Buf} (h : CallsTracked s) {i : Nat} {c : Call}
    (hdrawn : s.drawn[i]? = some c) : CallsTracked (s.postCall mp i c) := by
  obtain ⟨hi, rfl⟩ := List.getElem?_eq_some_iff.mp hdrawn
  have hqueued : (s.postCall mp i s.drawn[i]).queued =
      s.queued ++ [s.drawn[i]] := by
    simp [State.postCall, State.queued, Task.call]
  refine ⟨h.numbered, h.indexed, h.counter, ?_⟩
  rw [hqueued]
  show (s.drawn.eraseIdx i ++ (s.queued ++ [s.drawn[i]]) ++ s.ran).Perm
    s.issued
  refine List.Perm.trans ?_ h.placed
  apply List.Perm.append_right
  calc
    s.drawn.eraseIdx i ++ (s.queued ++ [s.drawn[i]])
        = (s.drawn.eraseIdx i ++ s.queued) ++ [s.drawn[i]] := by simp
    List.Perm _ (s.drawn[i] :: (s.drawn.eraseIdx i ++ s.queued)) :=
      List.perm_append_singleton ..
    List.Perm _ (s.drawn ++ s.queued) :=
      (List.getElem_cons_eraseIdx_perm hi).append_right _

theorem insertCall {s : State Buf} (h : CallsTracked s) {c : Call}
    {rest : List (Task Buf)} (hstrand : s.strand = .insertCall c :: rest) :
    CallsTracked ({ s with strand := rest }.insertCall mp c) := by
  have hentered := entered_insertCall mp { s with strand := rest } c
  refine ⟨?_, ?_, ?_, ?_⟩
  · rw [hentered.issued]
    exact h.numbered
  · rw [hentered.issued]
    exact h.indexed
  · rw [hentered.callIdx, hentered.issued]
    exact h.counter
  · have hplaced := h.placed
    unfold State.queued at hplaced ⊢
    rw [hentered.drawn, hentered.strand, hentered.ran, hentered.issued]
    rw [hstrand] at hplaced
    change (s.drawn ++ c :: rest.filterMap Task.call ++ s.ran).Perm s.issued
      at hplaced
    refine List.Perm.trans ?_ hplaced
    rw [List.append_assoc, List.append_assoc]
    apply List.Perm.append_left
    rw [← List.append_assoc]
    exact List.perm_append_singleton c _

theorem step {s s' : State Buf} {e : Event} (h : CallsTracked s)
    (heffect : Effect mp s e s') : CallsTracked s' := by
  cases heffect with
  | draw funcName args => exact h.drawCall funcName args
  | post hdrawn => exact h.postCall hdrawn
  | notify funcName args =>
      have hqueued : (s.notify mp funcName args).strand.filterMap Task.call =
          s.queued := by
        simp [State.notify, State.queued, List.filterMap_cons, Task.call]
      exact { h.of_strand hqueued with }
  | insertCall hstrand => exact h.insertCall hstrand
  | @writeNotification buffer rest hstrand =>
      have hqueued : rest.filterMap Task.call = s.queued := by
        simp [State.queued, hstrand, List.filterMap_cons, Task.call]
      exact { h.of_strand hqueued with }
  | @flushPending rest hstrand =>
      have hqueued : rest.filterMap Task.call = s.queued := by
        simp [State.queued, hstrand, List.filterMap_cons, Task.call]
      exact { h.of_strand hqueued with }
  | @eraseCall id rest hstrand =>
      have hqueued : rest.filterMap Task.call = s.queued := by
        simp [State.queued, hstrand, List.filterMap_cons, Task.call]
      exact { h.of_strand hqueued with }
  | connected hconnecting =>
      have hqueued : s.connected.strand.filterMap Task.call = s.queued := by
        simp [State.connected, State.queued, List.filterMap_cons, Task.call]
      exact { h.of_strand hqueued with }
  | retried hconnecting => exact h
  | refused hconnecting => exact { h with }
  | readDone ec objs hreading =>
      exact h.read (ReadFrame.readDone mp s objs ec)
  | written ec houtstanding => exact { h with }

end CallsTracked

/-! ## One response -/

theorem satisfy_of_empty {shared : Shared} {entry : Entry}
    (hempty : shared entry.promise = none) (response : Response) :
    State.satisfy shared entry response =
      some (Function.update shared entry.promise
        (some (State.outcomeOf response entry.funcName))) := by
  unfold State.satisfy
  split
  · exact WriteOnce.put_of_empty hempty _
  · rw [WriteOnce.put_of_empty hempty]

/-- A promise that is satisfied already makes `set_value` throw, and then
`set_exception` throws from the `catch` clause. -/
theorem satisfy_of_filled {shared : Shared} {entry : Entry}
    {outcome : Outcome} (hfilled : shared entry.promise = some outcome)
    (response : Response) : State.satisfy shared entry response = none := by
  unfold State.satisfy
  split
  · exact WriteOnce.put_of_filled hfilled _
  · rw [WriteOnce.put_of_filled hfilled]
    exact WriteOnce.put_of_filled hfilled _

/-- The state after a response has satisfied the promise of an entry. -/
def State.satisfied (s : State Buf) (entry : Entry) (response : Response) :
    State Buf :=
  { s with
    responses := s.responses ++ [response]
    shared := Function.update s.shared entry.promise
      (some (State.outcomeOf response entry.funcName))
    strand := s.strand ++ [.eraseCall response.id] }

/-- `ongoing_calls[id]` yields the entry that is in the table afterwards. -/
theorem currentCall_entry (s : State Buf) (key : Int32) :
    (s.currentCall key).1.ongoingCalls key = some (s.currentCall key).2 := by
  unfold State.currentCall
  cases hentry : s.ongoingCalls key with
  | some entry => exact hentry
  | none => exact Function.update_self ..

/-- Looking an entry up changes no promise and no other entry. -/
theorem currentCall_frame (s : State Buf) (key : Int32) :
    (s.currentCall key).1.shared = s.shared ∧
      (s.currentCall key).1.responses = s.responses ∧
      (s.currentCall key).1.escaped = s.escaped ∧
      ∀ key', key' ≠ key →
        (s.currentCall key).1.ongoingCalls key' = s.ongoingCalls key' := by
  unfold State.currentCall
  split
  · exact ⟨rfl, rfl, rfl, fun _ _ => rfl⟩
  · exact ⟨rfl, rfl, rfl, fun key' hne => Function.update_of_ne hne _ _⟩

/-- A response whose promise is empty satisfies it. -/
theorem handleResponse_of_empty {s : State Buf} {obj : Object}
    {response : Response} (hdecoded : Response.ofHandle mp obj = some response)
    (hempty : s.shared (s.currentCall response.id.toInt32).2.promise = none) :
    s.handleResponse mp obj =
      (s.currentCall response.id.toInt32).1.satisfied
        (s.currentCall response.id.toInt32).2 response := by
  obtain ⟨hshared, -⟩ := currentCall_frame s response.id.toInt32
  unfold State.handleResponse
  simp only [hdecoded]
  rw [hshared, satisfy_of_empty hempty]
  unfold State.satisfied
  rw [hshared]

/-- A response whose promise is satisfied already ends the process. -/
theorem handleResponse_of_filled {s : State Buf} {obj : Object}
    {response : Response} (hdecoded : Response.ofHandle mp obj = some response)
    {outcome : Outcome}
    (hfilled : s.shared (s.currentCall response.id.toInt32).2.promise =
      some outcome) :
    s.handleResponse mp obj =
      { (s.currentCall response.id.toInt32).1 with
        responses := s.responses ++ [response]
        escaped := some (.read .alreadySatisfied) } := by
  obtain ⟨hshared, hresponses, -⟩ :=
    currentCall_frame s response.id.toInt32
  unfold State.handleResponse
  simp only [hdecoded]
  rw [hshared, satisfy_of_filled hfilled, hresponses]

/-- An object that is no response ends the process. -/
theorem handleResponse_of_undecoded {s : State Buf} {obj : Object}
    (hundecoded : Response.ofHandle mp obj = none) :
    s.handleResponse mp obj = { s with escaped := some (.read .typeError) } := by
  unfold State.handleResponse
  rw [hundecoded]

/-! ## The table -/

/-- Who owns the entries of `ongoing_calls` and the cells of the promises. -/
structure TableTracked (s : State Buf) : Prop where
  owner : ∀ key entry, s.ongoingCalls key = some entry →
    (∃ c ∈ s.ran, key = c.idx ∧ entry = c.entry) ∨
      ∃ n < s.defaults, entry = ⟨"", .default n⟩
  distinct : ∀ key key' entry entry', s.ongoingCalls key = some entry →
    s.ongoingCalls key' = some entry' → entry.promise = entry'.promise →
    key = key'
  unrun : ∀ n, n ∉ s.ran.map Call.number → s.shared (.call n) = none
  undefaulted : ∀ n, s.defaults ≤ n → s.shared (.default n) = none

namespace TableTracked

theorem initial : TableTracked (State.initial : State Buf) where
  owner := by simp [State.initial]
  distinct := by simp [State.initial]
  unrun := fun _ _ => rfl
  undefaulted := fun _ _ => rfl

variable {mp}

/-- The promise of an entry is the one of a call that has run, or of an entry
made before. -/
theorem promise {s : State Buf} (h : TableTracked s) {key : Int32}
    {entry : Entry} (hentry : s.ongoingCalls key = some entry) :
    (∃ n ∈ s.ran.map Call.number, entry.promise = .call n) ∨
      ∃ n < s.defaults, entry.promise = .default n := by
  rcases h.owner key entry hentry with ⟨c, hc, -, rfl⟩ | ⟨n, hn, rfl⟩
  · exact Or.inl ⟨c.number, List.mem_map_of_mem hc, rfl⟩
  · exact Or.inr ⟨n, hn, rfl⟩

/-- Filling the cell of an entry of the table keeps the table tracked. -/
theorem fill {s s' : State Buf} (h : TableTracked s) {key : Int32}
    {entry : Entry} (hentry : s.ongoingCalls key = some entry)
    (htable : s'.ongoingCalls = s.ongoingCalls) (hran : s'.ran = s.ran)
    (hdefaults : s'.defaults = s.defaults)
    (hshared : ∀ p, p ≠ entry.promise → s'.shared p = s.shared p) :
    TableTracked s' := by
  refine ⟨?_, ?_, ?_, ?_⟩
  · rw [htable, hran, hdefaults]
    exact h.owner
  · rw [htable]
    exact h.distinct
  · intro n hn
    rw [hran] at hn
    rw [hshared]
    · exact h.unrun n hn
    · rcases h.promise hentry with ⟨m, hm, hpromise⟩ | ⟨m, -, hpromise⟩
      · rw [hpromise]
        rintro ⟨rfl⟩
        exact hn hm
      · simp [hpromise]
  · intro n hn
    rw [hdefaults] at hn
    rw [hshared]
    · exact h.undefaulted n hn
    · rcases h.promise hentry with ⟨m, -, hpromise⟩ | ⟨m, hm, hpromise⟩
      · simp [hpromise]
      · rw [hpromise]
        rintro ⟨rfl⟩
        omega

/-- Removing an entry keeps the table tracked. -/
theorem remove {s s' : State Buf} (h : TableTracked s) (key : Int32)
    (htable : s'.ongoingCalls = Function.update s.ongoingCalls key none)
    (hran : s'.ran = s.ran) (hdefaults : s'.defaults = s.defaults)
    (hshared : s'.shared = s.shared) : TableTracked s' := by
  have hold : ∀ key' entry, s'.ongoingCalls key' = some entry →
      s.ongoingCalls key' = some entry := by
    intro key' entry hentry
    rw [htable] at hentry
    by_cases hkey : key' = key
    · simp [hkey] at hentry
    · simpa [hkey] using hentry
  refine ⟨?_, ?_, ?_, ?_⟩
  · intro key' entry hentry
    rw [hran, hdefaults]
    exact h.owner key' entry (hold key' entry hentry)
  · intro k k' e e' hk hk' hpromise
    exact h.distinct k k' e e' (hold k e hk) (hold k' e' hk') hpromise
  · rw [hran, hshared]
    exact h.unrun
  · rw [hdefaults, hshared]
    exact h.undefaulted

/-- Adding an entry under a free key, with a promise that no entry has. -/
theorem add {s s' : State Buf} (h : TableTracked s) (key : Int32)
    (entry : Entry) (hfree : s.ongoingCalls key = none)
    (htable : s'.ongoingCalls =
      Function.update s.ongoingCalls key (some entry))
    (howner : (∃ c ∈ s'.ran, key = c.idx ∧ entry = c.entry) ∨
      ∃ n < s'.defaults, entry = ⟨"", .default n⟩)
    (hfresh : ∀ key' entry', s.ongoingCalls key' = some entry' →
      entry'.promise ≠ entry.promise)
    (hran : s.ran ⊆ s'.ran) (hdefaults : s.defaults ≤ s'.defaults)
    (hshared : s'.shared = s.shared) : TableTracked s' := by
  have hcases : ∀ key' entry', s'.ongoingCalls key' = some entry' →
      (key' = key ∧ entry' = entry) ∨ s.ongoingCalls key' = some entry' := by
    intro key' entry' hentry
    rw [htable] at hentry
    by_cases hkey : key' = key
    · subst hkey
      exact Or.inl ⟨rfl, by simpa using hentry.symm⟩
    · exact Or.inr (by simpa [hkey] using hentry)
  refine ⟨?_, ?_, ?_, ?_⟩
  · intro key' entry' hentry
    rcases hcases key' entry' hentry with ⟨rfl, rfl⟩ | hold
    · exact howner
    · rcases h.owner key' entry' hold with ⟨c, hc, hc'⟩ | ⟨n, hn, hn'⟩
      · exact Or.inl ⟨c, hran hc, hc'⟩
      · exact Or.inr ⟨n, by omega, hn'⟩
  · intro k k' e e' hk hk' hpromise
    rcases hcases k e hk with ⟨rfl, rfl⟩ | hold <;>
      rcases hcases k' e' hk' with ⟨rfl, rfl⟩ | hold'
    · rfl
    · exact absurd hpromise.symm (hfresh k' e' hold')
    · exact absurd hpromise (hfresh k e hold)
    · exact h.distinct k k' e e' hold hold' hpromise
  · intro n hn
    rw [hshared]
    apply h.unrun
    intro hmem
    obtain ⟨c, hc, rfl⟩ := List.mem_map.mp hmem
    exact hn (List.mem_map_of_mem (hran hc))
  · intro n hn
    rw [hshared]
    exact h.undefaulted n (by omega)

/-- Destroying the promise of the entry under a key. -/
theorem abandon {s : State Buf} (h : TableTracked s) (key : Int32) :
    TableTracked { s with
      shared := State.abandon s.shared (s.ongoingCalls key) } := by
  cases hentry : s.ongoingCalls key with
  | none => exact { h with }
  | some entry =>
      exact h.fill hentry rfl rfl rfl fun p hne =>
        WriteOnce.fill_of_ne s.shared hne _

theorem eraseCall {s : State Buf} (h : TableTracked s) (id : UInt32) :
    TableTracked (s.eraseCall id) :=
  (h.abandon id.toInt32).remove id.toInt32 rfl rfl rfl rfl

/-- Entering a call: the promise of an entry under the same index is
destroyed, and the new entry has a promise that no entry has. -/
theorem insertCall {s : State Buf} (h : TableTracked s) {c : Call}
    (hnew : c.number ∉ s.ran.map Call.number) :
    TableTracked (s.insertCall mp c) := by
  have hentered := entered_insertCall mp s c
  -- first the old entry goes, with its promise, and then the new one comes
  have hcleared : TableTracked { s with
      shared := State.abandon s.shared (s.ongoingCalls c.idx)
      ongoingCalls := Function.update s.ongoingCalls c.idx none } :=
    (h.abandon c.idx).remove c.idx rfl rfl rfl rfl
  refine hcleared.add c.idx c.entry ?_ ?_ ?_ ?_ ?_ ?_ ?_
  · exact Function.update_self ..
  · rw [hentered.ongoingCalls]
    exact (Function.update_idem ..).symm
  · refine Or.inl ⟨c, ?_, rfl, rfl⟩
    rw [hentered.ran]
    exact List.mem_append_right _ List.mem_cons_self
  · intro key' entry' hentry hsame
    rcases hcleared.promise hentry with ⟨n, hn, hpromise⟩ | ⟨n, -, hpromise⟩
    · rw [hsame] at hpromise
      cases hpromise
      exact hnew hn
    · rw [hsame] at hpromise
      cases hpromise
  · rw [hentered.ran]
    exact List.subset_append_left ..
  · exact Nat.le_of_eq hentered.defaults.symm
  · exact hentered.shared

theorem currentCall {s : State Buf} (h : TableTracked s) (key : Int32) :
    TableTracked (s.currentCall key).1 := by
  unfold State.currentCall
  cases hentry : s.ongoingCalls key with
  | some entry => exact h
  | none =>
      refine h.add key _ hentry rfl ?_ ?_ ?_ ?_ rfl
      · exact Or.inr ⟨s.defaults, by simp, rfl⟩
      · -- the promise of the new entry carries a number not used before
        intro key' entry' hentry' hsame
        rcases h.promise hentry' with ⟨n, -, hpromise⟩ | ⟨n, hn, hpromise⟩
        · rw [hsame] at hpromise
          cases hpromise
        · rw [hsame] at hpromise
          cases hpromise
          omega
      · exact fun _ hc => hc
      · simp

theorem handleResponse {s : State Buf} (h : TableTracked s) (obj : Object) :
    TableTracked (s.handleResponse mp obj) := by
  cases hdecoded : Response.ofHandle mp obj with
  | none =>
      rw [handleResponse_of_undecoded mp hdecoded]
      exact { h with }
  | some response =>
      have hcurrent := h.currentCall response.id.toInt32
      cases hcell : s.shared
          (s.currentCall response.id.toInt32).2.promise with
      | none =>
          rw [handleResponse_of_empty mp hdecoded hcell]
          exact hcurrent.fill (currentCall_entry s response.id.toInt32)
            rfl rfl rfl fun p hne => Function.update_of_ne hne _ _
      | some outcome =>
          rw [handleResponse_of_filled mp hdecoded hcell]
          exact { hcurrent with }

theorem handleResponses {s : State Buf} (h : TableTracked s)
    (objs : List Object) : TableTracked (s.handleResponses mp objs) := by
  induction objs generalizing s with
  | nil => exact h
  | cons obj objs ih =>
      unfold State.handleResponses
      dsimp only
      split
      · exact h.handleResponse obj
      · exact ih (h.handleResponse obj)

theorem step {s s' : State Buf} {e : Event} (h : TableTracked s)
    (hcalls : CallsTracked s) (heffect : Effect mp s e s') :
    TableTracked s' := by
  cases heffect with
  | @insertCall c rest hstrand =>
      have hpopped : TableTracked { s with strand := rest } := { h with }
      exact hpopped.insertCall (hcalls.not_ran_of_queued hstrand).2
  | @eraseCall id rest hstrand =>
      have hpopped : TableTracked { s with strand := rest } := { h with }
      exact hpopped.eraseCall id
  | readDone ec objs hreading =>
      by_cases hsuccess : ec = .success
      · subst hsuccess
        obtain ⟨reading, hdone⟩ := readDone_success mp s objs
        rw [hdone]
        exact { h.handleResponses objs with }
      · obtain ⟨reading, state, hdone⟩ := readDone_error mp s objs hsuccess
        rw [hdone]
        exact { h with }
  | _ => exact { h with }

end TableTracked

/-! ## First outcomes last -/

/-- Destroying a promise does not change an outcome. -/
theorem extends_abandon (shared : Shared) (entry : Option Entry) :
    WriteOnce.Extends shared (State.abandon shared entry) := by
  cases entry with
  | none => exact .refl shared
  | some entry => exact WriteOnce.extends_fill shared _ _

theorem extends_handleResponse (s : State Buf) (obj : Object) :
    WriteOnce.Extends s.shared (s.handleResponse mp obj).shared := by
  cases hdecoded : Response.ofHandle mp obj with
  | none =>
      rw [handleResponse_of_undecoded mp hdecoded]
      exact .refl _
  | some response =>
      obtain ⟨hshared, -⟩ := currentCall_frame s response.id.toInt32
      cases hcell : s.shared
          (s.currentCall response.id.toInt32).2.promise with
      | none =>
          rw [handleResponse_of_empty mp hdecoded hcell]
          unfold State.satisfied
          rw [hshared]
          exact WriteOnce.extends_update hcell _
      | some outcome =>
          rw [handleResponse_of_filled mp hdecoded hcell, hshared]
          exact .refl _

theorem extends_handleResponses (s : State Buf) (objs : List Object) :
    WriteOnce.Extends s.shared (s.handleResponses mp objs).shared := by
  induction objs generalizing s with
  | nil => exact .refl _
  | cons obj objs ih =>
      unfold State.handleResponses
      dsimp only
      split
      · exact extends_handleResponse mp s obj
      · exact (extends_handleResponse mp s obj).trans (ih _)

/-- No step changes the outcome of a promise. -/
theorem extends_of_effect {s s' : State Buf} {e : Event}
    (heffect : Effect mp s e s') :
    WriteOnce.Extends s.shared s'.shared := by
  cases heffect with
  | @insertCall c rest hstrand =>
      rw [(entered_insertCall mp { s with strand := rest } c).shared]
      exact extends_abandon _ _
  | eraseCall hstrand => exact extends_abandon _ _
  | readDone ec objs hreading =>
      by_cases hsuccess : ec = .success
      · subst hsuccess
        obtain ⟨reading, hdone⟩ := readDone_success mp s objs
        rw [hdone]
        exact extends_handleResponses mp s objs
      · obtain ⟨reading, state, hdone⟩ := readDone_error mp s objs hsuccess
        rw [hdone]
        exact .refl _
  | _ => exact .refl _

/-- No run changes the outcome of a promise. -/
theorem extends_of_reachable {guard : State Buf → Event → Prop}
    {s s' : State Buf} (hreach : Reachable (step mp) guard s s') :
    WriteOnce.Extends s.shared s'.shared := by
  refine Reachable.relate
    (R := fun t t' => WriteOnce.Extends t.shared t'.shared) ?_ ?_ ?_ hreach
  · intro t
    exact .refl t.shared
  · intro t t' t'' h h'
    exact WriteOnce.Extends.trans h h'
  · intro t e t' _ hstep
    exact extends_of_effect mp (effect_of_step mp hstep).2

/-- What holds of the calls and the table in every reachable state. -/
structure Tracked (s : State Buf) : Prop where
  calls : CallsTracked s
  table : TableTracked s

namespace Tracked

theorem initial : Tracked (State.initial : State Buf) :=
  ⟨.initial, .initial⟩

variable {mp}

theorem step {s s' : State Buf} {e : Event} (h : Tracked s)
    (heffect : Effect mp s e s') : Tracked s' :=
  ⟨h.calls.step heffect, h.table.step h.calls heffect⟩

/-- An entry with the promise of a call is the entry of that call. -/
theorem entry_of_call {s : State Buf} (h : Tracked s) {key : Int32}
    {entry : Entry} (hentry : s.ongoingCalls key = some entry) {c : Call}
    (hc : c ∈ s.issued) (hpromise : entry.promise = .call c.number) :
    c ∈ s.ran ∧ key = c.idx ∧ entry = c.entry := by
  rcases h.table.owner key entry hentry with
    ⟨d, hd, hkey, rfl⟩ | ⟨n, -, rfl⟩
  · have hnumber : d.number = c.number := PromiseId.call.inj hpromise
    obtain rfl := h.calls.eq_of_number (h.calls.ran_subset hd) hc hnumber
    exact ⟨hd, hkey, rfl⟩
  · cases hpromise

end Tracked

end Client
end RpcLib
