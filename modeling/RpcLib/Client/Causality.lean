import RpcLib.Client.Sending

/-!
# What a call has behind it

A notification may overtake a call that waits for the connection, but a call
overtakes nothing: whatever was posted before a call is handed to the socket
before it.

* `Causal`: in the line of all messages, those posted before a call come
  before it.
* `requests_nodup`: no request is in this line twice.
* `before_of_started`: the socket was given everything that was posted before
  a call before it was given the call.
-/

namespace RpcLib
namespace Client

open Protocol Transport Foundation TransitionSystem

variable {Buf : Type} (mp : MsgPack Buf)

/-! ## Places in a list -/

section Places

variable {α : Type} {x y : α}

/-- An item that moves to the front takes nothing away from before another. -/
theorem exists_before_of_front {between rest before after : List α}
    (hne : x ≠ y) (hsplit : between ++ y :: rest = before ++ x :: after) :
    ∃ before' after', y :: (between ++ rest) = before' ++ x :: after' ∧
      before.Subperm before' := by
  rcases List.append_eq_append_iff.mp hsplit with
    ⟨tail, rfl, hlast⟩ | ⟨tail, rfl, hlast⟩
  · rcases List.cons_eq_append_iff.mp hlast with
      ⟨-, hsame⟩ | ⟨tail, rfl, rfl⟩
    · exact absurd (List.cons.inj hsame).1 hne
    · exact ⟨y :: (between ++ tail), after, by simp,
        List.perm_middle.subperm⟩
  · rcases List.cons_eq_append_iff.mp hlast with
      ⟨-, hsame⟩ | ⟨tail, rfl, rfl⟩
    · exact absurd (List.cons.inj hsame).1.symm hne
    · exact ⟨y :: before, tail ++ rest, by simp,
        (List.sublist_cons_self y before).subperm⟩

/-- Nor does one that moves to some other place before. -/
theorem exists_before_of_move {first between rest before after : List α}
    (hne : x ≠ y)
    (hsplit : first ++ (between ++ y :: rest) = before ++ x :: after) :
    ∃ before' after', first ++ y :: (between ++ rest) = before' ++ x :: after' ∧
      before.Subperm before' := by
  have hbehind : ∀ middle, between ++ y :: rest = middle ++ x :: after →
      ∃ before' after',
        first ++ y :: (between ++ rest) = before' ++ x :: after' ∧
          (first ++ middle).Subperm before' := by
    intro middle hmiddle
    obtain ⟨before', after', hfront, hsubperm⟩ :=
      exists_before_of_front hne hmiddle
    exact ⟨first ++ before', after', by rw [hfront, List.append_assoc],
      (List.subperm_append_left first).mpr hsubperm⟩
  rcases List.append_eq_append_iff.mp hsplit with
    ⟨middle, rfl, hrest⟩ | ⟨middle, rfl, hrest⟩
  · exact hbehind middle hrest
  · rcases List.cons_eq_append_iff.mp hrest with
      ⟨rfl, hlast⟩ | ⟨tail, rfl, rfl⟩
    · have hfirst := hbehind [] hlast
      simpa using hfirst
    · exact ⟨before, tail ++ y :: (between ++ rest), by simp, .refl _⟩

/-- An item that a list holds once is in one place. -/
theorem before_unique {p : α → Bool} {before after before' after' : List α}
    (hx : p x = true) (hnodup : ((before ++ x :: after).filter p).Nodup)
    (hsame : before ++ x :: after = before' ++ x :: after') :
    before = before' ∧ after = after' := by
  rw [List.filter_append, List.filter_cons_of_pos hx,
    List.nodup_middle, List.nodup_cons, List.mem_append] at hnodup
  push Not at hnodup
  obtain ⟨⟨hbefore, hafter⟩, -⟩ := hnodup
  have hnot : ∀ l : List α, x ∉ l.filter p → x ∉ l := fun l h hmem =>
    h (List.mem_filter.mpr ⟨hmem, hx⟩)
  obtain ⟨hfirst, -, hlast⟩ := (List.append_cons_inj_of_notMem
    (hnot before hbefore) (hnot after hafter)).mp hsame
  exact ⟨hfirst, hlast⟩

end Places

/-! ## The line of the messages -/

/-- In the line of all messages what was posted before a call is before it. -/
def Causal (s : State Buf) : Prop :=
  ∀ (c : Call) first later, s.posted = first ++ c.buffer mp :: later →
    ∃ before after, s.messages mp = before ++ c.buffer mp :: after ∧
      first.Subperm before

namespace Causal

theorem initial : Causal mp (State.initial : State Buf) := by
  intro c first later hposted
  simp [State.initial] at hposted

variable {mp}

/-- A call is posted behind everything, and only a notification overtakes. -/
theorem step {s s' : State Buf} {e : Event} (h : Causal mp s)
    (hconserved : Conserved mp s) (heffect : Effect mp s e s') :
    Causal mp s' := by
  intro c first later hsplit
  rcases Ordered.messages_of_effect hconserved.tracked heffect with
    ⟨posted, hposted, hmessages⟩ |
    ⟨buffer, rest, rfl, hstrand, hposted, hmessages⟩
  · rw [hposted] at hsplit
    have hnew : ∀ middle, posted = middle ++ c.buffer mp :: later →
        ∃ before after, s'.messages mp = before ++ c.buffer mp :: after ∧
          (s.posted ++ middle).Subperm before := by
      rintro middle rfl
      refine ⟨s.messages mp ++ middle, later, ?_, ?_⟩
      · rw [hmessages, List.append_assoc]
      · have hplaced : (s.messages mp).Perm s.posted := hconserved.placed
        exact (hplaced.symm.append_right middle).subperm
    rcases List.append_eq_append_iff.mp hsplit with
      ⟨middle, rfl, hrest⟩ | ⟨middle, hold, hrest⟩
    · exact hnew middle hrest
    · rcases List.cons_eq_append_iff.mp hrest with
        ⟨rfl, hlast⟩ | ⟨tail, rfl, rfl⟩
      · have hfirst := hnew [] hlast
        rwa [List.append_nil, hold, List.append_nil] at hfirst
      · obtain ⟨before, after, hbefore, hsubperm⟩ := h c first tail hold
        exact ⟨before, after ++ posted, by simp [hmessages, hbefore],
          hsubperm⟩
  · rw [hposted] at hsplit
    obtain ⟨before, after, hbefore, hsubperm⟩ := h c first later hsplit
    -- what overtakes is not a call
    have hne : c.buffer mp ≠ buffer := by
      obtain ⟨funcName, args, rfl⟩ :=
        hconserved.tracked.notifications buffer (by simp [hstrand])
      intro hsame
      have hrequest := isRequest_buffer mp c
      rw [hsame, isRequest_notification] at hrequest
      cases hrequest
    have hline : s.messages mp = s.handedOver.filter (isMessage mp) ++
        (s.pendingCalls.filter (isMessage mp) ++
          buffer :: rest.filterMap (Task.operation mp)) := by
      rw [State.messages, hstrand]
      rfl
    obtain ⟨before', after', hmoved, hmore⟩ :=
      exists_before_of_move hne (hline.symm.trans hbefore)
    exact ⟨before', after', hmessages.trans hmoved, hsubperm.trans hmore⟩

end Causal

/-! ## The place of a call -/

/-- The requests in the line are those of the calls that were posted. -/
theorem messages_requests {s : State Buf} (h : RequestsTracked mp s) :
    (s.messages mp).filter (isRequest mp) =
      (s.ran ++ s.queued).map (Call.buffer mp) := by
  have hmessage : ∀ l : List Buf, (l.filter (isMessage mp)).filter
      (isRequest mp) = l.filter (isRequest mp) := by
    intro l
    rw [List.filter_filter]
    refine List.filter_congr fun b _ => ?_
    unfold isRequest isMessage
    cases mp.unpack b <;> simp
  have hstrand : ∀ tasks : List (Task Buf), tasks ⊆ s.strand →
      (tasks.filterMap (Task.operation mp)).filter (isRequest mp) =
        (tasks.filterMap Task.call).map (Call.buffer mp) := by
    intro tasks htasks
    induction tasks with
    | nil => rfl
    | cons task tasks ih =>
        have hrest := ih fun t ht => htasks (List.mem_cons_of_mem _ ht)
        cases task with
        | insertCall c =>
            simp [Task.operation, Task.call, hrest]
        | writeNotification b =>
            obtain ⟨funcName, args, rfl⟩ :=
              h.notifications b (htasks List.mem_cons_self)
            simp [List.filterMap_cons, Task.operation, Task.call, hrest]
        | flushPending =>
            simp [List.filterMap_cons, Task.operation, Task.call, hrest]
        | eraseCall id =>
            simp [List.filterMap_cons, Task.operation, Task.call, hrest]
  rw [State.messages, List.filter_append, List.filter_append, hmessage,
    hmessage, hstrand s.strand (List.Subset.refl _), ← List.append_assoc,
    h.requests, ← List.map_append]
  rfl

/-- No request is in the line twice. -/
theorem Correlated.requests_nodup {s : State Buf} (h : Correlated mp s) :
    ((s.messages mp).filter (isRequest mp)).Nodup := by
  rw [messages_requests mp h.requests]
  have hposted : (s.ran ++ s.queued).Subperm s.issued := by
    refine List.Subperm.trans ?_ h.tracked.calls.placed.subperm
    rw [List.append_assoc]
    exact (List.perm_append_comm.subperm).trans
      (List.sublist_append_right _ _).subperm
  have hissued : s.issued.Nodup := by
    have hnumbers := h.tracked.calls.numbered
    exact List.Nodup.of_map _ (hnumbers ▸ List.nodup_range)
  have hnodup : (s.ran ++ s.queued).Nodup := by
    obtain ⟨calls, hperm, hsublist⟩ := hposted
    exact hperm.nodup_iff.mp (hsublist.nodup hissued)
  refine hnodup.map_on fun c hc d hd hsame => ?_
  refine h.eq_of_idx (hposted.subset hc) (hposted.subset hd) (idx_eq_of_id ?_)
  have hid := congrArg (Request.bufferId mp) hsame
  rw [bufferId_buffer, bufferId_buffer] at hid
  exact Option.some.inj hid

/-- So the socket was given no request twice. -/
theorem Correlated.started_nodup {s : State Buf} (h : Correlated mp s) :
    (s.writer.started.filter (isRequest mp)).Nodup := by
  have hall := h.requests_nodup mp
  rw [messages_requests mp h.requests, List.map_append,
    ← h.requests.requests, List.append_assoc] at hall
  have hwriter := h.requests.writer
  obtain ⟨l, hl⟩ := AsyncWriter.exists_ledger mp hwriter.reachable
  have hstarted := AsyncWriter.started_isPrefix hl
  rw [hwriter.accepted] at hstarted
  exact (hstarted.sublist.filter (isRequest mp)).nodup hall.of_append_left

/-- Before the socket was given a call it was given everything that was posted
before the call. -/
theorem Causal.before_of_started {s : State Buf} (h : Causal mp s)
    (hcorrelated : Correlated mp s) {c : Call} {first later : List Buf}
    (hposted : s.posted = first ++ c.buffer mp :: later)
    (hstarted : c.buffer mp ∈ s.writer.started) :
    ∃ before after, s.writer.started = before ++ c.buffer mp :: after ∧
      first.Subperm (before.filter (isMessage mp)) := by
  obtain ⟨before, after, hsplit⟩ := List.append_of_mem hstarted
  refine ⟨before, after, hsplit, ?_⟩
  -- the messages that were started are the first in the line
  have hwriter := hcorrelated.requests.writer
  obtain ⟨l, hl⟩ := AsyncWriter.exists_ledger mp hwriter.reachable
  obtain ⟨rest, hrest⟩ := AsyncWriter.started_isPrefix hl
  rw [hwriter.accepted, hsplit] at hrest
  obtain ⟨before', after', hline, hsubperm⟩ := h c first later hposted
  have hplace : before' ++ c.buffer mp :: after' =
      before.filter (isMessage mp) ++ c.buffer mp ::
        (after.filter (isMessage mp) ++ (rest.filter (isMessage mp) ++
          (s.pendingCalls.filter (isMessage mp) ++
            s.strand.filterMap (Task.operation mp)))) := by
    rw [← hline, State.messages, ← hrest]
    simp
  have hnodup := hcorrelated.requests_nodup mp
  rw [hline] at hnodup
  obtain ⟨rfl, -⟩ := before_unique (isRequest_buffer mp c) hnodup hplace
  exact hsubperm

end Client
end RpcLib
