import RpcLib.Foundation.TransitionSystem
import RpcLib.Server.SessionWriter

/-!
# Closing a session while replies are on their way

A handler that calls `post_exit` has its reply posted to the write strand and
`close` behind it; the peer that disconnects and `close_sessions` close the
session as well.  The closing step does not look at `write_queue_`, and the
strand starts no frame once `exit_` is set.

* `Doomed`: what is due and not started when `exit_` is set stays so.
* `graceful_iff`: what was accepted before `close`, and the reply of every
  handler that has called `post_exit`, is sent before the socket is closed
  exactly when `close` finds it all started and the closing step does not cut
  off a transfer.
-/

namespace RpcLib
namespace Server

open Protocol Transport Foundation TransitionSystem

variable {ω V Buf : Type} (mp : MsgPack Buf)

namespace SessionWriter

/-! ## When everything due is sent -/

/-- When the socket is closed it has taken every frame that was accepted before
`close`, and every reply of a handler that has called `post_exit`. -/
def Graceful (c : SessionWriter Buf) : Prop :=
  c.writer.socketOpen = false →
    (∀ due, c.due = some due → due <+: c.sent) ∧
      ∀ (p : Nat) (reply : Buf), c.posted[p]? = some (reply, true) →
        c.sent[p]? = some reply

/-- If this is the first store of `exit_`, it finds no frame in `write_queue_`
but the one in progress, and every marked reply accepted. -/
def FindsAllStarted (c : SessionWriter Buf) : Prop :=
  c.writer.exit = false →
    c.writer.writeQueue.length ≤ c.writer.outstanding.length ∧
      ∀ (p : Nat) (reply : Buf), c.posted[p]? = some (reply, true) →
        p < c.writer.accepted.length

/-- The first `close` finds everything started, no marked reply is posted after
it, and the closing step does not cut off a transfer. -/
def ClosesClean (c : SessionWriter Buf) : Event ω V → Prop
  | .storeExit => FindsAllStarted c
  | .run =>
      (∀ rest, c.strand = .posted .close :: rest → FindsAllStarted c) ∧
        ∀ rest, c.strand = .closeSocket :: rest →
          c.writer.outstanding = [] ∨ c.transferred = true
  | .post t => ∀ resp rest, c.handing t = (.write resp, true) :: rest →
      c.writer.exit = false
  | .dispatch .. | .proceed | .postClosing | .transfer | .complete => True

/-- The other handlers of the strand are free to run. -/
theorem closesClean_of_head {c : SessionWriter Buf} {task : StrandTask}
    {rest : List StrandTask} (hstrand : c.strand = task :: rest)
    (hclose : task ≠ .posted .close) (hsocket : task ≠ .closeSocket) :
    ClosesClean c (.run : Event ω V) := by
  refine ⟨fun rest' hstrand' => ?_, fun rest' hstrand' => ?_⟩
  · exact absurd (List.cons.inj (hstrand.symm.trans hstrand')).1 hclose
  · exact absurd (List.cons.inj (hstrand.symm.trans hstrand')).1 hsocket

/-- Everything that is due has been handed to `async_write`. -/
def AllStarted (c : SessionWriter Buf) : Prop :=
  (∀ due, c.due = some due → due <+: c.writer.started) ∧
    ∀ (p : Nat) (reply : Buf), c.posted[p]? = some (reply, true) →
      c.writer.started[p]? = some reply

/-- What a longer list has at a place of a shorter one. -/
theorem getElem?_of_prefix {α : Type} {short long : List α}
    (h : short <+: long) {p : Nat} {x : α} (hx : short[p]? = some x) :
    long[p]? = some x := by
  obtain ⟨hp, rfl⟩ := List.getElem?_eq_some_iff.mp hx
  exact List.prefix_iff_getElem?.mp h p hp

/-- What is accepted was posted, in the same order. -/
theorem Flowing.accepted_prefix {c : SessionWriter Buf} (h : Flowing mp c) :
    c.writer.accepted <+: c.posted.map Prod.fst :=
  (List.prefix_append _ _).trans h.posted

/-- If nothing is queued but what is in progress, all that was accepted is
started. -/
theorem Flowing.started_eq_accepted {c : SessionWriter Buf}
    (h : Flowing mp c) (hlength : c.writer.writeQueue.length ≤
      c.writer.outstanding.length) :
    c.writer.started = c.writer.accepted := by
  have hall : c.writer.outstanding = c.writer.writeQueue := by
    rcases h.running with htake | hnone
    · rw [htake] at hlength ⊢
      apply List.take_of_length_le
      rw [List.length_take] at hlength
      omega
    · rw [hnone] at hlength ⊢
      exact (List.eq_nil_of_length_eq_zero (Nat.le_zero.mp hlength)).symm
  rw [← h.started, ← h.accepted, hall]

/-- A store that finds everything started leaves nothing due unstarted. -/
theorem Flowing.allStarted_storeExit {c : SessionWriter Buf}
    (h : Flowing mp c) (hopen : c.writer.exit = false)
    (hfinds : FindsAllStarted c) : AllStarted c.storeExit := by
  obtain ⟨hlength, hmarked⟩ := hfinds hopen
  have hall : c.storeExit.writer.started = c.writer.accepted :=
    h.started_eq_accepted mp hlength
  refine ⟨fun due hdue => ?_, fun p reply hp => ?_⟩
  · have hnone := (h.opened hopen).2.2.2
    have hsome : c.due.or (some c.writer.accepted) = some due := hdue
    rw [hnone, Option.none_or] at hsome
    have hsame : c.storeExit.writer.started = due :=
      hall.trans (Option.some.inj hsome)
    exact hsame ▸ List.prefix_rfl
  · rw [hall, List.getElem?_eq_some_iff]
    have hbelow := hmarked p reply hp
    refine ⟨hbelow, ?_⟩
    have hposted : (c.posted.map Prod.fst)[p]? = some reply := by
      rw [List.getElem?_map, show c.posted[p]? = _ from hp]
      rfl
    have hlong := getElem?_of_prefix (h.accepted_prefix mp)
      (List.getElem?_eq_getElem hbelow)
    exact Option.some.inj (hlong.symm.trans hposted)

/-! ## What a step does about closing -/

/-- A step that finds `exit_` down leaves it down or is the store of a
`close`. -/
theorem exit_of_step {c c' : SessionWriter Buf} {e : Event ω V}
    (hopen : c.writer.exit = false) (hstep : step mp c e = some c') :
    c'.writer.exit = false ∨
      ((e = .storeExit ∨ e = .run ∧ ∃ rest,
          c.strand = .posted .close :: rest) ∧
        ∃ strand, c' = ({ c with strand := strand } :
          SessionWriter Buf).storeExit) := by
  cases effect_of_step mp hstep with
  | close hidle hstrand => exact Or.inr ⟨Or.inr ⟨rfl, _, hstrand⟩, _, rfl⟩
  | storeExit => exact Or.inr ⟨Or.inl rfl, c.strand, rfl⟩
  | start hplace =>
      exact Or.inl ((AsyncWriter.doWrite_frame c.writer).2.1.trans hopen)
  | continue_ hplace =>
      exact Or.inl
        ((AsyncWriter.continueWriting_frame c.writer).2.1.trans hopen)
  | complete hidle htransferred =>
      exact Or.inl ((AsyncWriter.popFront_frame
        (c.writer.taken 0) .success).1.trans hopen)
  | _ => exact Or.inl hopen

/-- After `exit_` is set nothing more is started or due. -/
structure Frozen (c c' : SessionWriter Buf) : Prop where
  exit : c'.writer.exit = true
  started : c'.writer.started = c.writer.started
  due : c'.due = c.due

theorem frozen_of_step {c c' : SessionWriter Buf} {e : Event ω V}
    (h : Flowing mp c) (hexit : c.writer.exit = true)
    (hstep : step mp c e = some c') : Frozen c c' := by
  obtain ⟨due, hdue, -⟩ := (h.closed hexit).1
  cases effect_of_step mp hstep with
  | close hidle hstrand =>
      exact ⟨rfl, rfl, by simp [SessionWriter.storeExit, hdue]⟩
  | storeExit => exact ⟨rfl, rfl, by simp [SessionWriter.storeExit, hdue]⟩
  | start hplace =>
      have hsame := AsyncWriter.doWrite_of_exit hexit
      exact ⟨(congrArg AsyncWriter.exit hsame).trans hexit,
        congrArg AsyncWriter.started hsame, rfl⟩
  | continue_ hplace =>
      have hsame := AsyncWriter.continueWriting_of_exit hexit
      exact ⟨(congrArg AsyncWriter.exit hsame).trans hexit,
        congrArg AsyncWriter.started hsame, rfl⟩
  | complete hidle htransferred =>
      obtain ⟨hsame, -, hstarted⟩ :=
        AsyncWriter.popFront_frame (c.writer.taken 0) .success
      exact ⟨hsame.trans hexit, hstarted, rfl⟩
  | _ => exact ⟨hexit, rfl, rfl⟩

/-- A step posts nothing, or a reply. -/
theorem posted_of_step {c c' : SessionWriter Buf} {e : Event ω V}
    (hstep : step mp c e = some c') :
    c'.posted = c.posted ∨ ∃ t resp exits rest, e = .post t ∧
      c.handing t = (.write resp, exits) :: rest ∧
      c'.posted = c.posted ++ [(resp.data mp, exits)] := by
  cases effect_of_step mp hstep with
  | @post t p exits rest hhanding =>
      cases p with
      | write resp => exact Or.inr ⟨t, resp, exits, rest, rfl, hhanding, rfl⟩
      | close => exact Or.inl (List.append_nil _)
      | closeSessions => exact Or.inl (List.append_nil _)
  | _ => exact Or.inl rfl

/-- Only the closing step closes the socket; until then the socket may take
more. -/
theorem socket_of_step {c c' : SessionWriter Buf} {e : Event ω V}
    (hstep : step mp c e = some c') :
    (e = .run ∧ (∃ rest, c.strand = .closeSocket :: rest) ∧
        c'.writer.socketOpen = false ∧ c'.sent = c.sent) ∨
      (c'.writer.socketOpen = c.writer.socketOpen ∧
        c.writer.closing ≤ c'.writer.closing ∧
        (c.writer.socketOpen = false → c'.sent = c.sent)) := by
  cases effect_of_step mp hstep with
  | closeSocket hidle hstrand =>
      exact Or.inl ⟨rfl, ⟨_, hstrand⟩, rfl, rfl⟩
  | start hplace =>
      obtain ⟨hsocket, hclosing⟩ := c.writer.doWrite_socket
      exact Or.inr ⟨hsocket, Nat.le_of_eq hclosing.symm, fun _ => rfl⟩
  | continue_ hplace =>
      obtain ⟨hsocket, hclosing⟩ := c.writer.continueWriting_socket
      exact Or.inr ⟨hsocket, Nat.le_of_eq hclosing.symm, fun _ => rfl⟩
  | complete hidle htransferred =>
      obtain ⟨hsocket, hclosing⟩ := (c.writer.taken 0).popFront_socket .success
      exact Or.inr ⟨hsocket, Nat.le_of_eq hclosing.symm, fun _ => rfl⟩
  | close hidle hstrand =>
      exact Or.inr ⟨rfl, Nat.le_succ _, fun _ => rfl⟩
  | storeExit => exact Or.inr ⟨rfl, Nat.le_succ _, fun _ => rfl⟩
  | transfer houtstanding hopen hnot =>
      exact Or.inr ⟨rfl, Nat.le_refl _,
        fun hclosed => by cases hopen.symm.trans hclosed⟩
  | _ => exact Or.inr ⟨rfl, Nat.le_refl _, fun _ => rfl⟩

/-! ## Runs that close cleanly -/

/-- What runs within the condition maintain. -/
structure Draining (c : SessionWriter Buf) : Prop where
  flowing : Flowing mp c
  finished : c.writer.exit = true → AllStarted c
  drained : c.writer.socketOpen = false → c.sent = c.writer.started

namespace Draining

variable {mp}

theorem initial : Draining mp (initial : SessionWriter Buf) :=
  ⟨.initial mp, fun hexit => by simp [SessionWriter.initial,
    SocketWriter.initial, AsyncWriter.initial] at hexit, fun _ => rfl⟩

/-- The socket is only closed after a store. -/
theorem exit_of_closed {c : SessionWriter Buf} (h : Flowing mp c)
    (hclosed : c.writer.socketOpen = false) : c.writer.exit = true := by
  by_contra hopen
  have hsocket := (h.opened (by simpa using hopen)).1
  cases hsocket.symm.trans hclosed

theorem graceful {c : SessionWriter Buf} (h : Draining mp c) :
    Graceful c := by
  intro hclosed
  rw [h.drained hclosed]
  exact h.finished (exit_of_closed h.flowing hclosed)

/-- What is due stays started: only unmarked replies are posted later. -/
theorem allStarted {c c' : SessionWriter Buf} {e : Event ω V}
    (h : Draining mp c) (hexit : c.writer.exit = true)
    (hclean : ClosesClean c e) (hstep : step mp c e = some c') :
    AllStarted c' := by
  obtain ⟨hdue, hmarked⟩ := h.finished hexit
  have hfrozen := frozen_of_step mp h.flowing hexit hstep
  unfold AllStarted
  rw [hfrozen.started, hfrozen.due]
  refine ⟨hdue, fun p reply hp => ?_⟩
  rcases posted_of_step mp hstep with
    hsame | ⟨t, resp, exits, rest, rfl, hhanding, hposted⟩
  · exact hmarked p reply (hsame ▸ hp)
  · rw [hposted] at hp
    rcases Nat.lt_or_ge p c.posted.length with hold | hnew
    · rw [List.getElem?_append_left hold] at hp
      exact hmarked p reply hp
    · rw [List.getElem?_append_right hnew,
        List.getElem?_singleton] at hp
      split at hp
      · -- a marked reply would have been posted before the store
        obtain ⟨-, rfl⟩ := Prod.mk.inj (Option.some.inj hp)
        cases (hclean resp rest hhanding).symm.trans hexit
      · cases hp

/-- A closing step that cuts nothing off leaves all that was started sent. -/
theorem sent_eq_started {c : SessionWriter Buf} (h : Flowing mp c)
    (hclean : c.writer.outstanding = [] ∨ c.transferred = true) :
    c.sent = c.writer.started := by
  rw [h.sent]
  split
  · rfl
  · rename_i hnot
    rcases hclean with hnone | htransferred
    · rw [← h.started, hnone, List.append_nil]
    · exact absurd htransferred hnot

theorem step {c c' : SessionWriter Buf} {e : Event ω V} (h : Draining mp c)
    (hclean : ClosesClean c e) (hstep : step mp c e = some c') :
    Draining mp c' := by
  have hflowing := h.flowing.step hstep
  cases hexit : c.writer.exit with
  | false =>
      rcases exit_of_step mp hexit hstep with hopen | ⟨hstores, strand, rfl⟩
      · refine ⟨hflowing, fun hclosed => ?_, fun hclosed => ?_⟩
        · cases hopen.symm.trans hclosed
        · cases hopen.symm.trans (exit_of_closed hflowing hclosed)
      · have hfinds : FindsAllStarted c := by
          rcases hstores with rfl | ⟨rfl, rest, hstrand⟩
          · exact hclean
          · exact hclean.1 rest hstrand
        refine ⟨hflowing, fun _ => h.flowing.allStarted_storeExit mp hexit
          hfinds, h.drained⟩
  | true =>
      have hfrozen := frozen_of_step mp h.flowing hexit hstep
      refine ⟨hflowing, fun _ => h.allStarted hexit hclean hstep,
        fun hclosed => ?_⟩
      rw [hfrozen.started]
      rcases socket_of_step mp hstep with
        ⟨rfl, ⟨rest, hstrand⟩, -, hsent⟩ | ⟨hsocket, -, hsent⟩
      · rw [hsent]
        exact sent_eq_started h.flowing (hclean.2 rest hstrand)
      · have hbefore := hsocket.symm.trans hclosed
        rw [hsent hbefore]
        exact h.drained hbefore

end Draining

/-! ## Runs that lose a frame -/

/-- A closed session that has left something due unstarted, and whose closing
step is still to come. -/
structure Doomed (c : SessionWriter Buf) : Prop where
  flowing : Flowing mp c
  exit : c.writer.exit = true
  left : ¬ AllStarted c
  closing : 0 < c.writer.closing

/-- What was never started is not sent. -/
theorem not_graceful {c : SessionWriter Buf} (h : Flowing mp c)
    (hclosed : c.writer.socketOpen = false) (hleft : ¬ AllStarted c) :
    ¬ Graceful c := by
  intro hgraceful
  obtain ⟨hdue, hmarked⟩ := hgraceful hclosed
  have hsent := h.sent_prefix
  exact hleft ⟨fun due hsome => (hdue due hsome).trans hsent,
    fun p reply hp => getElem?_of_prefix hsent (hmarked p reply hp)⟩

/-- What was left stays left. -/
theorem not_allStarted_of_step {c c' : SessionWriter Buf} {e : Event ω V}
    (h : Flowing mp c) (hexit : c.writer.exit = true)
    (hleft : ¬ AllStarted c) (hstep : step mp c e = some c') :
    ¬ AllStarted c' := by
  have hfrozen := frozen_of_step mp h hexit hstep
  rintro ⟨hdue, hmarked⟩
  rw [hfrozen.started, hfrozen.due] at hdue
  rw [hfrozen.started] at hmarked
  refine hleft ⟨hdue, fun p reply hp => hmarked p reply ?_⟩
  have hposted : c.posted <+: c'.posted := by
    rcases posted_of_step mp hstep with
      hsame | ⟨_, _, _, _, _, _, hnew⟩
    · exact hsame.symm ▸ List.prefix_rfl
    · exact hnew.symm ▸ List.prefix_append _ _
  exact getElem?_of_prefix hposted hp

/-- A doomed session stays doomed until its closing step, which loses what is
left. -/
theorem Doomed.step {c c' : SessionWriter Buf} {e : Event ω V}
    (h : Doomed mp c) (hstep : step mp c e = some c') :
    Doomed mp c' ∨ ¬ Graceful c' := by
  have hflowing := h.flowing.step hstep
  have hleft := not_allStarted_of_step mp h.flowing h.exit h.left hstep
  rcases socket_of_step mp hstep with ⟨-, -, hclosed, -⟩ | ⟨-, hclosing, -⟩
  · exact Or.inr (not_graceful mp hflowing hclosed hleft)
  · exact Or.inl ⟨hflowing, (frozen_of_step mp h.flowing h.exit hstep).exit,
      hleft, Nat.lt_of_lt_of_le h.closing hclosing⟩

/-- A closed session that has left something unstarted has lost it, or is
going to. -/
theorem doomed_or_lost {c : SessionWriter Buf} (h : Flowing mp c)
    (hexit : c.writer.exit = true) (hleft : ¬ AllStarted c) :
    Doomed mp c ∨ ¬ Graceful c := by
  cases hsocket : c.writer.socketOpen with
  | true => exact Or.inl ⟨h, hexit, hleft, (h.closed hexit).2 hsocket⟩
  | false => exact Or.inr (not_graceful mp h hsocket hleft)

/-- The first store, when it does not find everything started. -/
theorem not_allStarted_storeExit {c : SessionWriter Buf} (h : Flowing mp c)
    (hnot : ¬ FindsAllStarted c) : ¬ AllStarted c.storeExit := by
  unfold FindsAllStarted at hnot
  push Not at hnot
  obtain ⟨hopen, hnot⟩ := hnot
  have hdue : c.storeExit.due = some c.writer.accepted := by
    simp [storeExit, (h.opened hopen).2.2.2]
  rintro ⟨hstarts, hmarked⟩
  have hall : c.writer.accepted <+: c.writer.started := hstarts _ hdue
  have hlength : c.writer.writeQueue.length ≤
      c.writer.outstanding.length := by
    have hle := hall.length_le
    rw [← h.accepted, ← h.started] at hle
    simp only [List.length_append] at hle
    omega
  obtain ⟨p, reply, hp, hbeyond⟩ := hnot hlength
  have hstarted : c.writer.started[p]? = some reply := hmarked p reply hp
  have hbelow := (List.getElem?_eq_some_iff.mp hstarted).1
  have hle := h.started_prefix.length_le
  omega

/-- A step outside the condition dooms the session or loses a frame at
once. -/
theorem doomed_of_not_closesClean {c c' : SessionWriter Buf} {e : Event ω V}
    (h : Flowing mp c) (hnot : ¬ ClosesClean c e)
    (hstep : step mp c e = some c') : Doomed mp c' ∨ ¬ Graceful c' := by
  have hflowing := h.step hstep
  cases effect_of_step mp hstep with
  | storeExit =>
      exact doomed_or_lost mp hflowing rfl (not_allStarted_storeExit mp h hnot)
  | @close rest hidle hstrand =>
      have hfinds : ¬ FindsAllStarted c := by
        intro hfinds
        refine hnot ⟨fun _ _ => hfinds, fun rest' hstrand' => ?_⟩
        cases hstrand.symm.trans hstrand'
      exact doomed_or_lost mp hflowing rfl
        (not_allStarted_storeExit mp
          (h.skip hstrand fun _ => rfl) hfinds)
  | @closeSocket rest hidle hstrand =>
      have hcut : c.writer.outstanding ≠ [] ∧ c.transferred = false := by
        by_contra hclean
        refine hnot ⟨fun rest' hstrand' => ?_, fun _ _ => ?_⟩
        · cases hstrand.symm.trans hstrand'
        · rw [not_and_or, not_not, Bool.not_eq_false] at hclean
          exact hclean
      obtain ⟨hexit, -⟩ := h.closeSocket hstrand
      obtain ⟨due, hdue, hstarted⟩ := (h.closed hexit).1
      -- the frame in progress is due
      refine Or.inr fun hgraceful => hcut.1 ?_
      have hsent : due <+: c.sent := (hgraceful rfl).1 due hdue
      have hall := (hstarted.trans hsent).length_le
      rw [h.sent, hcut.2, if_neg (by simp), ← h.started] at hall
      simp only [List.length_append] at hall
      exact List.eq_nil_of_length_eq_zero (by omega)
  | @post t p exits rest hhanding =>
      unfold ClosesClean at hnot
      push Not at hnot
      obtain ⟨resp, rest', hmarked, hexit⟩ := hnot
      obtain ⟨rfl, rfl⟩ := Prod.mk.inj
        (List.cons.inj (hhanding.symm.trans hmarked)).1
      have hclosed : c.writer.exit = true := by simpa using hexit
      refine doomed_or_lost mp hflowing hclosed fun hall => ?_
      -- the new reply is behind all that was started
      have hlast : (c.postNext mp t (.write resp) true rest).posted[
          c.posted.length]? = some (resp.data mp, true) := by
        simp [postNext, replyOf]
      have hstarted : c.writer.started[c.posted.length]? =
          some (resp.data mp) := hall.2 _ _ hlast
      have hbelow := (List.getElem?_eq_some_iff.mp hstarted).1
      have hle := (h.started_prefix.trans (h.accepted_prefix mp)).length_le
      rw [List.length_map] at hle
      omega
  | refuse hidle hstrand hexit =>
      exact absurd (closesClean_of_head hstrand (by simp) (by simp)) hnot
  | test hidle hstrand hopen =>
      exact absurd (closesClean_of_head hstrand (by simp) (by simp)) hnot
  | skip hidle hstrand htask =>
      refine absurd (closesClean_of_head hstrand ?_ ?_) hnot
      · rcases htask with rfl | rfl <;> simp
      · rcases htask with rfl | rfl <;> simp
  | _ => exact absurd trivial hnot

/-- In runs without failing writes: what was accepted before `close`, and every
reply of a handler that has called `post_exit`, is sent before the socket is
closed, if the first `close` finds it all started, no such reply is posted
after it and the closing step cuts off no transfer; and for runs whose closing
steps have all run this is the only way. -/
theorem graceful_iff (es : List (Event ω V)) :
    (EachStep (step mp) ClosesClean initial es →
      Always (step mp) Graceful initial es) ∧
    ∀ c, run (step mp) initial es = some c → c.writer.closing = 0 →
      Always (step mp) Graceful initial es →
      EachStep (step mp) ClosesClean initial es := by
  have hfree := eachStep_unguarded (step mp (ω := ω) (V := V)) initial es
  constructor
  · intro hclean
    exact always_of_eachStep (J := Draining mp) (fun _ h => h.graceful)
      (fun _ _ _ h _ hclean hstep => h.step hclean hstep) .initial hfree
      hclean
  · intro c hrun hclosed
    exact eachStep_of_always (J := Flowing mp) (D := Doomed mp)
      (F := fun c => c.writer.closing = 0)
      (fun _ _ _ h _ hstep => h.step hstep)
      (fun _ _ _ h _ hnot hstep => doomed_of_not_closesClean mp h hnot hstep)
      (fun _ _ _ h _ hstep => h.step mp hstep)
      (fun _ h hnone => absurd hnone (Nat.ne_of_gt h.closing)) (.initial mp)
      hfree hrun hclosed

/-! ## A reply that is lost -/

/-- A session with a functor `get`, and one whose handler calls
`post_exit`. -/
def exitingSession : ServerSession Unit Unit :=
  ⟨1, ⟨(AList.singleton "get" (ServerSession.constantFunctor
      ⟨[], .returned .nil⟩)).insert "quit" (ServerSession.constantFunctor
        ⟨[.postExit], .returned .nil⟩)⟩, true⟩

/-- A call without arguments is dispatched on a thread. -/
def dispatchOf (t : ThreadId) (id : Int32) (name : String) :
    Event Unit Unit :=
  .dispatch t exitingSession
    (.array [.ofInt8 0, .ofInt32 id, .str name, .array []])
    ServerSession.usedWorker

/-- The frame that answers the call. -/
def replyTo (id : UInt32) : Option Object :=
  some (.array [.ofUInt32 1, .ofUInt32 id, .nil, .nil])

/-- Both calls are dispatched and post their handlers, the strand writes both
replies, and the `close` of the second finds the first reply in progress. -/
def exitBehindReply : List (Event Unit Unit) :=
  [dispatchOf 0 1 "get", .post 0, dispatchOf 0 2 "quit", .post 0, .post 0,
    .run, .proceed, .proceed, .run, .proceed, .run, .postClosing, .transfer,
    .complete, .proceed, .run]

/-- The write in progress completes before the closing step, but the reply of
the handler that has called `post_exit` is never started. -/
theorem post_exit_behind_reply_loses_reply :
    (run (step .reference) initial exitBehindReply).map
        (fun c => (c.writer.socketOpen, c.posted, c.due, c.sent)) =
      some (false, [(replyTo 1, false), (replyTo 2, true)],
        some [replyTo 1, replyTo 2], [replyTo 1]) ∧
      ¬ Always (step .reference) Graceful initial exitBehindReply := by
  have hends : (run (step .reference) initial exitBehindReply).map
      (fun c => (c.writer.socketOpen, c.posted, c.due, c.sent)) =
    some (false, [(replyTo 1, false), (replyTo 2, true)],
      some [replyTo 1, replyTo 2], [replyTo 1]) := rfl
  refine ⟨hends, fun halways => ?_⟩
  obtain ⟨c, hrun, hend⟩ := Option.map_eq_some_iff.mp hends
  simp only [Prod.mk.injEq] at hend
  obtain ⟨hclosed, hposted, -, hsent⟩ := hend
  have hmarked : c.sent[1]? = some (replyTo 2) :=
    (halways.of_run hrun hclosed).2 1 _ (by rw [hposted]; rfl)
  rw [hsent] at hmarked
  cases hmarked

/-- A single call of `quit`, whose reply the socket has taken before the closing
step runs. -/
def exitBehindTransfer : List (Event Unit Unit) :=
  [dispatchOf 0 1 "quit", .post 0, .post 0, .run, .proceed, .proceed, .run,
    .postClosing, .transfer, .run, .complete, .proceed, .run]

theorem graceful_iff_behind_transfer :
    Always (step .reference) Graceful initial exitBehindTransfer ∧
      EachStep (step .reference) ClosesClean initial exitBehindTransfer := by
  have hclean : EachStep (step .reference) ClosesClean initial
      exitBehindTransfer := by
    rintro _ ⟨⟩
    refine ⟨trivial, ?_⟩
    rintro _ ⟨⟩
    refine ⟨fun _ _ _ => rfl, ?_⟩
    rintro _ ⟨⟩
    refine ⟨fun _ _ _ => rfl, ?_⟩
    rintro _ ⟨⟩
    refine ⟨closesClean_of_head rfl (by simp) (by simp), ?_⟩
    rintro _ ⟨⟩
    refine ⟨trivial, ?_⟩
    rintro _ ⟨⟩
    refine ⟨trivial, ?_⟩
    -- the posted `close` finds the reply in progress
    rintro _ ⟨⟩
    refine ⟨⟨fun _ _ _ => ⟨Nat.le_refl 1, fun p reply hp => ?_⟩,
      fun _ h => (by cases h)⟩, ?_⟩
    · exact (List.getElem?_eq_some_iff.mp hp).1
    rintro _ ⟨⟩
    refine ⟨trivial, ?_⟩
    rintro _ ⟨⟩
    refine ⟨trivial, ?_⟩
    rintro _ ⟨⟩
    refine ⟨⟨fun _ h => (by cases h), fun _ _ => Or.inr rfl⟩, ?_⟩
    rintro _ ⟨⟩
    refine ⟨trivial, ?_⟩
    rintro _ ⟨⟩
    refine ⟨trivial, ?_⟩
    rintro _ ⟨⟩
    exact ⟨closesClean_of_head rfl (by simp) (by simp), trivial⟩
  obtain ⟨hsends, hneeded⟩ := graceful_iff .reference exitBehindTransfer
  exact ⟨hsends hclean, hneeded _ rfl rfl (hsends hclean)⟩

end SessionWriter
end Server
end RpcLib
