import RpcLib.Foundation.TransitionSystem

/-!
# A queue that is served one element at a time

`FifoLedger` is the purpose of a writer that accepts elements at any time and
works on the front of its queue only: elements are offered at the back, the
front is started once, and a started front is finished and removed.  That a
started front exists is a field, so a ledger that works on nothing cannot be
built.

What holds of every ledger needs no run: the finished elements followed by the
queue are the elements offered (`accepted`), and the elements started are a
prefix of them (`started_prefix_accepted`), so that every position is started
at most once and in order.
-/

namespace RpcLib
namespace Foundation

universe u

/-- A queue together with what left it, and whether its front is being
worked on. -/
structure FifoLedger (α : Type u) where
  finished : List α
  queue : List α
  headStarted : Bool
  head_exists : headStarted = true → queue ≠ []

namespace FifoLedger

open TransitionSystem

variable {α : Type u}

/-- The ledger before anything was offered. -/
def empty : FifoLedger α := ⟨[], [], false, by simp⟩

/-- All elements offered so far, in order. -/
def accepted (l : FifoLedger α) : List α := l.finished ++ l.queue

/-- All elements whose work was started, in order. -/
def started (l : FifoLedger α) : List α :=
  l.finished ++ if l.headStarted then l.queue.take 1 else []

/-- What can happen to a ledger. -/
inductive Event (α : Type u) where
  | offer (a : α)
  | start
  | finish

/-- `start` needs an unstarted front and `finish` a started one. -/
def step (l : FifoLedger α) : Event α → Option (FifoLedger α)
  | .offer a => some ⟨l.finished, l.queue ++ [a], l.headStarted, by simp⟩
  | .start =>
      if h : l.headStarted = false ∧ l.queue ≠ [] then
        some ⟨l.finished, l.queue, true, fun _ => h.2⟩
      else none
  | .finish =>
      if l.headStarted then
        some ⟨l.finished ++ l.queue.take 1, l.queue.drop 1, false, by simp⟩
      else none

/-- The elements started are a prefix of the elements accepted: each position
is started at most once, and in the order of acceptance. -/
theorem started_prefix_accepted (l : FifoLedger α) :
    l.started <+: l.accepted := by
  unfold started accepted
  rw [List.prefix_append_right_inj]
  split
  · exact List.take_prefix 1 l.queue
  · exact List.nil_prefix

/-- Offering appends to the accepted elements and starts nothing. -/
theorem step_offer (l : FifoLedger α) (a : α) :
    ∃ l', l.step (.offer a) = some l' ∧
      l'.finished = l.finished ∧ l'.queue = l.queue ++ [a] ∧
      l'.headStarted = l.headStarted ∧
      l'.accepted = l.accepted ++ [a] ∧ l'.started = l.started := by
  refine ⟨_, rfl, rfl, rfl, rfl, ?_, ?_⟩
  · simp [accepted]
  · by_cases hbusy : l.headStarted = true
    · obtain ⟨front, rest, hqueue⟩ :=
        List.exists_cons_of_ne_nil (l.head_exists hbusy)
      simp [started, hqueue, hbusy]
    · simp [started, hbusy]

/-- Starting hands out the front and changes nothing else. -/
theorem step_start (l : FifoLedger α) {a : α} {rest : List α}
    (hidle : l.headStarted = false) (hqueue : l.queue = a :: rest) :
    ∃ l', l.step .start = some l' ∧
      l'.finished = l.finished ∧ l'.queue = l.queue ∧
      l'.headStarted = true ∧
      l'.accepted = l.accepted ∧ l'.started = l.started ++ [a] := by
  have henabled : l.headStarted = false ∧ l.queue ≠ [] := by
    simp [hidle, hqueue]
  refine ⟨_, dif_pos henabled, rfl, rfl, rfl, rfl, ?_⟩
  simp [started, hidle, hqueue]

/-- Finishing moves the front from the queue to the finished elements. -/
theorem step_finish (l : FifoLedger α) {a : α} {rest : List α}
    (hbusy : l.headStarted = true) (hqueue : l.queue = a :: rest) :
    ∃ l', l.step .finish = some l' ∧
      l'.finished = l.finished ++ [a] ∧ l'.queue = rest ∧
      l'.headStarted = false ∧
      l'.accepted = l.accepted ∧ l'.started = l.started := by
  refine ⟨_, if_pos hbusy, by simp [hqueue], by simp [hqueue], rfl, ?_, ?_⟩
  · simp [accepted, hqueue]
  · simp [started, hqueue, hbusy]

end FifoLedger
end Foundation
end RpcLib
