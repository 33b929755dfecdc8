import RpcLib.Transport.QueueConservation

/-!
# When the writer keeps going

`write` takes a queue with more than one message as the sign that a write is
running.  The sign is right as long as every completion pops the front: a
completion that leaves the front in place (`Settles` fails) leaves an open
writer with a message queued and no write outstanding, and no later `write`
starts it again.
-/

namespace RpcLib
namespace Transport
namespace AsyncWriter

open Foundation TransitionSystem

variable {Buf : Type} (mp : MsgPack Buf)

/-- An open writer that rests has nothing to send. -/
def NotWedged (w : AsyncWriter Buf) : Prop :=
  w.exit = false → w.outstanding = [] → w.writeQueue = []

/-- A completion that arrives at an open writer pops the front: it reports
success, or `broken_pipe` for a front that reads as a notification. -/
def CompletionSettles (w : AsyncWriter Buf) (e : Event Buf) : Prop :=
  ∀ i ec, e = .written i ec → w.exit = false → Settles mp w ec

/-- The write in progress is the one the queue waits for. -/
structure Running (w : AsyncWriter Buf) : Prop where
  ledger : ∃ l, Ledger w l
  notWedged : NotWedged w

theorem Running.initial : Running (initial : AsyncWriter Buf) :=
  ⟨⟨.empty, .initial⟩, fun _ _ => rfl⟩

/-- Writing to an open writer that is not wedged leaves a write outstanding. -/
theorem notWedged_write {w : AsyncWriter Buf} (h : NotWedged w) (data : Buf) :
    NotWedged (w.write mp data).1 := by
  cases hexit : w.exit with
  | true => simpa [write_of_exit mp hexit] using h
  | false =>
      by_cases hempty : w.writeQueue = []
      · rw [write_of_empty mp hexit hempty]
        intro _ hnone
        simp at hnone
      · rw [write_of_occupied mp hexit hempty]
        intro _ hnone
        exact absurd (h hexit hnone) hempty

/-- A settled completion either empties the queue or starts the next frame. -/
theorem notWedged_settled (w : AsyncWriter Buf) (ec : ErrorCode) :
    NotWedged (w.popFront ec).continueWriting := by
  intro hopen hnone
  have hexit : w.exit = false := by simpa using hopen
  cases hqueue : w.writeQueue with
  | nil => simp [popFront, hqueue]
  | cons item rest =>
      cases rest with
      | nil => simp [popFront, hqueue]
      | cons next rest =>
          rw [continueWriting_popFront_of_next ec hexit hqueue] at hnone
          simp at hnone

theorem Running.step {w w' : AsyncWriter Buf} {e : Event Buf}
    (h : Running w) (hsettles : CompletionSettles mp w e)
    (hstep : step mp w e = some w') : Running w' := by
  obtain ⟨⟨l, hl⟩, hrunning⟩ := h
  obtain ⟨l', -, hl'⟩ := ledger_step mp hl hstep
  refine ⟨⟨l', hl'⟩, ?_⟩
  cases effect_of_step mp hstep with
  | write data => exact notWedged_write mp hrunning data
  | settled hi hpops => exact notWedged_settled _ _
  | kept hi hnot =>
      intro hopen
      exact absurd (hsettles _ _ rfl hopen) hnot
  | close =>
      intro hopen
      simp [AsyncWriter.close] at hopen
  | closeSocket hclosing => exact hrunning

/-- A completion that does not settle wedges an open writer. -/
theorem not_notWedged_of_unsettled {w w' : AsyncWriter Buf} {e : Event Buf}
    (h : Running w) (hnot : ¬ CompletionSettles mp w e)
    (hstep : AsyncWriter.step mp w e = some w') : ¬ NotWedged w' := by
  obtain ⟨⟨l, hl⟩, -⟩ := h
  unfold CompletionSettles at hnot
  push Not at hnot
  obtain ⟨i, ec, rfl, hopen, hunsettled⟩ := hnot
  cases effect_of_step mp hstep with
  | settled hi hsettles => exact absurd hsettles hunsettled
  | kept hi hnot =>
      -- the queue still holds the front, and nothing writes it
      obtain ⟨-, hnone, item, rest, hqueue, -⟩ := hl.of_outstanding hi
      intro hnotWedged
      have hempty : w.writeQueue = [] := hnotWedged hopen hnone
      simp [hqueue] at hempty

/-- The writer is never wedged in a run exactly when every completion that
reaches it open settles: it reports success, or `broken_pipe` while the front
frame reads as an array of three elements. -/
theorem always_notWedged_iff (es : List (Event Buf)) :
    Always (AsyncWriter.step mp) NotWedged initial es ↔
      EachStep (AsyncWriter.step mp) (CompletionSettles mp) initial es := by
  exact always_iff_eachStep (fun _ h => h.notWedged)
    (fun _ _ _ h _ hsettles hstep => h.step mp hsettles hstep)
    (fun _ _ _ h _ hnot hstep => not_notWedged_of_unsettled mp h hnot hstep)
    Running.initial (eachStep_unguarded _ _ es)

/-- A wedged writer stays wedged: whatever happens to it, no message is ever
handed to `async_write` again. -/
theorem started_of_wedged {w w' : AsyncWriter Buf}
    (hnone : w.outstanding = []) (hqueue : w.writeQueue ≠ [])
    (hreach : Reachable (AsyncWriter.step mp) unguarded w w') :
    w'.started = w.started := by
  have hstuck := hreach.invariant
    (I := fun v => v.outstanding = [] ∧ v.writeQueue ≠ [] ∧
      v.started = w.started)
    ⟨hnone, hqueue, rfl⟩
    fun v e v' hI _ hstep => by
      obtain ⟨hnone, hqueue, hstarted⟩ := hI
      cases effect_of_step mp hstep with
      | write data =>
          cases hexit : v.exit with
          | true => simp [write_of_exit mp hexit, hnone, hqueue, hstarted]
          | false =>
              simp [write_of_occupied mp hexit hqueue, hnone, hstarted]
      | settled hi hsettles => simp [hnone] at hi
      | kept hi hnot => simp [hnone] at hi
      | close => exact ⟨hnone, hqueue, hstarted⟩
      | closeSocket hclosing => exact ⟨hnone, hqueue, hstarted⟩
  exact hstuck.2.2

/-- A notification whose write is aborted by a reconnect attempt (125 is
`operation_aborted`) wedges the writer, and the call written next is never
handed to the socket. -/
theorem aborted_notification_wedges :
    ¬ Always (AsyncWriter.step .reference) NotWedged initial
      [.write (some (.array [.ofInt8 2, .str "subscribe", .array []])),
        .written 0 (.other 125)] ∧
    (run (AsyncWriter.step .reference) initial
      [.write (some (.array [.ofInt8 2, .str "subscribe", .array []])),
        .written 0 (.other 125),
        .write (some (.array [.ofInt8 0, .ofInt32 1, .str "list",
          .array []]))]).map AsyncWriter.started =
      some [some (.array [.ofInt8 2, .str "subscribe", .array []])] := by
  constructor
  · intro halways
    have hlast := (halways.2 _ rfl).2 _ rfl
    have hempty := hlast rfl rfl
    cases hempty
  · rfl

end AsyncWriter
end Transport
end RpcLib
