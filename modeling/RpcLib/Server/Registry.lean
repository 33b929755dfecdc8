import RpcLib.MsgPack.Reference
import RpcLib.MsgPack.ShortForms
import RpcLib.Server.Registrar

/-!
# Dead sessions in the vector

* `Live`: a session that has not run its `close_session` handler, and reads or
  has a handler posted.
* `KeepsClean`: the condition on one step.
* `registryClean_iff`: no dead session is in the vector exactly when no session
  is entered dead and none that is in the vector loses its last handler after
  its read loop has ended without a `close`.
-/

namespace RpcLib
namespace Server

open Protocol Transport Foundation TransitionSystem

variable {ω V Buf : Type} (mp : MsgPack Buf) (unpacker : Decoder Object UInt8)
  (disp : Dispatcher ω V)

/-! ## Dead sessions -/

/-- No handler of the session waits in a queue. -/
def Idle (s : State ω V Buf) (k : SessionNumber) : Prop :=
  (s.connection k).writeStrand = [] ∧ ∀ task ∈ s.tasks, task.1 ≠ k

/-- The session has not left the vector by its `close_session` handler, and
reads or has a handler posted. -/
structure Live (s : State ω V Buf) (k : SessionNumber) : Prop where
  registered : (s.connection k).unregistered = false
  busy : (s.connection k).reading = 0 → ¬ Idle s k

/-- No session is in the vector twice, and unless an exception has ended the
process no dead one is in it. -/
structure RegistryClean (s : State ω V Buf) : Prop where
  nodup : s.sessions.Nodup
  live : s.escaped = false → ∀ k ∈ s.sessions, Live s k

/-- The read loop of a session in the vector has ended, and nobody has called
`close`. -/
structure Orphaned (s : State ω V Buf) (k : SessionNumber) : Prop where
  registered : k ∈ s.sessions
  ended : (s.connection k).reading = 0
  unclosed : (s.connection k).writer.exit = false

/-- A handler of the session is in what is left of its strand and of the
dispatch tasks. -/
def OthersQueued (strand : List StrandTask)
    (tasks : List (SessionNumber × Object)) (k : SessionNumber) : Prop :=
  strand ≠ [] ∨ ∃ task ∈ tasks, task.1 = k

/-- A session is alive when it enters the vector.  A read error without a
branch of its own finds a handler posted for a session in the vector, and the
last handler that runs for such a session closes it, takes it out or posts
another. -/
def KeepsClean (s : State ω V Buf) : Event → Prop
  | .resume t =>
      ∀ k, s.jobs t = some (.registering k) → Live s k
  | .readDone _ k ec _ =>
      k ∈ s.sessions → (s.connection k).writer.exit = false →
        UnhandledRead ec → ¬ Idle s k
  | .dispatch t i =>
      ∀ k msg, s.tasks[i]? = some (k, msg) → Orphaned s k →
        OthersQueued (s.connection k).writeStrand (s.tasks.eraseIdx i) k ∨
          (((s.connection k).toServerSession.dispatchTask mp msg).exec
            (s.worker t)).1.toOption ≠ some []
  | .runStrand _ k =>
      ∀ task rest, (s.connection k).writeStrand = task :: rest →
        Orphaned s k → OthersQueued rest s.tasks k ∨
          task = .posted .close ∨ task = .posted .closeSessions ∨
          task = .closeSession
  | _ => True

/-- What a step leaves alone about a session keeps it alive or dead. -/
theorem live_congr {s s' : State ω V Buf} {k : SessionNumber}
    (hconnection : s'.connection k = s.connection k)
    (htasks : (∀ task ∈ s'.tasks, task.1 ≠ k) ↔ ∀ task ∈ s.tasks, task.1 ≠ k) :
    Live s' k ↔ Live s k := by
  have hidle : Idle s' k ↔ Idle s k := by
    unfold Idle
    rw [hconnection, htasks]
  constructor
  · exact fun h => ⟨by rw [← hconnection]; exact h.registered, by
      rw [← hconnection, ← hidle]
      exact h.busy⟩
  · exact fun h => ⟨by rw [hconnection]; exact h.registered, by
      rw [hconnection, hidle]
      exact h.busy⟩

theorem not_idle_iff (s : State ω V Buf) (k : SessionNumber) :
    ¬ Idle s k ↔ OthersQueued (s.connection k).writeStrand s.tasks k := by
  unfold Idle OthersQueued
  simp only [not_and_or, not_forall, not_not, exists_prop]

namespace RegistryClean

variable {s s' : State ω V Buf}

/-- A step that leaves every session in the vector alone. -/
theorem of_same (h : RegistryClean s) (hlive : s.escaped = false)
    (hregistrar : Registrar s')
    (hsessions : ∀ k ∈ s'.sessions, k ∈ s.sessions)
    (hother : ∀ k ∈ s'.sessions, Live s' k ↔ Live s k) : RegistryClean s' :=
  ⟨hregistrar.nodup, fun _ k hk =>
    (hother k hk).mpr (h.live hlive k (hsessions k hk))⟩

/-- A step that leaves every session but one alone. -/
theorem iff_of_one (h : RegistryClean s) (hlive : s.escaped = false)
    (hregistrar : Registrar s') (k : SessionNumber)
    (hlive' : s'.escaped = false)
    (hsessions : ∀ j, j ≠ k → j ∈ s'.sessions → j ∈ s.sessions)
    (hother : ∀ j, j ≠ k → (Live s' j ↔ Live s j)) :
    RegistryClean s' ↔ (k ∈ s'.sessions → Live s' k) := by
  refine ⟨fun hclean => hclean.live hlive' k, fun hk =>
    ⟨hregistrar.nodup, fun _ j hj => ?_⟩⟩
  by_cases hsame : j = k
  · subst hsame
    exact hk hj
  · exact (hother j hsame).mpr (h.live hlive j (hsessions j hsame hj))

theorem of_nil (hnone : s.sessions = []) : RegistryClean s := by
  refine ⟨?_, fun _ k hk => ?_⟩
  · rw [hnone]
    exact List.nodup_nil
  · rw [hnone] at hk
    exact absurd hk List.not_mem_nil

/-- After an escaped exception nothing is promised. -/
theorem of_escaped (hregistrar : Registrar s') (hescaped : s'.escaped = true) :
    RegistryClean s' :=
  ⟨hregistrar.nodup, fun hlive => by rw [hescaped] at hlive; cases hlive⟩

end RegistryClean

/-- A session that has a handler posted and was not taken out is alive. -/
theorem live_of_queued {s : State ω V Buf} {k : SessionNumber}
    (hregistered : (s.connection k).unregistered = false)
    (hqueued : (s.connection k).writeStrand ≠ []) : Live s k :=
  ⟨hregistered, fun _ hidle => hqueued hidle.1⟩

/-- A handler that leaves the other sessions and the vector alone, and leaves
its own session with a handler posted. -/
theorem clean_of_queued {s s' : State ω V Buf} (h : RegistryClean s)
    (hlive : s.escaped = false) (hregistrar : Registrar s')
    (k : SessionNumber) (hsessions : s'.sessions = s.sessions)
    (htasks : s'.tasks = s.tasks)
    (hother : ∀ j, j ≠ k → s'.connection j = s.connection j)
    (hregistered : (s'.connection k).unregistered =
      (s.connection k).unregistered)
    (hqueued : k ∈ s.sessions → (s'.connection k).writeStrand ≠ []) :
    RegistryClean s' := by
  refine ⟨hregistrar.nodup, fun _ j hj => ?_⟩
  rw [hsessions] at hj
  have hbefore := h.live hlive j hj
  by_cases hjk : j = k
  · subst hjk
    exact live_of_queued (hregistered.trans hbefore.registered) (hqueued hj)
  · exact (live_congr (hother j hjk) (by rw [htasks])).mpr hbefore

/-- A closed session that is alive waits for its `close_session` handler. -/
theorem strand_of_closed {s : State ω V Buf} {k : SessionNumber}
    (hclosings : Closings s) (hlive : Live s k)
    (hexit : (s.connection k).writer.exit = true) :
    (s.connection k).writeStrand ≠ [] := by
  rcases (hclosings k).leaves hexit with hgone | hmem
  · rw [hlive.registered] at hgone
    cases hgone
  · exact List.ne_nil_of_mem hmem

/-- Whether a session in the vector survives the run of one of its handlers is
decided by what is left in its queues, when nobody has closed it. -/
theorem live_iff_of_handler {s s' : State ω V Buf} {k : SessionNumber}
    (hlive : Live s k) (hk : k ∈ s.sessions) (hclosings : Closings s')
    (hregistered : (s'.connection k).unregistered =
      (s.connection k).unregistered)
    (hreading : (s'.connection k).reading = (s.connection k).reading)
    (hexit : (s'.connection k).writer.exit = (s.connection k).writer.exit) :
    Live s' k ↔ (Orphaned s k →
      OthersQueued (s'.connection k).writeStrand s'.tasks k) := by
  rw [← not_idle_iff]
  constructor
  · intro h horphaned
    exact h.busy (hreading.trans horphaned.ended)
  · intro h
    refine ⟨hregistered.trans hlive.registered, fun hended => ?_⟩
    have hended' := hreading.symm.trans hended
    cases hclosed : (s.connection k).writer.exit with
    | false => exact h ⟨hk, hended', hclosed⟩
    | true =>
        rcases (hclosings k).leaves (hexit.trans hclosed) with hgone | hmem
        · rw [hregistered, hlive.registered] at hgone
          cases hgone
        · exact fun hidle => List.ne_nil_of_mem hmem hidle.1

/-- The dispatch tasks of other sessions stay when one is taken out. -/
theorem tasks_of_other {tasks : List (SessionNumber × Object)} {i : Nat}
    {k j : SessionNumber} {msg : Object} (htask : tasks[i]? = some (k, msg))
    (hother : j ≠ k) :
    (∀ task ∈ tasks.eraseIdx i, task.1 ≠ j) ↔ ∀ task ∈ tasks, task.1 ≠ j := by
  constructor
  · intro h task htask'
    obtain ⟨n, hn⟩ := List.mem_iff_getElem?.mp htask'
    by_cases hsame : n = i
    · subst hsame
      obtain rfl := Option.some.inj (hn.symm.trans htask)
      exact fun heq => hother heq.symm
    · exact h task (List.mem_eraseIdx_iff_getElem?.mpr ⟨n, hsame, hn⟩)
  · exact fun h task htask' => h task (List.mem_of_mem_eraseIdx htask')

/-- The dispatch tasks of other sessions stay when some are posted. -/
theorem tasks_of_posted {tasks : List (SessionNumber × Object)}
    {k j : SessionNumber} (msgs : List Object) (hother : j ≠ k) :
    (∀ task ∈ tasks ++ msgs.map fun msg => (k, msg), task.1 ≠ j) ↔
      ∀ task ∈ tasks, task.1 ≠ j := by
  constructor
  · exact fun h task htask => h task (List.mem_append_left _ htask)
  · intro h task htask
    rcases List.mem_append.mp htask with hold | hnew
    · exact h task hold
    · obtain ⟨msg, -, rfl⟩ := List.mem_map.mp hnew
      exact fun heq => hother heq.symm

/-- A handler of the write strand of session `k` that leaves the vector and
the flags of the session alone and posts nothing. -/
theorem clean_of_strand {s s' : State ω V Buf} {t : ThreadId}
    {k : SessionNumber} {task : StrandTask} {rest : List StrandTask}
    (h : RegistryClean s) (hlive : s.escaped = false)
    (hregistrar : Registrar s') (hclosings : Closings s')
    (hstrand : (s.connection k).writeStrand = task :: rest)
    (htask : task ≠ .posted .close ∧ task ≠ .posted .closeSessions ∧
      task ≠ .closeSession)
    (hescaped : s'.escaped = false) (hsessions : s'.sessions = s.sessions)
    (htasks : s'.tasks = s.tasks)
    (hother : ∀ j, j ≠ k → s'.connection j = s.connection j)
    (hregistered : (s'.connection k).unregistered =
      (s.connection k).unregistered)
    (hreading : (s'.connection k).reading = (s.connection k).reading)
    (hexit : (s'.connection k).writer.exit = (s.connection k).writer.exit)
    (hrest : (s'.connection k).writeStrand = rest) :
    RegistryClean s' ↔ KeepsClean mp s (.runStrand t k) := by
  rw [h.iff_of_one hlive hregistrar k hescaped
    (fun j _ hj => hsessions ▸ hj)
    (fun j hj => live_congr (hother j hj) (by rw [htasks])), hsessions]
  constructor
  · intro hk task' rest' hstrand' horphaned
    obtain ⟨rfl, rfl⟩ := List.cons.inj (hstrand.symm.trans hstrand')
    have hkept := (live_iff_of_handler (h.live hlive k horphaned.registered)
      horphaned.registered hclosings hregistered hreading hexit).mp
      (hk horphaned.registered) horphaned
    rw [hrest, htasks] at hkept
    exact Or.inl hkept
  · intro hkeeps hk
    rw [live_iff_of_handler (h.live hlive k hk) hk hclosings hregistered
      hreading hexit, hrest, htasks]
    intro horphaned
    rcases hkeeps task rest hstrand horphaned with hqueued | hcloses
    · exact hqueued
    · tauto

/-- A read handler that leaves the vector alone and posts dispatch tasks of its
session, if any. -/
theorem clean_of_read {s s' : State ω V Buf} {k : SessionNumber}
    (h : RegistryClean s) (hlive : s.escaped = false)
    (hregistrar : Registrar s') (hescaped : s'.escaped = false)
    (hsessions : s'.sessions = s.sessions) (msgs : List Object)
    (htasks : s'.tasks = s.tasks ++ msgs.map fun msg => (k, msg))
    (hother : ∀ j, j ≠ k → s'.connection j = s.connection j) :
    RegistryClean s' ↔ (k ∈ s.sessions → Live s' k) := by
  rw [h.iff_of_one hlive hregistrar k hescaped (fun j _ hj => hsessions ▸ hj)
    (fun j hj => live_congr (hother j hj)
      (by rw [htasks]; exact tasks_of_posted msgs hj)), hsessions]

/-- A dispatch keeps the vector clean unless it is the last handler of an
orphaned session and posts nothing. -/
theorem clean_of_dispatch {s : State ω V Buf} {t : ThreadId} {i : Nat}
    {k : SessionNumber} {msg : Object} (h : RegistryClean s)
    (hlive : s.escaped = false)
    (hregistrar : Registrar (s.dispatch mp t i k msg))
    (hclosings : Closings (s.dispatch mp t i k msg))
    (htask : s.tasks[i]? = some (k, msg)) :
    RegistryClean (s.dispatch mp t i k msg) ↔
      KeepsClean mp s (.dispatch t i) := by
  have hkeeps : KeepsClean mp s (.dispatch t i) ↔ (Orphaned s k →
      OthersQueued (s.connection k).writeStrand (s.tasks.eraseIdx i) k ∨
        (((s.connection k).toServerSession.dispatchTask mp msg).exec
          (s.worker t)).1.toOption ≠ some []) := by
    constructor
    · exact fun hkeeps => hkeeps k msg htask
    · intro hkept k' msg' htask'
      obtain ⟨rfl, rfl⟩ := Prod.mk.inj
        (Option.some.inj (htask.symm.trans htask'))
      exact hkept
  rw [hkeeps]
  have hconnection : (s.dispatch mp t i k msg).connection k =
      { s.connection k with
        writeStrand := ((s.dispatch mp t i k msg).connection k).writeStrand } := by
    simp [State.dispatch]
  have hother : ∀ j, j ≠ k →
      (s.dispatch mp t i k msg).connection j = s.connection j :=
    fun j hj => State.setConnection_other s hj _
  cases hexec : (((s.connection k).toServerSession.dispatchTask mp msg).exec
    (s.worker t)).1 with
  | error e =>
      have hescaped : (s.dispatch mp t i k msg).escaped = true := by
        simp [State.dispatch, hexec]
      exact iff_of_true (.of_escaped hregistrar hescaped)
        (fun _ => Or.inr (by simp [Except.toOption]))
  | ok posted =>
      have hescaped : (s.dispatch mp t i k msg).escaped = false := by
        simp [State.dispatch, hexec]
      have hstrand : ((s.dispatch mp t i k msg).connection k).writeStrand =
          (s.connection k).writeStrand ++ posted.map .posted := by
        simp [State.dispatch, hexec]
      have hqueued : OthersQueued
          ((s.connection k).writeStrand ++ posted.map .posted)
          (s.tasks.eraseIdx i) k ↔
          OthersQueued (s.connection k).writeStrand (s.tasks.eraseIdx i) k ∨
            (Except.ok posted : Except Exn (List Posted)).toOption ≠
              some [] := by
        unfold OthersQueued
        cases posted <;> simp [Except.toOption]
      rw [h.iff_of_one hlive hregistrar k hescaped (fun j _ hj => hj)
        (fun j hj => live_congr (hother j hj) (tasks_of_other htask hj))]
      have hone : ∀ hk : k ∈ s.sessions,
          Live (s.dispatch mp t i k msg) k ↔ (Orphaned s k →
            OthersQueued ((s.connection k).writeStrand ++ posted.map .posted)
              (s.tasks.eraseIdx i) k) := by
        intro hk
        rw [live_iff_of_handler (h.live hlive k hk) hk hclosings
          (by rw [hconnection]) (by rw [hconnection]) (by rw [hconnection]),
          hstrand]
        rfl
      constructor
      · intro hk horphaned
        exact hqueued.mp ((hone horphaned.registered).mp
          (hk horphaned.registered) horphaned)
      · intro hkept hk
        exact (hone hk).mpr fun horphaned => hqueued.mpr (hkept horphaned)

/-- A session enters the vector as it is. -/
theorem clean_of_register {s : State ω V Buf} {t : ThreadId}
    {k : SessionNumber} (h : RegistryClean s) (hlive : s.escaped = false)
    (hregistrar : Registrar (s.register t k))
    (hjob : s.jobs t = some (.registering k)) :
    RegistryClean (s.register t k) ↔ KeepsClean mp s (.resume t) := by
  obtain ⟨accepting, acceptor, hregister⟩ := s.register_eq t k
  have hsame : ∀ j, Live (s.register t k) j ↔ Live s j := by
    intro j
    rw [hregister]
    exact live_congr rfl Iff.rfl
  have hsessions : (s.register t k).sessions = s.sessions ++ [k] := by
    rw [hregister]
  have hlive' : (s.register t k).escaped = false := by
    rw [hregister]
    exact hlive
  have hothers : ∀ j, j ≠ k → j ∈ (s.register t k).sessions →
      j ∈ s.sessions := by
    intro j hj hmem
    rw [hsessions] at hmem
    exact (List.mem_append.mp hmem).resolve_right (by simpa using hj)
  rw [h.iff_of_one hlive hregistrar k hlive' hothers (fun j _ => hsame j),
    hsame]
  constructor
  · intro hk k' hjob'
    obtain rfl : k = k' := by simpa [hjob] using hjob'
    exact hk (by simp [hsessions])
  · exact fun hkeeps _ => hkeeps k hjob

/-- A session that has read a chunk reads on, unless the unpacker has
thrown. -/
theorem clean_of_readChunk {s : State ω V Buf} {k : SessionNumber}
    {chunk : List UInt8} (h : RegistryClean s) (hlive : s.escaped = false)
    (hregistrar : Registrar ((s.endRead k).readChunk unpacker k chunk)) :
    RegistryClean ((s.endRead k).readChunk unpacker k chunk) := by
  have hescaped : ((s.endRead k).readChunk unpacker k chunk).escaped =
      (unpacker.drain ((s.connection k).unparsed ++ chunk)).failed := by
    simp [State.readChunk, State.endRead]
  cases hfailed : (unpacker.drain
    ((s.connection k).unparsed ++ chunk)).failed with
  | true => exact .of_escaped hregistrar (hescaped.trans hfailed)
  | false =>
      rw [clean_of_read (k := k) h hlive hregistrar (hescaped.trans hfailed)
        rfl _ rfl (fun j hj => s.setConnection_twice hj _ _)]
      intro hmem
      refine ⟨?_, ?_⟩
      · simpa [State.readChunk, State.endRead] using
          (h.live hlive k hmem).registered
      · simp [State.readChunk, State.endRead, hfailed]

/-- An open session whose last read has ended in an error without a branch of
its own lives on by its posted handlers. -/
theorem clean_of_readFailed {s : State ω V Buf} {t : ThreadId}
    {k : SessionNumber} {ec : ErrorCode} {chunk : List UInt8}
    (h : RegistryClean s) (hlive : s.escaped = false)
    (hregistrar : Registrar (s.endRead k)) (hclosings : Closings s)
    (hopen : (s.connection k).writer.exit = false)
    (hunhandled : UnhandledRead ec) :
    RegistryClean (s.endRead k) ↔ KeepsClean mp s (.readDone t k ec chunk) := by
  have hlast : (s.connection k).reading - 1 = 0 := by
    have hone := (hclosings k).reading
    omega
  have hidle : Idle (s.endRead k) k ↔ Idle s k := by
    simp [Idle, State.endRead, State.setConnection]
  rw [clean_of_read (k := k) h hlive hregistrar hlive rfl []
    (List.append_nil _).symm (fun j hj => State.setConnection_other s hj _)]
  constructor
  · intro hmem hmem' _ _
    rw [← hidle]
    apply (hmem hmem').busy
    simpa [State.endRead] using hlast
  · intro hkeeps hmem
    refine ⟨?_, fun _ => ?_⟩
    · simpa [State.endRead] using (h.live hlive k hmem).registered
    · rw [hidle]
      exact hkeeps hmem hopen hunhandled

/-- The completion of a write changes nothing that a session lives by. -/
theorem clean_of_written {s : State ω V Buf} {k : SessionNumber} {i : Nat}
    {ec : ErrorCode} (h : RegistryClean s) (hlive : s.escaped = false)
    (hregistrar : Registrar (s.written mp k i ec)) :
    RegistryClean (s.written mp k i ec) := by
  cases hescaped : (s.written mp k i ec).escaped with
  | true => exact .of_escaped hregistrar hescaped
  | false =>
      rw [h.iff_of_one hlive hregistrar k hescaped (fun _ _ hj => hj)
        (fun j hj => live_congr (State.setConnection_other s hj _) Iff.rfl)]
      intro hmem
      have hlive' := h.live hlive k hmem
      have hidle : Idle (s.written mp k i ec) k ↔ Idle s k := by
        simp [Idle, State.written, State.setConnection]
      refine ⟨?_, fun hended => ?_⟩
      · simpa [State.written] using hlive'.registered
      · rw [hidle]
        apply hlive'.busy
        simpa [State.written] using hended

/-- A handler that closes its session or takes it out may be the last. -/
theorem keepsClean_of_closes {s : State ω V Buf} {t : ThreadId}
    {k : SessionNumber} {task : StrandTask} {rest : List StrandTask}
    (hstrand : (s.connection k).writeStrand = task :: rest)
    (hcloses : task = .posted .close ∨ task = .posted .closeSessions ∨
      task = .closeSession) : KeepsClean mp s (.runStrand t k) := by
  intro task' rest' hstrand' _
  obtain ⟨rfl, rfl⟩ := List.cons.inj (hstrand.symm.trans hstrand')
  exact Or.inr hcloses

/-- A thread inside `close_sessions` enters no session. -/
theorem keepsClean_of_closing {s : State ω V Buf} {t : ThreadId}
    {posted : Bool} {rest : List SessionNumber}
    (hjob : s.jobs t = some (.closing posted rest)) :
    KeepsClean mp s (.resume t) := by
  intro k hjob'
  rw [hjob] at hjob'
  cases hjob'

/-- A step keeps the vector clean exactly when it meets the condition. -/
theorem registryClean_step {s s' : State ω V Buf} {e : Event}
    (hregistrar : Registrar s) (hclosings : Closings s) (h : RegistryClean s)
    (hstep : step mp unpacker disp s e = some s') :
    RegistryClean s' ↔ KeepsClean mp s e := by
  have hregistrar' := hregistrar.step mp unpacker disp hstep
  have hclosings' := hclosings.step mp unpacker disp hstep
  obtain ⟨hlive, heffect⟩ := effect_of_step mp unpacker disp hstep
  cases heffect with
  | accepted address hfree haccepting =>
      refine iff_of_true (h.of_same hlive hregistrar' (fun _ hk => hk)
        fun k hk => live_congr ?_ Iff.rfl) trivial
      exact State.setConnection_other s
        (Nat.ne_of_lt (hregistrar.created k hk)) _
  | @acceptFailed t ec address hfree haccepting herror =>
      refine iff_of_true ?_ trivial
      obtain ⟨_, _, hnext⟩ := s.acceptFailed_eq t
      rw [hnext] at hregistrar' ⊢
      exact h.of_same hlive hregistrar' (fun _ hk => hk)
        fun k hk => live_congr rfl Iff.rfl
  | acceptThrows haccepting =>
      exact iff_of_true (.of_escaped hregistrar' rfl) trivial
  | register hjob => exact clean_of_register mp h hlive hregistrar' hjob
  | @closeNext t posted k rest hjob =>
      refine iff_of_true ?_ (keepsClean_of_closing mp hjob)
      refine clean_of_queued h hlive hregistrar' k rfl rfl
        (fun j hj => State.setConnection_other s hj _) ?_ (fun _ => ?_)
      · simp [State.closeNext, State.setJob, State.close]
      · simp [State.closeNext, State.setJob, State.close]
  | closedAll hjob =>
      exact iff_of_true (h.of_same hlive hregistrar' (fun _ hk => hk)
        fun k hk => live_congr rfl Iff.rfl) (keepsClean_of_closing mp hjob)
  | @readClosed t k ec chunk hk hreading hexit =>
      refine iff_of_true ?_ fun _ hopen => ?_
      · refine clean_of_queued h hlive hregistrar' k rfl rfl
          (fun j hj => State.setConnection_other s hj _)
          (by simp [State.endRead]) (fun hmem => ?_)
        simpa [State.endRead] using
          strand_of_closed hclosings (h.live hlive k hmem) hexit
      · rw [hexit] at hopen
        cases hopen
  | readChunk chunk hk hreading hopen =>
      exact iff_of_true (clean_of_readChunk unpacker h hlive hregistrar')
        fun _ _ hunhandled => absurd rfl hunhandled.1
  | @readLost t k ec chunk hk hreading hopen hlost =>
      have hhandled : ¬ UnhandledRead ec := by
        rintro ⟨-, heof, hreset⟩
        exact hlost.elim heof hreset
      refine iff_of_true ?_ fun _ _ hunhandled => absurd hunhandled hhandled
      refine clean_of_queued h hlive hregistrar' k rfl rfl
        (fun j hj => s.setConnection_twice hj _ _) ?_ (fun _ => ?_)
      · simp [State.close, State.endRead]
      · simp [State.close, State.endRead]
  | readFailed chunk hk hreading hopen hunhandled =>
      exact clean_of_readFailed mp h hlive hregistrar' hclosings hopen
        hunhandled
  | dispatch htask =>
      exact clean_of_dispatch mp h hlive hregistrar' hclosings' htask
  | @writeReply t k resp rest hk hstrand =>
      exact clean_of_strand mp h hlive hregistrar' hclosings' hstrand
        (by simp) hlive rfl rfl
        (fun j hj => s.setConnection_twice hj _ _)
        (by simp [State.writeReply, State.popStrand])
        (by simp [State.writeReply, State.popStrand])
        (by simp [State.writeReply, State.popStrand, AsyncWriter.write_exit])
        (by simp [State.writeReply, State.popStrand])
  | @close t k rest hk hstrand =>
      refine iff_of_true ?_ (keepsClean_of_closes mp hstrand (Or.inl rfl))
      refine clean_of_queued h hlive hregistrar' k rfl rfl
        (fun j hj => s.setConnection_twice hj _ _) ?_ (fun _ => ?_)
      · simp [State.close, State.popStrand]
      · simp [State.close, State.popStrand]
  | closeSessionsPosted hk hstrand hfree =>
      exact iff_of_true (.of_nil rfl)
        (keepsClean_of_closes mp hstrand (Or.inr (Or.inl rfl)))
  | @closeSocket t k rest hk hstrand =>
      exact clean_of_strand mp h hlive hregistrar' hclosings' hstrand
        (by simp) hlive rfl rfl
        (fun j hj => s.setConnection_twice hj _ _)
        (by simp [State.closeSocket, State.popStrand])
        (by simp [State.closeSocket, State.popStrand])
        (by simp [State.closeSocket, State.popStrand, AsyncWriter.closeSocket])
        (by simp [State.closeSocket, State.popStrand])
  | @closeSession t k rest hk hstrand =>
      refine iff_of_true ?_
        (keepsClean_of_closes mp hstrand (Or.inr (Or.inr rfl)))
      rw [h.iff_of_one hlive hregistrar' k hlive
        (fun _ _ hj => List.mem_of_mem_erase hj)
        (fun j hj => live_congr (s.setConnection_twice hj _ _) Iff.rfl)]
      -- the vector holds the session once
      exact fun hmem => absurd hmem h.nodup.not_mem_erase
  | written =>
      exact iff_of_true (clean_of_written mp h hlive hregistrar') trivial
  | closeSessions hfree => exact iff_of_true (.of_nil rfl) trivial
  | suppressExceptions suppress =>
      exact iff_of_true (h.of_same hlive hregistrar' (fun _ hk => hk)
        fun k hk => live_congr rfl Iff.rfl) trivial

/-- The vector is clean in every state of a run exactly when every step of the
run meets the condition. -/
theorem registryClean_iff (app : ω) (es : List Event) :
    Always (step mp unpacker disp) RegistryClean
      (.initial disp app : State ω V Buf) es ↔
    EachStep (step mp unpacker disp) (KeepsClean mp)
      (.initial disp app : State ω V Buf) es := by
  have hfirst : RegistryClean (.initial disp app : State ω V Buf) :=
    .of_nil rfl
  exact always_iff_eachStep
    (J := fun s => (Registrar s ∧ Closings s) ∧ RegistryClean s)
    (fun _ h => h.2)
    (fun _ _ _ h _ hkeeps hstep =>
      ⟨⟨h.1.1.step mp unpacker disp hstep, h.1.2.step mp unpacker disp hstep⟩,
        (registryClean_step mp unpacker disp h.1.1 h.1.2 h.2 hstep).mpr
          hkeeps⟩)
    (fun _ _ _ h _ hnot hstep hclean => hnot
      ((registryClean_step mp unpacker disp h.1.1 h.1.2 h.2 hstep).mp hclean))
    ⟨⟨.initial disp app, .initial disp app⟩, hfirst⟩
    (eachStep_unguarded _ _ _)

/-- A client connects and disconnects, and a second thread runs the handlers
of its session before the first thread enters the session. -/
def closedBeforeEntered : List Event :=
  [.acceptDone 0 .success 1, .readDone 1 0 .eof [], .runStrand 1 0,
    .runStrand 1 0, .resume 0]

/-- A client connects, and its connection is aborted (`ECONNABORTED`). -/
def connectionAborted : List Event :=
  [.acceptDone 0 .success 1, .resume 0, .readDone 0 0 (.other 103) []]

/-- A session that is closed before it is entered stays in the vector, and so
does one whose read loop ends with an error that has no branch. -/
theorem dead_sessions_stay :
    ¬ Always (step .reference MsgPack.shortForms ⟨∅⟩) RegistryClean
        (State.initial (V := Unit) ⟨∅⟩ ()) closedBeforeEntered ∧
      ¬ Always (step .reference MsgPack.shortForms ⟨∅⟩) RegistryClean
        (State.initial (V := Unit) ⟨∅⟩ ()) connectionAborted := by
  constructor
  · intro halways
    have hends : (run (step .reference MsgPack.shortForms ⟨∅⟩)
        (State.initial (V := Unit) ⟨∅⟩ ()) closedBeforeEntered).map
        (fun s => (s.escaped, s.sessions, (s.connection 0).unregistered)) =
        some (false, [0], true) := rfl
    obtain ⟨s, hrun, hs⟩ := Option.map_eq_some_iff.mp hends
    obtain ⟨hlive, hsessions, hgone⟩ : s.escaped = false ∧
        s.sessions = [0] ∧ (s.connection 0).unregistered = true := by
      simpa using hs
    have hzero := (halways.of_run hrun).live hlive 0 (by simp [hsessions])
    rw [hzero.registered] at hgone
    cases hgone
  · intro halways
    have hends : (run (step .reference MsgPack.shortForms ⟨∅⟩)
        (State.initial (V := Unit) ⟨∅⟩ ()) connectionAborted).map
        (fun s => (s.escaped, s.sessions, (s.connection 0).reading,
          (s.connection 0).writeStrand.isEmpty, s.tasks.isEmpty)) =
        some (false, [0], 0, true, true) := rfl
    obtain ⟨s, hrun, hs⟩ := Option.map_eq_some_iff.mp hends
    obtain ⟨hlive, hsessions, hended, hstrand, htasks⟩ :
        s.escaped = false ∧ s.sessions = [0] ∧
          (s.connection 0).reading = 0 ∧
          (s.connection 0).writeStrand = [] ∧ s.tasks = [] := by
      simpa using hs
    have hzero := (halways.of_run hrun).live hlive 0 (by simp [hsessions])
    exact hzero.busy hended ⟨hstrand, by simp [htasks]⟩

end Server
end RpcLib
