import RpcLib.Foundation.TransitionSystem

/-!
# A component of a system, and what runs beside it

A component has a step function of its own; a step of the system is a step of
the component or leaves it alone.

A companion is state beside the component.  It may change the component when a
step is about to be taken, and it follows the step.  As long as the steps spare
it, a companion that holds changes nothing, so that the system with the
companion has the runs of the system alone.

* `Component`, `Component.refl`, `Component.trans`: components and their
  components, with `Component.reachable` for their runs.
* `Companion`: with what it asks of a step, its invariant, and the proof that
  steps which spare it keep the invariant.
* `Component.attach`: the system beside a companion of its component.
* `project_step`, `project`: a run beside the companion is a run of the system.
* `lift_step`, `lift`: a run of the system whose steps spare the companion is a
  run beside it.
* `project_forever`, `lift_forever`: the same of infinite runs.
-/

namespace RpcLib
namespace Foundation
namespace TransitionSystem

universe u v w x y z

variable {σ : Type u} {ε : Type v} {τ : Type w} {ζ : Type x}

/-- The component takes the step `label`, or stays as it is. -/
def Follows (part : τ → ζ → Option τ) (t : τ) (label : Option ζ) (t' : τ) :
    Prop :=
  match label with
  | some l => part t l = some t'
  | none => t' = t

/-- The system `part` is a component of the system `step`. -/
structure Component (step : σ → ε → Option σ) (part : τ → ζ → Option τ) where
  get : σ → τ
  set : σ → τ → σ
  /-- The step that the component takes, if it takes one. -/
  label : σ → ε → Option ζ
  get_set : ∀ s t, get (set s t) = t
  set_get : ∀ s, set s (get s) = s
  follows : ∀ {s e s'}, step s e = some s' →
    Follows part (get s) (label s e) (get s')

namespace Component

/-- Every system is a component of itself. -/
def refl (step : σ → ε → Option σ) : Component step step where
  get := id
  set := fun _ t => t
  label := fun _ e => some e
  get_set := fun _ _ => rfl
  set_get := fun _ => rfl
  follows := fun h => h

/-- A component of a component. -/
def trans {υ : Type y} {κ : Type z} {step : σ → ε → Option σ}
    {part : τ → ζ → Option τ} {inner : υ → κ → Option υ}
    (c : Component step part) (d : Component part inner) :
    Component step inner where
  get := fun s => d.get (c.get s)
  set := fun s t => c.set s (d.set (c.get s) t)
  label := fun s e => (c.label s e).bind (d.label (c.get s))
  get_set := fun s t => by rw [c.get_set, d.get_set]
  set_get := fun s => by rw [d.set_get, c.set_get]
  follows := by
    intro s e s' hstep
    have houter := c.follows hstep
    cases hlabel : c.label s e with
    | none =>
        rw [hlabel] at houter
        exact congrArg d.get houter
    | some l =>
        rw [hlabel] at houter
        exact d.follows houter

/-- A run of the system is a run of the component. -/
theorem reachable {step : σ → ε → Option σ} {part : τ → ζ → Option τ}
    (c : Component step part) {guard : σ → ε → Prop} {first s : σ}
    (hreach : Reachable step guard first s) :
    Reachable part unguarded (c.get first) (c.get s) := by
  induction hreach with
  | start => exact .start
  | @next s s' e _ _ hstep ih =>
      have hfollows := c.follows hstep
      cases hlabel : c.label s e with
      | none =>
          rw [hlabel] at hfollows
          have hsame : c.get s' = c.get s := hfollows
          rw [hsame]
          exact ih
      | some l =>
          rw [hlabel] at hfollows
          exact ih.next trivial hfollows

end Component

/-- State that runs beside a component. -/
structure Companion (part : τ → ζ → Option τ) (μ : Type y) where
  /-- The component as a step finds it. -/
  before : μ → τ → ζ → τ
  /-- The companion after the step. -/
  after : μ → τ → ζ → μ
  /-- The step spares the companion. -/
  Spares : μ → τ → ζ → Prop
  Held : τ → μ → Prop
  transparent : ∀ {t m} l, Held t m → before m t l = t
  kept : ∀ {t m l t'}, Held t m → Spares m t l → part t l = some t' →
    Held t' (after m t l)

namespace Component

variable {μ : Type y} {step : σ → ε → Option σ} {part : τ → ζ → Option τ}
  (c : Component step part) (a : Companion part μ)

/-- The system beside a companion of its component. -/
def attach (s : σ × μ) (e : ε) : Option (σ × μ) :=
  match c.label s.1 e with
  | none => (step s.1 e).map fun s' => (s', s.2)
  | some l =>
      (step (c.set s.1 (a.before s.2 (c.get s.1) l)) e).map fun s' =>
        (s', a.after s.2 (c.get s.1) l)

/-- The step of the component, if there is one, spares the companion. -/
def Spares (s : σ × μ) (e : ε) : Prop :=
  ∀ l, c.label s.1 e = some l → a.Spares s.2 (c.get s.1) l

/-- The companion after a step of the system. -/
def after (s : σ × μ) (e : ε) : μ :=
  match c.label s.1 e with
  | none => s.2
  | some l => a.after s.2 (c.get s.1) l

/-- Beside a companion that holds, the system takes its own steps. -/
theorem attach_eq {s : σ × μ} (hheld : a.Held (c.get s.1) s.2) (e : ε) :
    c.attach a s e = (step s.1 e).map fun s' => (s', c.after a s e) := by
  unfold attach after
  cases c.label s.1 e with
  | none => rfl
  | some l =>
      dsimp only
      rw [a.transparent l hheld, c.set_get]

/-- A step that spares the companion keeps it. -/
theorem held_of_step {s : σ × μ} {e : ε} {s' : σ}
    (hheld : a.Held (c.get s.1) s.2) (hspares : c.Spares a s e)
    (hstep : step s.1 e = some s') :
    a.Held (c.get s') (c.after a s e) := by
  have hfollows := c.follows hstep
  unfold after
  cases hlabel : c.label s.1 e with
  | none =>
      rw [hlabel] at hfollows
      have hsame : c.get s' = c.get s.1 := hfollows
      rw [hsame]
      exact hheld
  | some l =>
      rw [hlabel] at hfollows
      exact a.kept hheld (hspares l hlabel) hfollows

/-- A step beside the companion is a step of the system. -/
theorem project_step {s s' : σ × μ} {e : ε}
    (hheld : a.Held (c.get s.1) s.2) (hspares : c.Spares a s e)
    (hstep : c.attach a s e = some s') :
    step s.1 e = some s'.1 ∧ a.Held (c.get s'.1) s'.2 := by
  rw [c.attach_eq a hheld] at hstep
  obtain ⟨next, hnext, rfl⟩ := Option.map_eq_some_iff.mp hstep
  exact ⟨hnext, c.held_of_step a hheld hspares hnext⟩

/-- A run beside the companion that spares it is a run of the system. -/
theorem project {guard : σ → ε → Prop} {first s : σ × μ}
    (hheld : a.Held (c.get first.1) first.2)
    (hreach : Reachable (c.attach a)
      (fun s e => guard s.1 e ∧ c.Spares a s e) first s) :
    Reachable step guard first.1 s.1 ∧ a.Held (c.get s.1) s.2 := by
  induction hreach with
  | start => exact ⟨.start, hheld⟩
  | next _ hguard hstep ih =>
      obtain ⟨hnext, hheld'⟩ := c.project_step a ih.2 hguard.2 hstep
      exact ⟨ih.1.next hguard.1 hnext, hheld'⟩

/-- A step of the system is a step beside a companion that holds. -/
theorem lift_step {s : σ × μ} {e : ε} {s' : σ}
    (hheld : a.Held (c.get s.1) s.2) (hstep : step s.1 e = some s') :
    c.attach a s e = some (s', c.after a s e) := by
  rw [c.attach_eq a hheld, hstep]
  rfl

/-- A run of the system is a run beside a companion that holds, if the guard
admits no step that does not spare it. -/
theorem lift {guard : σ → ε → Prop} {first s : σ} {m : μ}
    (hheld : a.Held (c.get first) m)
    (hspares : ∀ s m e, guard s e → a.Held (c.get s) m →
      c.Spares a (s, m) e)
    (hreach : Reachable step guard first s) :
    ∃ m', Reachable (c.attach a) (fun s e => guard s.1 e ∧ c.Spares a s e)
      (first, m) (s, m') ∧ a.Held (c.get s) m' := by
  induction hreach with
  | start => exact ⟨m, .start, hheld⟩
  | @next s s' e _ hguard hstep ih =>
      obtain ⟨m', hrun, hheld'⟩ := ih
      have hspared := hspares s m' e hguard hheld'
      exact ⟨c.after a (s, m') e,
        hrun.next ⟨hguard, hspared⟩ (c.lift_step a hheld' hstep),
        c.held_of_step a hheld' hspared hstep⟩

/-- An infinite run beside the companion that spares it is an infinite run of
the system. -/
theorem project_forever {run : ℕ → σ × μ} {label : ℕ → ε}
    (hheld : a.Held (c.get (run 0).1) (run 0).2)
    (hspares : ∀ n, c.Spares a (run n) (label n))
    (hsteps : ∀ n, c.attach a (run n) (label n) = some (run (n + 1)))
    (n : ℕ) : step (run n).1 (label n) = some (run (n + 1)).1 := by
  have hheldAt : ∀ n, a.Held (c.get (run n).1) (run n).2 := by
    intro n
    induction n with
    | zero => exact hheld
    | succ n ih => exact (c.project_step a ih (hspares n) (hsteps n)).2
  exact (c.project_step a (hheldAt n) (hspares n) (hsteps n)).1

/-- An infinite run of the system is one beside a companion that holds, if every
step spares it. -/
theorem lift_forever {run : ℕ → σ} {label : ℕ → ε} {m : μ}
    (hheld : a.Held (c.get (run 0)) m)
    (hspares : ∀ n m, a.Held (c.get (run n)) m →
      c.Spares a (run n, m) (label n))
    (hsteps : ∀ n, step (run n) (label n) = some (run (n + 1))) :
    ∃ beside : ℕ → μ, beside 0 = m ∧ ∀ n,
      c.attach a (run n, beside n) (label n) =
        some (run (n + 1), beside (n + 1)) ∧
      c.Spares a (run n, beside n) (label n) := by
  let beside (n : ℕ) : μ := n.rec m fun n m' => c.after a (run n, m') (label n)
  have hheldAt : ∀ n, a.Held (c.get (run n)) (beside n) := by
    intro n
    induction n with
    | zero => exact hheld
    | succ n ih => exact c.held_of_step a ih (hspares n _ ih) (hsteps n)
  exact ⟨beside, rfl, fun n =>
    ⟨c.lift_step a (hheldAt n) (hsteps n), hspares n _ (hheldAt n)⟩⟩

end Component

end TransitionSystem
end Foundation
end RpcLib
