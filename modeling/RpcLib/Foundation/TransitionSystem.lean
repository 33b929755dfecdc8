import Mathlib.Tactic.Common

/-!
# Labelled transition systems with a partial step function

A system is a step function `step : σ → ε → Option σ`: the label `e` is
enabled in `s` exactly when `step s e` is a state.  Nondeterminism lies in the
choice of labels.  A `guard : σ → ε → Prop` restricts which enabled labels an
environment chooses, so that an assumption about the environment is a
restriction of the runs and not a change of the system.

* `Reachable`: states reached by admitted steps, with the invariant rule
  `Reachable.invariant` and the rule `Reachable.relate` for what a whole run
  preserves between its first and last state.
* `Reachable.simulate`: forward simulation of one system by another.
* `Always` and `EachStep`: properties of all states, and of all steps, of the
  run on a given list of labels.  `always_of_eachStep` turns a lemma about good
  steps into a sufficient condition on runs, and `always_iff_eachStep`, with
  one about bad steps, into an exact one.  Where a bad step breaks the property
  only later, `eachStep_of_always` gives the other half for runs that come to
  an end.
-/

namespace RpcLib
namespace Foundation
namespace TransitionSystem

universe u v w x

variable {σ : Type u} {ε : Type v} {τ : Type w} {ζ : Type x}

/-- The states reached from `first` by enabled steps that the guard admits. -/
inductive Reachable (step : σ → ε → Option σ) (guard : σ → ε → Prop)
    (first : σ) : σ → Prop
  | start : Reachable step guard first first
  | next {s s' : σ} {e : ε} (hreach : Reachable step guard first s)
      (hguard : guard s e) (hstep : step s e = some s') :
      Reachable step guard first s'

/-- The guard of a system whose environment is unrestricted. -/
def unguarded (_ : σ) (_ : ε) : Prop := True

namespace Reachable

variable {step : σ → ε → Option σ} {guard : σ → ε → Prop} {first : σ}

/-- The invariant rule: what holds at the start and is preserved by every
admitted step holds in every reachable state. -/
theorem invariant {I : σ → Prop} (hfirst : I first)
    (hpreserved : ∀ s e s', I s → guard s e → step s e = some s' → I s')
    {s : σ} (hreach : Reachable step guard first s) : I s := by
  induction hreach with
  | start => exact hfirst
  | next _ hguard hstep ih => exact hpreserved _ _ _ ih hguard hstep

/-- A reflexive and transitive relation that every admitted step respects
relates the first state to every reachable state. -/
theorem relate {R : σ → σ → Prop} (hrefl : ∀ s, R s s)
    (htrans : ∀ a b c, R a b → R b c → R a c)
    (hstep : ∀ s e s', guard s e → step s e = some s' → R s s')
    {s : σ} (hreach : Reachable step guard first s) : R first s := by
  induction hreach with
  | start => exact hrefl first
  | next _ hguard hnext ih => exact htrans _ _ _ ih (hstep _ _ _ hguard hnext)

theorem trans {s s' : σ} (hfirst : Reachable step guard first s)
    (hnext : Reachable step guard s s') : Reachable step guard first s' := by
  induction hnext with
  | start => exact hfirst
  | next _ hguard hstep ih => exact ih.next hguard hstep

theorem single {s' : σ} {e : ε} (hguard : guard first e)
    (hstep : step first e = some s') : Reachable step guard first s' :=
  start.next hguard hstep

/-- A guard that admits more. -/
theorem mono {guard' : σ → ε → Prop} (hguard : ∀ s e, guard s e → guard' s e)
    {s : σ} (hreach : Reachable step guard first s) :
    Reachable step guard' first s := by
  induction hreach with
  | start => exact start
  | next _ hadmitted hstep ih => exact ih.next (hguard _ _ hadmitted) hstep

/-- Forward simulation: if every admitted step between related states can be
followed by a run of a second system that keeps them related, then every
reachable state is related to a reachable state of the second system. -/
theorem simulate {step' : τ → ζ → Option τ} {guard' : τ → ζ → Prop}
    {first' : τ} {R : σ → τ → Prop} (hfirst : R first first')
    (hsim : ∀ s e s' t, R s t → guard s e → step s e = some s' →
      ∃ t', Reachable step' guard' t t' ∧ R s' t')
    {s : σ} (hreach : Reachable step guard first s) :
    ∃ t, Reachable step' guard' first' t ∧ R s t := by
  induction hreach with
  | start => exact ⟨first', start, hfirst⟩
  | next _ hguard hstep ih =>
      obtain ⟨t, ht, hrelated⟩ := ih
      obtain ⟨t', ht', hrelated'⟩ := hsim _ _ _ _ hrelated hguard hstep
      exact ⟨t', ht.trans ht', hrelated'⟩

end Reachable

/-- The state after the labels `es`, when each of them is enabled in turn. -/
def run (step : σ → ε → Option σ) : σ → List ε → Option σ
  | s, [] => some s
  | s, e :: es => (step s e).bind fun s' => run step s' es

@[simp] theorem run_nil (step : σ → ε → Option σ) (s : σ) :
    run step s [] = some s := rfl

@[simp] theorem run_cons (step : σ → ε → Option σ) (s : σ) (e : ε)
    (es : List ε) :
    run step s (e :: es) = (step s e).bind fun s' => run step s' es := rfl

/-- A run taken in two parts. -/
theorem run_append (step : σ → ε → Option σ) (s : σ) (es es' : List ε) :
    run step s (es ++ es') =
      (run step s es).bind fun s' => run step s' es' := by
  induction es generalizing s with
  | nil => rfl
  | cons e es ih =>
      rw [List.cons_append, run_cons, run_cons, Option.bind_assoc]
      exact congrArg _ (funext ih)

/-- `P` holds in every state that the run on `es` visits. -/
def Always (step : σ → ε → Option σ) (P : σ → Prop) : σ → List ε → Prop
  | s, [] => P s
  | s, e :: es => P s ∧ ∀ s', step s e = some s' → Always step P s' es

/-- `C` holds of every step that the run on `es` takes. -/
def EachStep (step : σ → ε → Option σ) (C : σ → ε → Prop) :
    σ → List ε → Prop
  | _, [] => True
  | s, e :: es => ∀ s', step s e = some s' → C s e ∧ EachStep step C s' es

/-- A condition that the labels satisfy in every state. -/
theorem eachStep_of_forall {step : σ → ε → Option σ} {C : σ → ε → Prop}
    {es : List ε} (h : ∀ e ∈ es, ∀ s, C s e) (s : σ) :
    EachStep step C s es := by
  induction es generalizing s with
  | nil => trivial
  | cons e es ih =>
      have htail : ∀ e' ∈ es, ∀ s, C s e' :=
        fun e' he' => h e' (List.mem_cons_of_mem _ he')
      exact fun s' _ => ⟨h e List.mem_cons_self s, ih htail s'⟩

/-- A weaker condition. -/
theorem eachStep_mono {step : σ → ε → Option σ} {C C' : σ → ε → Prop}
    (himplies : ∀ s e, C s e → C' s e) {s : σ} {es : List ε}
    (h : EachStep step C s es) : EachStep step C' s es := by
  induction es generalizing s with
  | nil => trivial
  | cons e es ih =>
      intro s' hstep
      obtain ⟨hcondition, hrest⟩ := h s' hstep
      exact ⟨himplies s e hcondition, ih hrest⟩

/-- Two conditions at once. -/
theorem eachStep_and {step : σ → ε → Option σ} {C C' : σ → ε → Prop} {s : σ}
    {es : List ε} (h : EachStep step C s es) (h' : EachStep step C' s es) :
    EachStep step (fun s e => C s e ∧ C' s e) s es := by
  induction es generalizing s with
  | nil => trivial
  | cons e es ih =>
      intro s' hstep
      obtain ⟨hfirst, hrest⟩ := h s' hstep
      obtain ⟨hfirst', hrest'⟩ := h' s' hstep
      exact ⟨⟨hfirst, hfirst'⟩, ih hrest hrest'⟩

/-- Two conditions that agree on the steps from the states of an invariant. -/
theorem eachStep_congr {step : σ → ε → Option σ} {C C' : σ → ε → Prop}
    {J : σ → Prop} (hkept : ∀ s e s', J s → step s e = some s' → J s')
    (hagree : ∀ s e s', J s → step s e = some s' → (C s e ↔ C' s e))
    {s : σ} (hJ : J s) (es : List ε) :
    EachStep step C s es ↔ EachStep step C' s es := by
  induction es generalizing s with
  | nil => exact Iff.rfl
  | cons e es ih =>
      exact forall₂_congr fun s' hstep =>
        and_congr (hagree s e s' hJ hstep) (ih (hkept s e s' hJ hstep))

/-- Test a condition at each step of a run. -/
def checkRun (step : σ → ε → Option σ) (check : σ → ε → Bool) :
    σ → List ε → Bool
  | _, [] => true
  | s, e :: es =>
      match step s e with
      | none => true
      | some s' => check s e && checkRun step check s' es

theorem eachStep_of_checkRun {step : σ → ε → Option σ} {check : σ → ε → Bool}
    {C : σ → ε → Prop} (hcheck : ∀ s e, check s e = true → C s e) {s : σ}
    {es : List ε} (h : checkRun step check s es = true) :
    EachStep step C s es := by
  induction es generalizing s with
  | nil => trivial
  | cons e es ih =>
      intro s' hstep
      unfold checkRun at h
      rw [hstep, Bool.and_eq_true] at h
      exact ⟨hcheck s e h.1, ih h.2⟩

/-- The steps of a run taken in two parts. -/
theorem eachStep_append {step : σ → ε → Option σ} {C : σ → ε → Prop}
    {es es' : List ε} {s : σ} (hfirst : EachStep step C s es)
    (hlast : ∀ s', run step s es = some s' → EachStep step C s' es') :
    EachStep step C s (es ++ es') := by
  induction es generalizing s with
  | nil => exact hlast s rfl
  | cons e es ih =>
      intro middle hstep
      obtain ⟨hcondition, hrest⟩ := hfirst middle hstep
      refine ⟨hcondition, ih hrest fun s' hrun => hlast s' ?_⟩
      rw [run_cons, hstep]
      exact hrun

theorem eachStep_unguarded (step : σ → ε → Option σ) (s : σ) (es : List ε) :
    EachStep step unguarded s es :=
  eachStep_of_forall (fun _ _ _ => trivial) s

/-- The state after a run of admitted steps is reachable. -/
theorem reachable_of_run {step : σ → ε → Option σ} {guard : σ → ε → Prop}
    {es : List ε} {s s' : σ} (hguard : EachStep step guard s es)
    (hrun : run step s es = some s') : Reachable step guard s s' := by
  induction es generalizing s with
  | nil =>
      obtain rfl : s = s' := by simpa using hrun
      exact .start
  | cons e es ih =>
      rw [run_cons, Option.bind_eq_some_iff] at hrun
      obtain ⟨middle, hstep, hrest⟩ := hrun
      obtain ⟨hadmitted, hguard'⟩ := hguard middle hstep
      exact (Reachable.single hadmitted hstep).trans (ih hguard' hrest)

theorem Always.head {step : σ → ε → Option σ} {P : σ → Prop} {s : σ}
    {es : List ε} (h : Always step P s es) : P s := by
  cases es with
  | nil => exact h
  | cons e es => exact h.1

/-- The property holds at the end of the run. -/
theorem Always.of_run {step : σ → ε → Option σ} {P : σ → Prop} {s s' : σ}
    {es : List ε} (h : Always step P s es) (hrun : run step s es = some s') :
    P s' := by
  induction es generalizing s with
  | nil =>
      obtain rfl : s = s' := by simpa using hrun
      exact h
  | cons e es ih =>
      rw [run_cons, Option.bind_eq_some_iff] at hrun
      obtain ⟨middle, hstep, hrest⟩ := hrun
      exact ih (h.2 middle hstep) hrest

/-- The sufficient half: a run whose steps all satisfy the condition keeps
what good steps maintain, and the property with it. -/
theorem always_of_eachStep {step : σ → ε → Option σ}
    {guard C : σ → ε → Prop} {J P : σ → Prop}
    (hJP : ∀ s, J s → P s)
    (hgood : ∀ s e s', J s → guard s e → C s e → step s e = some s' → J s')
    {s : σ} {es : List ε} (hJ : J s) (hguard : EachStep step guard s es)
    (hcondition : EachStep step C s es) : Always step P s es := by
  induction es generalizing s with
  | nil => exact hJP s hJ
  | cons e es ih =>
      refine ⟨hJP s hJ, fun s' hstep => ?_⟩
      obtain ⟨hadmitted, hguard'⟩ := hguard s' hstep
      obtain ⟨hgood', hcondition'⟩ := hcondition s' hstep
      have hJ' := hgood s e s' hJ hadmitted hgood' hstep
      exact ih hJ' hguard' hcondition'

/-- The exact condition of a safety property of runs.  `J` is what good steps
maintain; it implies `P`, and a step outside the condition `C` leaves a state
where `P` fails.  Then a run satisfies `P` throughout if and only if all its
steps satisfy `C`. -/
theorem always_iff_eachStep {step : σ → ε → Option σ}
    {guard C : σ → ε → Prop} {J P : σ → Prop}
    (hJP : ∀ s, J s → P s)
    (hgood : ∀ s e s', J s → guard s e → C s e → step s e = some s' → J s')
    (hbad : ∀ s e s', J s → guard s e → ¬ C s e → step s e = some s' →
      ¬ P s')
    {s : σ} {es : List ε} (hJ : J s) (hguard : EachStep step guard s es) :
    Always step P s es ↔ EachStep step C s es := by
  refine ⟨fun halways => ?_, always_of_eachStep hJP hgood hJ hguard⟩
  induction es generalizing s with
  | nil => trivial
  | cons e es ih =>
      intro s' hstep
      obtain ⟨hadmitted, hrest⟩ := hguard s' hstep
      have hcondition : C s e := by
        by_contra hnot
        exact hbad s e s' hJ hadmitted hnot hstep (halways.2 s' hstep).head
      have hJ' := hgood s e s' hJ hadmitted hcondition hstep
      exact ⟨hcondition, ih hJ' hrest (halways.2 s' hstep)⟩

/-- A doomed state stays doomed until the property fails, and fails it at the
latest in a final state: a run to a final state does not satisfy the property
throughout. -/
theorem not_always_of_doomed {step : σ → ε → Option σ}
    {guard : σ → ε → Prop} {D P F : σ → Prop}
    (hdoomed : ∀ s e s', D s → guard s e → step s e = some s' →
      D s' ∨ ¬ P s')
    (hfinal : ∀ s, D s → F s → ¬ P s) {s s' : σ} {es : List ε} (hD : D s)
    (hguard : EachStep step guard s es) (hrun : run step s es = some s')
    (hF : F s') : ¬ Always step P s es := by
  induction es generalizing s with
  | nil =>
      obtain rfl : s = s' := by simpa using hrun
      exact hfinal s hD hF
  | cons e es ih =>
      rw [run_cons, Option.bind_eq_some_iff] at hrun
      obtain ⟨middle, hstep, hrest⟩ := hrun
      obtain ⟨hadmitted, hguard'⟩ := hguard middle hstep
      intro halways
      rcases hdoomed s e middle hD hadmitted hstep with hD' | hlost
      · exact ih hD' hguard' hrest (halways.2 middle hstep)
      · exact hlost (halways.2 middle hstep).head

/-- The necessary half for a property that a step outside the condition may
break late: such a step leaves a state that is doomed.  Then a run to a final
state satisfies the property throughout only if all its steps satisfy the
condition. -/
theorem eachStep_of_always {step : σ → ε → Option σ}
    {guard C : σ → ε → Prop} {J D P F : σ → Prop}
    (hkept : ∀ s e s', J s → guard s e → step s e = some s' → J s')
    (hbad : ∀ s e s', J s → guard s e → ¬ C s e → step s e = some s' →
      D s' ∨ ¬ P s')
    (hdoomed : ∀ s e s', D s → guard s e → step s e = some s' →
      D s' ∨ ¬ P s')
    (hfinal : ∀ s, D s → F s → ¬ P s) {s s' : σ} {es : List ε} (hJ : J s)
    (hguard : EachStep step guard s es) (hrun : run step s es = some s')
    (hF : F s') (halways : Always step P s es) : EachStep step C s es := by
  induction es generalizing s with
  | nil => trivial
  | cons e es ih =>
      intro middle hstep
      rw [run_cons, hstep, Option.bind_some] at hrun
      obtain ⟨hadmitted, hguard'⟩ := hguard middle hstep
      have hrest := halways.2 middle hstep
      refine ⟨?_, ih (hkept s e middle hJ hadmitted hstep) hguard' hrun hrest⟩
      by_contra hnot
      rcases hbad s e middle hJ hadmitted hnot hstep with hD | hlost
      · exact not_always_of_doomed hdoomed hfinal hD hguard' hrun hF hrest
      · exact hlost hrest.head

end TransitionSystem
end Foundation
end RpcLib
