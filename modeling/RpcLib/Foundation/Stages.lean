import Mathlib.Algebra.BigOperators.Finprod
import Mathlib.Algebra.Order.BigOperators.Group.Finset

/-!
# Work that passes through stages

A step uses up work of one stage and may make any amount of work for the
stages behind it.  However much that is, such a system comes to an end.

* `Descends`: less work at some stage, and at the stages before it no more.
* `descends_wellFounded`, `no_infinite_run`: there is no infinite descent.
* `rests_of_descends`: a run that may pause in between rests at last.
* `total_le_of_update`, `total_lt_of_update`: the work of a stage that is
  spread over many places, of which a step touches one.
-/

namespace RpcLib
namespace Foundation

universe u v

section Stages

variable {σ : Type u}

/-- There is less work at one of the stages, and no more at those before it. -/
def Descends : List (σ → ℕ) → σ → σ → Prop
  | [], _, _ => False
  | work :: later, s, s' =>
      work s' < work s ∨ work s' ≤ work s ∧ Descends later s s'

namespace Descends

variable {work : σ → ℕ} {later : List (σ → ℕ)} {s s' : σ}

theorem here (hless : work s' < work s) : Descends (work :: later) s s' :=
  Or.inl hless

theorem behind (hnomore : work s' ≤ work s) (hlater : Descends later s s') :
    Descends (work :: later) s s' :=
  Or.inr ⟨hnomore, hlater⟩

/-- Stages at which there is no more work. -/
theorem behind_all {stages : List (σ → ℕ)}
    (hnomore : ∀ work ∈ stages, work s' ≤ work s)
    (hlater : Descends later s s') : Descends (stages ++ later) s s' := by
  induction stages with
  | nil => exact hlater
  | cons work stages ih =>
      exact .behind (hnomore work List.mem_cons_self)
        (ih fun work' hwork => hnomore work' (List.mem_cons_of_mem _ hwork))

/-- The stages behind these do not matter. -/
theorem left {stages : List (σ → ℕ)} (h : Descends stages s s') :
    Descends (stages ++ later) s s' := by
  induction stages with
  | nil => exact h.elim
  | cons work stages ih =>
      rcases h with hless | ⟨hnomore, hlater⟩
      · exact .here hless
      · exact .behind hnomore (ih hlater)

/-- The descent of a part. -/
theorem of_part {τ : Type v} (part : σ → τ) {stages : List (τ → ℕ)}
    (h : Descends stages (part s) (part s')) :
    Descends (stages.map fun work s => work (part s)) s s' := by
  induction stages with
  | nil => exact h.elim
  | cons work stages ih =>
      rcases h with hless | ⟨hnomore, hlater⟩
      · exact .here hless
      · exact .behind hnomore (ih hlater)

end Descends

/-- There is no infinite descent, by induction on the stages: at the first one
the work can get less only so often, and in between the others descend. -/
theorem descends_wellFounded (stages : List (σ → ℕ)) :
    WellFounded fun s' s => Descends stages s s' := by
  induction stages with
  | nil => exact ⟨fun s => ⟨s, fun _ hnone => hnone.elim⟩⟩
  | cons work later ih =>
      refine ⟨fun s => ?_⟩
      induction hn : work s using Nat.strong_induction_on generalizing s with
      | _ n ihn =>
          induction s using ih.induction with
          | _ s ihs =>
              refine ⟨s, fun s' hdescends => ?_⟩
              rcases hdescends with hless | ⟨hnomore, hlater⟩
              · exact ihn (work s') (hn ▸ hless) s' rfl
              · rcases Nat.lt_or_eq_of_le hnomore with hless | hsame
                · exact ihn (work s') (hn ▸ hless) s' rfl
                · exact ihs s' hlater (hsame.trans hn)

/-- Nothing descends to itself. -/
theorem Descends.irrefl {stages : List (σ → ℕ)} (s : σ) :
    ¬ Descends stages s s := fun hself =>
  (descends_wellFounded stages).asymmetric s s hself hself

/-- A run that descends or pauses rests at last. -/
theorem rests_of_descends {stages : List (σ → ℕ)} (run : ℕ → σ)
    (hstep : ∀ n, run (n + 1) = run n ∨
      Descends stages (run n) (run (n + 1))) :
    ∃ n, ∀ m ≥ n, run m = run n := by
  obtain ⟨s, ⟨n, rfl⟩, hlast⟩ :=
    (descends_wellFounded stages).has_min (Set.range run) ⟨run 0, 0, rfl⟩
  refine ⟨n, fun m hm => ?_⟩
  induction m, hm using Nat.le_induction with
  | base => rfl
  | succ m hm ih =>
      rcases hstep m with hsame | hdescends
      · exact hsame.trans ih
      · rw [ih] at hdescends
        exact absurd hdescends (hlast (run (m + 1)) ⟨m + 1, rfl⟩)

/-- A system that descends with every step does not run forever. -/
theorem no_infinite_run {I : σ → Prop} {R : σ → σ → Prop}
    {stages : List (σ → ℕ)} (hkept : ∀ s s', I s → R s s' → I s')
    (hdescends : ∀ s s', I s → R s s' → Descends stages s s') {run : ℕ → σ}
    (hfirst : I (run 0)) : ¬ ∀ n, R (run n) (run (n + 1)) := by
  intro hforever
  have hinvariant : ∀ n, I (run n) := by
    intro n
    induction n with
    | zero => exact hfirst
    | succ n ih => exact hkept _ _ ih (hforever n)
  obtain ⟨s, ⟨n, rfl⟩, hlast⟩ :=
    (descends_wellFounded stages).has_min (Set.range run) ⟨run 0, 0, rfl⟩
  exact hlast (run (n + 1)) ⟨n + 1, rfl⟩
    (hdescends _ _ (hinvariant n) (hforever n))

end Stages

/-! ## Work in many places -/

section Total

variable {α : Type u}

/-- The work of all places. -/
noncomputable def total (work : α → ℕ) : ℕ := ∑ᶠ a, work a

/-- Only finitely many places have any. -/
def Bounded (work : α → ℕ) : Prop := (Function.support work).Finite

theorem Bounded.of_finite [Finite α] (work : α → ℕ) : Bounded work :=
  Set.toFinite _

/-- No place beyond the end of a list has any. -/
theorem Bounded.of_length {work : ℕ → ℕ} {n : ℕ}
    (hbeyond : ∀ k, n ≤ k → work k = 0) : Bounded work := by
  refine (Set.finite_lt_nat n).subset fun k hk => ?_
  by_contra hnot
  exact hk (hbeyond k (Nat.le_of_not_lt hnot))

theorem total_eq_sum {work : α → ℕ} {places : Finset α}
    (hplaces : ∀ a, work a ≠ 0 → a ∈ places) :
    total work = ∑ a ∈ places, work a :=
  finsum_eq_sum_of_support_subset work hplaces

theorem total_le {work work' : α → ℕ} (hbounded : Bounded work)
    (hle : ∀ a, work' a ≤ work a) : total work' ≤ total work := by
  have hplaces : ∀ a, work a ≠ 0 → a ∈ hbounded.toFinset := fun a ha =>
    hbounded.mem_toFinset.mpr ha
  have hplaces' : ∀ a, work' a ≠ 0 → a ∈ hbounded.toFinset := fun a ha =>
    hplaces a fun hnone => ha (Nat.le_zero.mp (hnone ▸ hle a))
  rw [total_eq_sum hplaces, total_eq_sum hplaces']
  exact Finset.sum_le_sum fun a _ => hle a

theorem total_lt {work work' : α → ℕ} (hbounded : Bounded work)
    (hle : ∀ a, work' a ≤ work a) {a : α} (hless : work' a < work a) :
    total work' < total work := by
  have hplaces : ∀ b, work b ≠ 0 → b ∈ hbounded.toFinset := fun b hb =>
    hbounded.mem_toFinset.mpr hb
  have hplaces' : ∀ b, work' b ≠ 0 → b ∈ hbounded.toFinset := fun b hb =>
    hplaces b fun hnone => hb (Nat.le_zero.mp (hnone ▸ hle b))
  rw [total_eq_sum hplaces, total_eq_sum hplaces']
  exact Finset.sum_lt_sum (fun b _ => hle b)
    ⟨a, hplaces a (Nat.ne_of_gt (Nat.lt_of_le_of_lt (Nat.zero_le _) hless)),
      hless⟩

variable {τ : Type v} {f f' : α → τ} {work : τ → ℕ} {a : α}

/-- A step that touches one place, and makes no work there. -/
theorem total_le_of_update (hbounded : Bounded fun b => work (f b))
    (hother : ∀ b, b ≠ a → f' b = f b) (hle : work (f' a) ≤ work (f a)) :
    total (fun b => work (f' b)) ≤ total fun b => work (f b) := by
  refine total_le hbounded fun b => ?_
  by_cases hb : b = a
  · rw [hb]
    exact hle
  · rw [hother b hb]

/-- A step that uses up work of one place and touches no other. -/
theorem total_lt_of_update (hbounded : Bounded fun b => work (f b))
    (hother : ∀ b, b ≠ a → f' b = f b) (hless : work (f' a) < work (f a)) :
    total (fun b => work (f' b)) < total fun b => work (f b) := by
  refine total_lt hbounded (fun b => ?_) hless
  by_cases hb : b = a
  · rw [hb]
    exact Nat.le_of_lt hless
  · rw [hother b hb]

/-- The descent of one place out of finitely many. -/
theorem Descends.total [Finite α] {stages : List (τ → ℕ)}
    (h : Descends stages (f a) (f' a)) (hother : ∀ b, b ≠ a → f' b = f b) :
    Descends (stages.map fun work g => Foundation.total fun b => work (g b))
      f f' := by
  induction stages with
  | nil => exact h.elim
  | cons work stages ih =>
      rcases h with hless | ⟨hnomore, hlater⟩
      · exact .here (total_lt_of_update (.of_finite _) hother hless)
      · exact .behind (total_le_of_update (.of_finite _) hother hnomore)
          (ih hlater)

/-- There stays work in finitely many places. -/
theorem Bounded.update (hbounded : Bounded fun b => work (f b))
    (hother : ∀ b, b ≠ a → f' b = f b) : Bounded fun b => work (f' b) := by
  refine (Set.Finite.insert a hbounded).subset fun b hb => ?_
  by_cases hba : b = a
  · exact Or.inl hba
  · refine Or.inr ?_
    have hsame := hother b hba
    exact fun hnone => hb ((congrArg work hsame).trans hnone)

end Total

end Foundation
end RpcLib
