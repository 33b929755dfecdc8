import Mathlib.Order.Monotone.Basic
import RpcLib.Foundation.TransitionSystem

/-!
# What can always be done is done at last

An infinite run is weakly fair to one of its parts when this part takes a step
whenever it could take one from some point on.

* `WeaklyFair`: fairness to the part that takes the steps `own`.
* `reaches_zero_of_fair`: a rank that only the part lowers, and that it could
  lower whenever nothing changes any more, comes down to zero.
* `exists_infinite_run`: a run goes on for ever, where one label always can.
-/

namespace RpcLib
namespace Foundation

open TransitionSystem

universe u v

variable {σ : Type u} {ε : Type v}

/-- What is ready from some point on is done behind it. -/
def WeaklyFair (run : ℕ → σ) (label : ℕ → ε) (ready : σ → Prop)
    (own : ε → Prop) : Prop :=
  ∀ n, (∀ m ≥ n, ready (run m)) → ∃ m ≥ n, own (label m)

/-- A rank that never rises and that the steps of a part lower comes down to
zero, when the part is ready at last wherever the rank rests. -/
theorem reaches_zero_of_fair {run : ℕ → σ} {label : ℕ → ε} {ready : σ → Prop}
    {own : ε → Prop} (hfair : WeaklyFair run label ready own) {rank : σ → ℕ}
    (hnomore : ∀ n, rank (run (n + 1)) ≤ rank (run n))
    (hless : ∀ n, own (label n) → 0 < rank (run n) →
      rank (run (n + 1)) < rank (run n))
    (hready : ∀ n, 0 < rank (run n) →
      (∀ m ≥ n, rank (run m) = rank (run n)) → ∃ m ≥ n, ∀ l ≥ m, ready (run l))
    (n : ℕ) : ∃ m ≥ n, rank (run m) = 0 := by
  have hfalls : Antitone fun n => rank (run n) := antitone_nat_of_succ_le hnomore
  induction hrank : rank (run n) using Nat.strong_induction_on
    generalizing n with
  | _ r ih =>
      by_cases hzero : r = 0
      · exact ⟨n, le_refl n, hrank.trans hzero⟩
      by_cases hrests : ∀ m ≥ n, rank (run m) = rank (run n)
      · -- the part is ready, does something, and the rank falls after all
        exfalso
        have hpos : 0 < rank (run n) := by omega
        obtain ⟨m, hm, hlong⟩ := hready n hpos hrests
        obtain ⟨l, hl, hown⟩ := hfair m hlong
        have hbelow := hless l hown (by rw [hrests l (by omega)]; exact hpos)
        rw [hrests l (by omega), hrests (l + 1) (by omega)] at hbelow
        exact Nat.lt_irrefl _ hbelow
      · push Not at hrests
        obtain ⟨m, hm, hchanged⟩ := hrests
        have hle : rank (run m) ≤ rank (run n) := hfalls hm
        obtain ⟨l, hl, hdone⟩ := ih (rank (run m)) (by omega) m rfl
        exact ⟨l, le_trans hm hl, hdone⟩

/-- A run that comes to states in which one label is always enabled goes on for
ever with this label.  What holds of the steps of the run holds of the first
steps of the infinite one. -/
theorem exists_infinite_run {step : σ → ε → Option σ} {s s' : σ} {es : List ε}
    (hrun : TransitionSystem.run step s es = some s') (idle : ε) {I : σ → Prop}
    (hI : I s') (hidle : ∀ t, I t → ∃ t', step t idle = some t' ∧ I t')
    {C : σ → ε → Prop} (hC : EachStep step C s es) :
    ∃ (run : ℕ → σ) (label : ℕ → ε), run 0 = s ∧
      (∀ n, step (run n) (label n) = some (run (n + 1))) ∧
      (∀ n, label n ∈ idle :: es) ∧
      (∀ n < es.length, C (run n) (label n)) ∧
      ∀ n ≥ es.length, label n = idle ∧ I (run n) := by
  induction es generalizing s with
  | nil =>
      obtain rfl : s = s' := by simpa using hrun
      choose next hnext using fun t : {t // I t} => hidle t.1 t.2
      let states (n : ℕ) : {t // I t} :=
        n.rec ⟨s, hI⟩ fun _ t => ⟨next t, (hnext t).2⟩
      exact ⟨fun n => (states n).1, fun _ => idle, rfl,
        fun n => (hnext (states n)).1, fun _ => List.mem_cons_self,
        fun n hn => absurd hn (Nat.not_lt_zero n),
        fun n _ => ⟨rfl, (states n).2⟩⟩
  | cons e es ih =>
      rw [run_cons, Option.bind_eq_some_iff] at hrun
      obtain ⟨middle, hstep, hrest⟩ := hrun
      obtain ⟨hfirstStep, hotherSteps⟩ := hC middle hstep
      obtain ⟨run, label, hfirst, hsteps, hlabels, hcondition, hlast⟩ :=
        ih hrest hotherSteps
      refine ⟨fun n => n.casesOn s run, fun n => n.casesOn e label, rfl,
        fun n => ?_, fun n => ?_, fun n hn => ?_, fun n hn => ?_⟩
      · cases n with
        | zero => exact hstep.trans (congrArg some hfirst.symm)
        | succ n => exact hsteps n
      · cases n with
        | zero => exact List.mem_cons_of_mem _ List.mem_cons_self
        | succ n =>
            rcases List.mem_cons.mp (hlabels n) with hidle | hes
            · exact List.mem_cons.mpr (Or.inl hidle)
            · exact List.mem_cons_of_mem _ (List.mem_cons_of_mem _ hes)
      · cases n with
        | zero => exact hfirstStep
        | succ n => exact hcondition n (Nat.lt_of_succ_lt_succ hn)
      · cases n with
        | zero => exact absurd hn (Nat.not_succ_le_zero _)
        | succ n => exact hlast n (Nat.le_of_succ_le_succ hn)

end Foundation
end RpcLib
