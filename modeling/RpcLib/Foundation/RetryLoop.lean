import Mathlib.Tactic.Common

/-!
# A retry loop with a stateful policy

Attempts are made one after the other.  An attempt that succeeds ends the loop;
after one that fails the policy is asked whether there is to be another, and
its state is carried on to the next question.  `retryLoop` is that loop over
the outcomes of its attempts, and `answersOf` the answers of the policy alone.

* `firstRound_of_retryLoop`: the three ways in which a loop begins.
* `retryLoop_concat`: one more outcome, after a loop that is still trying.
* `retryLoop_answers`: the policy is asked once for each failure.
-/

namespace RpcLib
namespace Foundation

universe u v

variable {ρ : Type u} {ε : Type v}

/-- Where the loop stands after some outcomes: an attempt is in progress, with
the policy in the state `policy`, an attempt has succeeded, or the policy has
declined after the failure `outcome`. -/
inductive Verdict (ρ : Type u) (ε : Type v) where
  | trying (policy : ρ)
  | succeeded
  | declined (outcome : ε)

/-- The loop over the outcomes of its attempts, with the answers of the policy.
There is no result when there are more outcomes than attempts. -/
def retryLoop (success : ε → Bool) (ask : ρ → Bool × ρ) (policy : ρ) :
    List ε → Option (Verdict ρ ε × List Bool)
  | [] => some (.trying policy, [])
  | outcome :: rest =>
      if success outcome then
        if rest.isEmpty then some (.succeeded, []) else none
      else
        match ask policy with
        | (true, policy') =>
            (retryLoop success ask policy' rest).map
              fun (verdict, answers) => (verdict, true :: answers)
        | (false, _) =>
            if rest.isEmpty then some (.declined outcome, [false]) else none

/-- The first `n` answers of a policy whose state is carried on. -/
def answersOf (ask : ρ → Bool × ρ) (policy : ρ) : Nat → List Bool
  | 0 => []
  | n + 1 => (ask policy).1 :: answersOf ask (ask policy).2 n

variable {success : ε → Bool} {ask : ρ → Bool × ρ}

theorem retryLoop_of_success (policy : ρ) {outcome : ε}
    (hsuccess : success outcome = true) :
    retryLoop success ask policy [outcome] = some (.succeeded, []) := by
  simp [retryLoop, hsuccess]

theorem retryLoop_of_failure (policy : ρ) {outcome : ε}
    (hfailure : success outcome = false) :
    retryLoop success ask policy [outcome] =
      if (ask policy).1 then some (.trying (ask policy).2, [true])
      else some (.declined outcome, [false]) := by
  unfold retryLoop
  rw [hfailure]
  rcases ask policy with ⟨_ | _, policy'⟩ <;> rfl

/-- How a loop with at least one outcome goes: a success or a refusal is its
last outcome, and otherwise it goes on with the next state of the policy. -/
inductive FirstRound (success : ε → Bool) (ask : ρ → Bool × ρ) (policy : ρ)
    (outcome : ε) (rest : List ε) : Verdict ρ ε → List Bool → Prop
  | succeeded (hsuccess : success outcome = true) (hlast : rest = []) :
      FirstRound success ask policy outcome rest .succeeded []
  | declined (hfailure : success outcome = false)
      (hask : (ask policy).1 = false) (hlast : rest = []) :
      FirstRound success ask policy outcome rest (.declined outcome) [false]
  | again {verdict : Verdict ρ ε} {answers : List Bool}
      (hfailure : success outcome = false) (hask : (ask policy).1 = true)
      (hrest : retryLoop success ask (ask policy).2 rest =
        some (verdict, answers)) :
      FirstRound success ask policy outcome rest verdict (true :: answers)

theorem firstRound_of_retryLoop {policy : ρ} {outcome : ε} {rest : List ε}
    {verdict : Verdict ρ ε} {answers : List Bool}
    (hloop : retryLoop success ask policy (outcome :: rest) =
      some (verdict, answers)) :
    FirstRound success ask policy outcome rest verdict answers := by
  unfold retryLoop at hloop
  split at hloop
  · rename_i hsuccess
    split at hloop
    · rename_i hempty
      obtain ⟨rfl, rfl⟩ := Prod.mk.inj (Option.some.inj hloop)
      exact .succeeded hsuccess (List.isEmpty_iff.mp hempty)
    · cases hloop
  · rename_i hfailure
    have hfailure' := Bool.eq_false_iff.mpr hfailure
    rcases hask : ask policy with ⟨_ | _, next⟩
    · rw [hask] at hloop
      dsimp only at hloop
      split at hloop
      · rename_i hempty
        obtain ⟨rfl, rfl⟩ := Prod.mk.inj (Option.some.inj hloop)
        exact .declined hfailure' (by rw [hask]) (List.isEmpty_iff.mp hempty)
      · cases hloop
    · rw [hask] at hloop
      obtain ⟨⟨verdict', later⟩, hrest, heq⟩ :=
        Option.map_eq_some_iff.mp hloop
      obtain ⟨rfl, rfl⟩ := Prod.mk.inj heq
      exact .again hfailure' (by rw [hask]) (by rw [hask]; exact hrest)

/-- A failure after which the policy agrees. -/
theorem retryLoop_cons_of_again {policy : ρ} {outcome : ε}
    (hfailure : success outcome = false) (hask : (ask policy).1 = true)
    (rest : List ε) :
    retryLoop success ask policy (outcome :: rest) =
      (retryLoop success ask (ask policy).2 rest).map
        fun (verdict, answers) => (verdict, true :: answers) := by
  obtain ⟨next, hnext⟩ : ∃ next, ask policy = (true, next) :=
    ⟨_, Prod.ext hask rfl⟩
  rw [retryLoop, hfailure, hnext]
  rfl

/-- A loop that is still trying goes on as a loop from the state that its
policy has reached. -/
theorem retryLoop_concat {policy policy' : ρ} {outcomes : List ε}
    {answers : List Bool}
    (htrying : retryLoop success ask policy outcomes =
      some (.trying policy', answers)) (outcome : ε) :
    retryLoop success ask policy (outcomes ++ [outcome]) =
      (retryLoop success ask policy' [outcome]).map
        fun (verdict, more) => (verdict, answers ++ more) := by
  induction outcomes generalizing policy answers with
  | nil =>
      obtain ⟨hpolicy, rfl⟩ := Prod.mk.inj (Option.some.inj htrying)
      obtain rfl := Verdict.trying.inj hpolicy
      simp
  | cons first outcomes ih =>
      -- a loop that is still trying has gone on after its first outcome
      cases firstRound_of_retryLoop htrying with
      | again hfailure hask hrest =>
          rw [List.cons_append, retryLoop_cons_of_again hfailure hask,
            ih hrest, Option.map_map]
          rfl

/-- The policy is asked once for each failure, from the state that the
question before has left. -/
theorem retryLoop_answers {policy : ρ} {outcomes : List ε}
    {verdict : Verdict ρ ε} {answers : List Bool}
    (hloop : retryLoop success ask policy outcomes =
      some (verdict, answers)) :
    answers = answersOf ask policy
      (outcomes.countP fun outcome => !success outcome) := by
  induction outcomes generalizing policy verdict answers with
  | nil =>
      obtain ⟨-, rfl⟩ := Prod.mk.inj (Option.some.inj hloop)
      rfl
  | cons outcome outcomes ih =>
      cases firstRound_of_retryLoop hloop with
      | succeeded hsuccess hlast => simp [hlast, hsuccess, answersOf]
      | declined hfailure hask hlast => simp [hlast, hfailure, hask, answersOf]
      | again hfailure hask hrest =>
          rw [List.countP_cons_of_pos (by simp [hfailure]), answersOf, hask,
            ← ih hrest]

end Foundation
end RpcLib
