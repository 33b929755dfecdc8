import Mathlib.Logic.Function.Basic

/-!
# Stores of write-once cells

A store maps names to cells that are empty (`none`) or hold a value for ever.
`put` refuses a filled cell; `fill` leaves it alone.  Both only ever extend
the store, and `Extends` is the order in which every run of writes moves.
-/

namespace RpcLib
namespace Foundation
namespace WriteOnce

universe u v

variable {ι : Type u} {α : Type v} [DecidableEq ι]

/-- Every filled cell of `s` holds the same value in `s'`. -/
def Extends (s s' : ι → Option α) : Prop :=
  ∀ i a, s i = some a → s' i = some a

omit [DecidableEq ι] in
theorem Extends.refl (s : ι → Option α) : Extends s s := fun _ _ h => h

omit [DecidableEq ι] in
theorem Extends.trans {s s' s'' : ι → Option α} (h : Extends s s')
    (h' : Extends s' s'') : Extends s s'' :=
  fun i a hfilled => h' i a (h i a hfilled)

/-- Write an empty cell; `none` when it was written before. -/
def put (s : ι → Option α) (i : ι) (a : α) : Option (ι → Option α) :=
  match s i with
  | none => some (Function.update s i (some a))
  | some _ => none

/-- Write the cell if it is empty. -/
def fill (s : ι → Option α) (i : ι) (a : α) : ι → Option α :=
  match s i with
  | none => Function.update s i (some a)
  | some _ => s

theorem put_of_empty {s : ι → Option α} {i : ι} (hempty : s i = none)
    (a : α) : put s i a = some (Function.update s i (some a)) := by
  simp [put, hempty]

theorem put_of_filled {s : ι → Option α} {i : ι} {b : α}
    (hfilled : s i = some b) (a : α) : put s i a = none := by
  simp [put, hfilled]

theorem fill_of_empty {s : ι → Option α} {i : ι} (hempty : s i = none)
    (a : α) : fill s i a = Function.update s i (some a) := by
  simp [fill, hempty]

theorem fill_of_filled {s : ι → Option α} {i : ι} {b : α}
    (hfilled : s i = some b) (a : α) : fill s i a = s := by
  simp [fill, hfilled]

/-- Writing an empty cell extends the store. -/
theorem extends_update {s : ι → Option α} {i : ι} (hempty : s i = none)
    (a : α) : Extends s (Function.update s i (some a)) := by
  intro j b hfilled
  have hne : j ≠ i := by
    rintro rfl
    simp [hempty] at hfilled
  simpa [hne] using hfilled

theorem extends_fill (s : ι → Option α) (i : ι) (a : α) :
    Extends s (fill s i a) := by
  cases hcell : s i with
  | none => simpa [fill_of_empty hcell] using extends_update hcell a
  | some b => simpa [fill_of_filled hcell] using Extends.refl s

/-- Other cells are untouched. -/
theorem fill_of_ne (s : ι → Option α) {i j : ι} (hne : j ≠ i) (a : α) :
    fill s i a j = s j := by
  cases hcell : s i with
  | none => simp [fill_of_empty hcell, hne]
  | some b => simp [fill_of_filled hcell]

end WriteOnce
end Foundation
end RpcLib
