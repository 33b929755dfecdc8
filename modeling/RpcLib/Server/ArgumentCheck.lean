import Mathlib.Data.List.Forall2
import RpcLib.Server.DispatchSpec

/-!
# What an adaptor makes of its arguments

The four adaptors read `via.array.size` and compare it with the number of
parameters.  Only the two for functors with parameters convert the object
afterwards, and the conversion refuses whatever is not an array.  A functor
without parameters is called with any object whose union happens to read zero.

* `convertArgs_eq_ok_iff`: an array converts element by element, in order.
* `validatesArgs_iff`: the adaptor checks its arguments exactly when the
  functor has parameters, the object is an array, or its size does not read
  zero.
-/

namespace RpcLib
namespace Server

variable {ω V Buf : Type} (mp : MsgPack Buf)

/-- A traversal that may throw succeeds when every element does, in order. -/
theorem mapM_eq_ok_iff {α β : Type} (f : α → Except Exn β) (xs : List α)
    (ys : List β) :
    xs.mapM f = .ok ys ↔ List.Forall₂ (fun x y => f x = .ok y) xs ys := by
  induction xs generalizing ys with
  | nil => cases ys <;> simp [pure, Except.pure]
  | cons x xs ih =>
      rw [List.mapM_cons]
      cases hx : f x with
      | error e => cases ys <;> simp [bind, Except.bind, hx]
      | ok y =>
          cases hxs : xs.mapM f with
          | error e =>
              cases ys with
              | nil => simp [bind, Except.bind]
              | cons y' ys =>
                  have hnone : ¬ List.Forall₂ (fun x y => f x = .ok y) xs ys := by
                    rw [← ih, hxs]
                    simp
                  simp [bind, Except.bind, hnone]
          | ok zs =>
              cases ys with
              | nil => simp [bind, Except.bind, pure, Except.pure]
              | cons y' ys =>
                  have hall : List.Forall₂ (fun x y => f x = .ok y) xs ys ↔
                      zs = ys := by
                    rw [← ih, hxs]
                    simp
                  simp [bind, Except.bind, pure, Except.pure, hx, hall]

namespace Functor

/-- The elements of an array convert to the values `vals`: as many as there
are parameters, each by the conversion of its own parameter. -/
def Converts (f : Functor ω V) (elements : List Object) (vals : List V) :
    Prop :=
  elements.length = f.params.length ∧
    List.Forall₂ (fun (conversion : (Object → Except Exn V) × Object) v =>
      conversion.1 conversion.2 = .ok v) (f.params.zip elements) vals

/-- The arguments that a functor accepts: an array that converts. -/
def Accepts (f : Functor ω V) (args : Object) (vals : List V) : Prop :=
  ∃ elements, args = .array elements ∧ f.Converts elements vals

theorem convertArgs_eq_ok_iff {f : Functor ω V} {elements : List Object}
    (hlength : elements.length = f.params.length) (vals : List V) :
    f.convertArgs (.array elements) = .ok vals ↔ f.Converts elements vals := by
  unfold Converts convertArgs
  rw [mapM_eq_ok_iff]
  exact ⟨fun h => ⟨hlength, h⟩, fun h => h.2⟩

/-- What is not an array does not convert to a tuple. -/
theorem convertArgs_of_not_array (f : Functor ω V) {args : Object}
    (hnot : ∀ elements, args ≠ .array elements) :
    f.convertArgs args = .error .typeError := by
  cases args with
  | array elements => exact absurd rfl (hnot elements)
  | _ => rfl

theorem enforceArgCount_of_eq (name : String) (n : Nat) :
    enforceArgCount name n n = .ok () := by
  simp [enforceArgCount]

/-- A wrong count is a client error. -/
theorem readArgs_of_wrong_count {f : Functor ω V} {args : Object}
    (hcount : mp.arraySize args ≠ f.params.length) (name : String) :
    ∃ what, f.readArgs mp name args = .error (.clientError what) := by
  unfold readArgs enforceArgCount
  rw [if_pos hcount]
  exact ⟨_, rfl⟩

/-- With the right count a functor with parameters converts the object. -/
theorem readArgs_of_params {f : Functor ω V} {args : Object}
    (hcount : mp.arraySize args = f.params.length) (hparams : f.params ≠ [])
    (name : String) : f.readArgs mp name args = f.convertArgs args := by
  have hsome : f.params.isEmpty = false := by simpa using hparams
  unfold readArgs
  rw [hcount, enforceArgCount_of_eq, hsome]
  rfl

/-- A functor without parameters looks at the count and at nothing else. -/
theorem readArgs_of_no_params {f : Functor ω V} {args : Object}
    (hcount : mp.arraySize args = 0) (hparams : f.params = [])
    (name : String) : f.readArgs mp name args = .ok [] := by
  unfold readArgs
  rw [hparams, hcount]
  rfl

/-- With as many arguments as parameters, reading an array is converting
it. -/
theorem readArgs_array {f : Functor ω V} {elements : List Object}
    (hlength : elements.length = f.params.length) (name : String) :
    f.readArgs mp name (.array elements) = f.convertArgs (.array elements) := by
  have hcount : mp.arraySize (.array elements) = f.params.length := by
    rw [mp.arraySize_array, hlength]
  by_cases hparams : f.params = []
  · -- the adaptor converts nothing, and there is nothing to convert
    have hnil : elements = [] := by simpa [hparams] using hlength
    rw [readArgs_of_no_params mp (by simp [hnil]) hparams, hnil]
    unfold convertArgs
    rw [hparams]
    rfl
  · exact readArgs_of_params mp hcount hparams name

/-- With another number of arguments the adaptor throws a `ClientError`. -/
theorem readArgs_array_of_wrong_length {f : Functor ω V}
    {elements : List Object} (hlength : elements.length ≠ f.params.length)
    (name : String) :
    ∃ what, f.readArgs mp name (.array elements) =
      .error (.clientError what) := by
  apply readArgs_of_wrong_count
  rwa [mp.arraySize_array]

/-- On an array the adaptor reads exactly the values it converts to. -/
theorem readArgs_array_eq_ok_iff (f : Functor ω V) (name : String)
    (elements : List Object) (vals : List V) :
    f.readArgs mp name (.array elements) = .ok vals ↔
      f.Converts elements vals := by
  by_cases hlength : elements.length = f.params.length
  · rw [readArgs_array mp hlength]
    exact convertArgs_eq_ok_iff hlength vals
  · obtain ⟨what, hwhat⟩ := readArgs_array_of_wrong_length mp hlength name
    rw [hwhat]
    simp [Converts, hlength]

/-- What an adaptor reads is what its functor is called with. -/
theorem adaptor_of_readArgs {f : Functor ω V} {name : String} {args : Object}
    {vals : List V} (hargs : f.readArgs mp name args = .ok vals)
    (w : Worker ω V) :
    ((f.adaptor mp name args).exec w).2.invocations =
        w.invocations ++ [(name, vals)] ∧
      ((f.adaptor mp name args).exec w).2.app =
        (f.body w.app w.thisSession.id vals).1 := by
  have hstate : ((f.adaptor mp name args).exec w).2 =
      ((f.body w.app w.thisSession.id vals).2.perform
        { w with
          app := (f.body w.app w.thisSession.id vals).1
          invocations := w.invocations ++ [(name, vals)] }).2 := by
    -- packing the result does not touch the thread
    rw [adaptor_exec, hargs, ← exec_invoke]
    unfold invokeAndPack
    dsimp only
    rcases (f.invoke name vals).exec w with ⟨_ | _, w'⟩ <;> rfl
  obtain ⟨happ, hinvocations⟩ := perform_frame
    (f.body w.app w.thisSession.id vals).2
    { w with
      app := (f.body w.app w.thisSession.id vals).1
      invocations := w.invocations ++ [(name, vals)] }
  rw [hstate]
  exact ⟨hinvocations, happ⟩

/-- The adaptor checks its arguments: what the functor accepts is what it is
called with, once; anything else throws and calls nothing, as a client error
where an array has the wrong length. -/
structure ValidatesArgs (f : Functor ω V) (name : String) (args : Object)
    (w : Worker ω V) : Prop where
  invokes : ∀ vals, f.Accepts args vals →
    ((f.adaptor mp name args).exec w).2.invocations =
        w.invocations ++ [(name, vals)] ∧
      ((f.adaptor mp name args).exec w).2.app =
        (f.body w.app w.thisSession.id vals).1
  rejects : (∀ vals, ¬ f.Accepts args vals) →
    ∃ e, (f.adaptor mp name args).exec w = (.error e, w)
  wrongArity : ∀ elements, args = .array elements →
    elements.length ≠ f.params.length →
    ∃ what, (f.adaptor mp name args).exec w = (.error (.clientError what), w)

/-- An adaptor that throws while it reads its arguments calls nothing. -/
theorem adaptor_of_unread {f : Functor ω V} {name : String} {args : Object}
    {e : Exn} (hargs : f.readArgs mp name args = .error e) (w : Worker ω V) :
    (f.adaptor mp name args).exec w = (.error e, w) := by
  rw [adaptor_exec, hargs]

/-- On an array the check is complete, with and without parameters. -/
theorem validatesArgs_array (f : Functor ω V) (name : String)
    (elements : List Object) (w : Worker ω V) :
    ValidatesArgs mp f name (.array elements) w where
  invokes := by
    rintro vals ⟨elements', harray, hconverts⟩
    obtain rfl := Object.array.inj harray
    exact adaptor_of_readArgs mp
      ((readArgs_array_eq_ok_iff mp f name elements vals).mpr hconverts) w
  rejects := by
    intro hnone
    cases hargs : f.readArgs mp name (.array elements) with
    | error e => exact ⟨e, adaptor_of_unread mp hargs w⟩
    | ok vals =>
        have hconverts :=
          (readArgs_array_eq_ok_iff mp f name elements vals).mp hargs
        exact absurd ⟨elements, rfl, hconverts⟩ (hnone vals)
  wrongArity := by
    intro elements' harray hlength
    obtain rfl := Object.array.inj harray
    obtain ⟨what, hargs⟩ := readArgs_array_of_wrong_length mp hlength name
    exact ⟨what, adaptor_of_unread mp hargs w⟩

/-- An object that is no array is accepted by no functor, so the check is
complete where the adaptor throws. -/
theorem validatesArgs_of_error {f : Functor ω V} {name : String}
    {args : Object} (hnot : ∀ elements, args ≠ .array elements) {e : Exn}
    (hargs : f.readArgs mp name args = .error e) (w : Worker ω V) :
    ValidatesArgs mp f name args w where
  invokes := fun _ ⟨elements, harray, _⟩ => absurd harray (hnot elements)
  rejects := fun _ => ⟨e, adaptor_of_unread mp hargs w⟩
  wrongArity := fun elements harray => absurd harray (hnot elements)

/-- The adaptor of a functor checks its arguments exactly when the functor has
parameters, the object is an array, or its size does not read zero. -/
theorem validatesArgs_iff (f : Functor ω V) (name : String) (args : Object)
    (w : Worker ω V) :
    ValidatesArgs mp f name args w ↔
      f.params ≠ [] ∨ (∃ elements, args = .array elements) ∨
        mp.arraySize args ≠ 0 := by
  by_cases harray : ∃ elements, args = .array elements
  · obtain ⟨elements, rfl⟩ := harray
    simp [validatesArgs_array]
  have hnot : ∀ elements, args ≠ .array elements :=
    fun elements h => harray ⟨elements, h⟩
  by_cases hcount : mp.arraySize args = f.params.length
  · by_cases hparams : f.params = []
    · -- nothing but the count stands between the object and the functor
      have hzero : mp.arraySize args = 0 := by simpa [hparams] using hcount
      have hcalled := (adaptor_of_readArgs mp
        (readArgs_of_no_params mp hzero hparams name) w).1
      have hfails : ¬ ValidatesArgs mp f name args w := by
        intro h
        obtain ⟨e, hthrows⟩ :=
          h.rejects fun vals ⟨elements, heq, _⟩ => hnot elements heq
        rw [hthrows] at hcalled
        simp at hcalled
      simp [hfails, hparams, harray, hzero]
    · -- the conversion to a tuple refuses what the count has let pass
      have hargs := readArgs_of_params mp hcount hparams name
      rw [convertArgs_of_not_array f hnot] at hargs
      simp [validatesArgs_of_error mp hnot hargs w, hparams]
  · obtain ⟨what, hargs⟩ := readArgs_of_wrong_count mp hcount name
    refine iff_of_true (validatesArgs_of_error mp hnot hargs w) ?_
    by_cases hparams : f.params = []
    · exact Or.inr (Or.inr (by simpa [hparams] using hcount))
    · exact Or.inl hparams

/-- A functor without parameters that returns at once. -/
def trivialFunctor : Functor Unit Unit where
  params := []
  returnsVoid := true
  body := fun app _ _ => (app, ⟨[], .returned .nil⟩)

/-- An empty map is no array of arguments, and calls the functor. -/
theorem empty_map_calls_functor :
    ¬ ValidatesArgs .reference trivialFunctor "f" (.map [])
        ⟨(), ⟨.nil, .nil, true⟩, ⟨false, 0⟩, ⟨false⟩, []⟩ ∧
    ((trivialFunctor.adaptor .reference "f" (.map [])).exec
        ⟨(), ⟨.nil, .nil, true⟩, ⟨false, 0⟩, ⟨false⟩, []⟩).2.invocations =
      [("f", [])] := by
  have hcalled : ((trivialFunctor.adaptor .reference "f" (.map [])).exec
      ⟨(), ⟨.nil, .nil, true⟩, ⟨false, 0⟩, ⟨false⟩, []⟩).2.invocations =
    [("f", [])] := rfl
  refine ⟨?_, hcalled⟩
  intro h
  obtain ⟨e, hthrows⟩ := h.rejects <| by
    rintro vals ⟨elements, harray, -⟩
    cases harray
  rw [hthrows] at hcalled
  cases hcalled

end Functor
end Server
end RpcLib
