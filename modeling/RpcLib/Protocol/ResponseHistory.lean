import RpcLib.MsgPack.Reference
import RpcLib.Protocol.Response

/-!
# Responses by how they were built

Here a response is the value of its fields; where the objects are stored is the
matter of `StoredResponse`.

A response comes from one of three constructors and is then changed by any
sequence of `capture_result` and `capture_error`.  Of each field only the
object that was given last is left (`build_error`, `build_result`), and no
capture looks at the other field.

* `codec_of_value`: what is decoded from the bytes is the response up to the
  two representations of a missing object, and has the same bytes.
* `errorWins_iff`: an error discards the result exactly when one of the two
  fields was last given nil, or nothing.
-/

namespace RpcLib
namespace Protocol

variable {Buf : Type} (mp : MsgPack Buf)

/-- The constructor that a response comes from, with its object. -/
inductive Origin where
  /-- `make_result` of a value. -/
  | result (object : Object)
  /-- `make_result` of a `unique_ptr<object_handle>`, which may be null. -/
  | resultHandle (handle : Option Object)
  /-- `make_error`. -/
  | error (object : Object)

/-- One call of a mutator. -/
inductive Capture where
  | result (object : Object)
  | error (object : Object)

namespace Response

/-- The response that a constructor returns. -/
def make (id : UInt32) : Origin → Response
  | .result object => makeResult id object
  | .resultHandle handle => makeResultHandle id handle
  | .error object => makeError id object

/-- One call of a mutator. -/
def capture (r : Response) : Capture → Response
  | .result object => r.captureResult object
  | .error object => r.captureError object

/-- A response and what was captured into it. -/
def build (id : UInt32) (origin : Origin) (captures : List Capture) :
    Response :=
  captures.foldl capture (make id origin)

end Response

/-- The object that a constructor puts into the result. -/
def Origin.given : Origin → Option Object
  | .result object => some object
  | .resultHandle handle => handle
  | .error _ => none

/-- The object that a constructor puts into the error. -/
def Origin.givenError : Origin → Option Object
  | .error object => some object
  | _ => none

def Capture.given : Capture → Option Object
  | .result object => some object
  | .error _ => none

def Capture.givenError : Capture → Option Object
  | .result _ => none
  | .error object => some object

/-- The objects given for the result, in order. -/
def resultsGiven (origin : Origin) (captures : List Capture) : List Object :=
  origin.given.toList ++ captures.filterMap Capture.given

/-- The objects given for the error, in order. -/
def errorsGiven (origin : Origin) (captures : List Capture) : List Object :=
  origin.givenError.toList ++ captures.filterMap Capture.givenError

namespace Response

/-- The last element of a list, or what was there before. -/
theorem getLast?_cons_or {α : Type} (x : α) (xs : List α) (y : Option α) :
    (x :: xs).getLast?.or y = xs.getLast?.or (some x) := by
  rw [List.getLast?_cons]
  cases xs.getLast? <;> rfl

/-- What a sequence of captures leaves in the two fields. -/
theorem foldl_capture (r : Response) (captures : List Capture) :
    (captures.foldl capture r).id = r.id ∧
      (captures.foldl capture r).error =
        (captures.filterMap Capture.givenError).getLast?.or r.error ∧
      (captures.foldl capture r).result =
        (captures.filterMap Capture.given).getLast?.or r.result := by
  induction captures generalizing r with
  | nil => simp
  | cons c captures ih =>
      obtain ⟨hid, herror, hresult⟩ := ih (r.capture c)
      rw [List.foldl_cons, hid, herror, hresult]
      cases c with
      | result object =>
          refine ⟨by simp [capture], by simp [capture, Capture.givenError], ?_⟩
          rw [List.filterMap_cons_some (show (Capture.result object).given =
            some object from rfl), getLast?_cons_or]
          simp [capture]
      | error object =>
          refine ⟨by simp [capture], ?_, by simp [capture, Capture.given]⟩
          rw [List.filterMap_cons_some (show (Capture.error object).givenError =
            some object from rfl), getLast?_cons_or]
          simp [capture]

theorem build_id (id : UInt32) (origin : Origin) (captures : List Capture) :
    (build id origin captures).id = id := by
  unfold build
  rw [(foldl_capture _ _).1]
  cases origin <;> simp [make]

/-- The error of a response is the object that was given last for it. -/
theorem build_error (id : UInt32) (origin : Origin) (captures : List Capture) :
    (build id origin captures).error =
      (errorsGiven origin captures).getLast? := by
  unfold build errorsGiven
  rw [(foldl_capture _ _).2.1, List.getLast?_append]
  cases origin <;> simp [make, Origin.givenError]

theorem build_result (id : UInt32) (origin : Origin)
    (captures : List Capture) :
    (build id origin captures).result =
      (resultsGiven origin captures).getLast? := by
  unfold build resultsGiven
  rw [(foldl_capture _ _).2.2, List.getLast?_append]
  cases origin with
  | result object => simp [make, Origin.given]
  | resultHandle handle => cases handle <;> simp [make, Origin.given]
  | error object => simp [make, Origin.given]

/-! ## The round trip -/

/-- The bytes do not tell a missing object from nil. -/
theorem data_congr {r r' : Response} (hid : r'.id = r.id)
    (herror : r'.error.getD .nil = r.error.getD .nil)
    (hresult : r'.result.getD .nil = r.result.getD .nil) :
    r'.data mp = r.data mp := by
  unfold data frame
  rw [hid, herror, hresult]

/-- A built response is decoded from its bytes with its id; its error is null
exactly when there was none or nil, and otherwise the same; its result is the
same, or nil if there was none.  The decoded response has the same bytes. -/
theorem codec_of_value (id : UInt32) (origin : Origin)
    (captures : List Capture) :
    ∃ decoded, (mp.unpack ((build id origin captures).data mp)).bind
        (ofHandle mp) = some decoded ∧
      decoded.id = id ∧
      (decoded.error = none ↔ (build id origin captures).error = none ∨
        (build id origin captures).error = some .nil) ∧
      (∀ error, decoded.error = some error →
        (build id origin captures).error = some error) ∧
      decoded.result =
        some ((build id origin captures).result.getD .nil) ∧
      decoded.data mp = (build id origin captures).data mp := by
  have hid := build_id id origin captures
  cases herror : (build id origin captures).error with
  | none =>
      refine ⟨_, ofHandle_data mp _, hid, by simp [herror], by simp [herror],
        rfl, data_congr mp rfl ?_ rfl⟩
      simp [herror]
  | some error =>
      by_cases hnil : error = .nil
      · refine ⟨_, ofHandle_data mp _, hid, by simp [herror, hnil],
          by simp [herror, hnil], rfl, data_congr mp rfl ?_ rfl⟩
        simp [herror, hnil]
      · have hsome : error.isNil = false :=
          (Object.isNil_eq_false_iff error).mpr hnil
        refine ⟨_, ofHandle_data mp _, hid, by simp [herror, hsome, hnil],
          by simp [herror, hsome], rfl, data_congr mp rfl ?_ rfl⟩
        simp [herror, hsome]

/-! ## An error and a result -/

/-- What the class documents: the bytes of a response with an error that is not
nil hold no result. -/
def ErrorWins (r : Response) : Prop :=
  ∀ error, r.error = some error → error ≠ .nil →
    ∃ version id, mp.unpack (r.data mp) =
      some (.array [version, id, error, .nil])

/-- Nothing was given last, or nil. -/
def Missing (given : List Object) : Prop :=
  given.getLast? = none ∨ given.getLast? = some .nil

/-- The error discards the result exactly when the object last given for the
error, or the one last given for the result, is missing or nil. -/
theorem errorWins_iff (id : UInt32) (origin : Origin)
    (captures : List Capture) :
    ErrorWins mp (build id origin captures) ↔
      Missing (errorsGiven origin captures) ∨
        Missing (resultsGiven origin captures) := by
  unfold ErrorWins Missing data frame
  rw [build_error, build_result, mp.unpack_pack]
  cases herror : (errorsGiven origin captures).getLast? with
  | none => simp
  | some error =>
      cases hresult : (resultsGiven origin captures).getLast? with
      | none => simp
      | some result =>
          by_cases hnil : error = .nil
          · simp [hnil]
          · simp [hnil]

/-- A frame that carries an error and a result. -/
theorem captured_error_keeps_result :
    ¬ ErrorWins .reference (build 1 (.result (.str "x"))
        [.error (.str "e")]) ∧
      MsgPack.reference.unpack ((build 1 (.result (.str "x"))
        [.error (.str "e")]).data .reference) =
          some (.array [.ofUInt32 1, .ofUInt32 1, .str "e", .str "x"]) := by
  refine ⟨fun h => ?_, rfl⟩
  obtain ⟨version, id, hframe⟩ := h (.str "e") rfl (by simp)
  have hfields := Object.array.inj (Option.some.inj hframe)
  have hresult : Object.str "x" = .nil :=
    (List.cons.inj (List.cons.inj (List.cons.inj (List.cons.inj
      hfields).2).2).2).1
  cases hresult

end Response
end Protocol
end RpcLib
