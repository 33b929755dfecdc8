import RpcLib.MsgPack.Object

/-!
# `Response`: what a server sends back

`detail::Response` with its constructors, mutators and `data`.  A
`shared_ptr<object_handle>` is an optional object: null is `none`, and a handle
that holds nil is `some .nil`.  The two are different states of a `Response`
and the same bytes in its frame.

An `Object` is a value and needs no storage.  What a response holds here is what
its fields read as long as the zones that the objects point into are alive;
`StoredResponse` says which zones these are.
-/

namespace RpcLib
namespace Protocol

/-- `detail::Response`. -/
structure Response where
  id : UInt32
  error : Option Object
  result : Option Object
  empty : Bool

namespace Response

variable {Buf : Type} (mp : MsgPack Buf)

/-- The private default constructor. -/
def init : Response := ⟨0, none, none, false⟩

/-- `Response::Response(object_handle&&)`; `none` when `convert` throws. -/
def ofHandle (obj : Object) : Option Response :=
  (mp.responseTuple obj).map fun (_, id, error, result) =>
    { init with
      id := id
      error := if error.isNil then none else some error
      result := some result }

/-- `Response::make_result` of a packed value. -/
def makeResult (id : UInt32) (result : Object) : Response :=
  { init with id := id, result := some result }

/-- `Response::make_result` of a `unique_ptr<object_handle>`. -/
def makeResultHandle (id : UInt32) (result : Option Object) : Response :=
  { init with id := id, result := result }

/-- `Response::make_error`. -/
def makeError (id : UInt32) (error : Object) : Response :=
  { init with id := id, error := some error }

/-- `Response::empty`, the response that is not sent. -/
def emptyResponse : Response := { init with empty := true }

/-- `Response::capture_result`. -/
def captureResult (r : Response) (result : Object) : Response :=
  { r with result := some result }

/-- `Response::capture_error`. -/
def captureError (r : Response) (error : Object) : Response :=
  { r with error := some error }

/-- The tuple `[1, id, error, result]` that `data` packs. -/
def frame (r : Response) : Object :=
  .array [.ofUInt32 1, .ofUInt32 r.id, r.error.getD .nil, r.result.getD .nil]

/-- `Response::data`. -/
def data (r : Response) : Buf := mp.pack r.frame

@[simp] theorem makeResult_fields (id : UInt32) (result : Object) :
    (makeResult id result).id = id ∧ (makeResult id result).error = none ∧
      (makeResult id result).result = some result ∧
      (makeResult id result).empty = false := by
  simp [makeResult, init]

@[simp] theorem makeResultHandle_fields (id : UInt32)
    (result : Option Object) :
    (makeResultHandle id result).id = id ∧
      (makeResultHandle id result).error = none ∧
      (makeResultHandle id result).result = result ∧
      (makeResultHandle id result).empty = false := by
  simp [makeResultHandle, init]

@[simp] theorem makeError_fields (id : UInt32) (error : Object) :
    (makeError id error).id = id ∧
      (makeError id error).error = some error ∧
      (makeError id error).result = none ∧
      (makeError id error).empty = false := by
  simp [makeError, init]

@[simp] theorem captureResult_fields (r : Response) (result : Object) :
    (r.captureResult result).id = r.id ∧
      (r.captureResult result).error = r.error ∧
      (r.captureResult result).result = some result ∧
      (r.captureResult result).empty = r.empty := by
  simp [captureResult]

@[simp] theorem captureError_fields (r : Response) (error : Object) :
    (r.captureError error).id = r.id ∧
      (r.captureError error).error = some error ∧
      (r.captureError error).result = r.result ∧
      (r.captureError error).empty = r.empty := by
  simp [captureError]

/-- Decoding a response frame: a nil error becomes a null error, and the
result is never null. -/
theorem ofHandle_array {version id : UInt32} (error result : Object) :
    ofHandle mp (.array [.ofUInt32 version, .ofUInt32 id, error, result]) =
      some { init with
        id := id
        error := if error.isNil then none else some error
        result := some result } := by
  simp [ofHandle]

/-- A well-formed response message. -/
structure Message where
  version : UInt32
  id : UInt32
  error : Object
  result : Object

/-- The array `[uint32, uint32, error, result]` of a response message. -/
def Message.toObject (m : Message) : Object :=
  .array [.ofUInt32 m.version, .ofUInt32 m.id, m.error, m.result]

/-- The response that is decoded from a response message. -/
def Message.decoded (m : Message) : Response :=
  { init with
    id := m.id
    error := if m.error.isNil then none else some m.error
    result := some m.result }

@[simp] theorem Message.ofHandle_toObject (m : Message) :
    ofHandle mp m.toObject = some m.decoded :=
  ofHandle_array mp _ _

@[simp] theorem Message.decoded_id (m : Message) : m.decoded.id = m.id := rfl

/-- What the peer decodes from `data` is the response's id, its error unless
that is absent or nil, and its result with nil for absent. -/
theorem ofHandle_data (r : Response) :
    (mp.unpack (r.data mp)).bind (ofHandle mp) =
      some { init with
        id := r.id
        error := if (r.error.getD .nil).isNil then none
          else some (r.error.getD .nil)
        result := some (r.result.getD .nil) } := by
  rw [data, mp.unpack_pack, Option.bind_some]
  exact ofHandle_array mp _ _

end Response
end Protocol
end RpcLib
