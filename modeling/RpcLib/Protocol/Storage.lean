import RpcLib.MsgPack.Reference
import RpcLib.Protocol.ResponseHistory

/-!
# Where a response keeps its objects

`msgpack::object` is a small value that points into a `msgpack::zone`, and
`object_handle` owns one object and one zone.  The constructors of
`detail::Response` give its handles a zone of their own.  `capture_result` and
`capture_error` use `object_handle::set`, which copies the object and not the
zone, so what they put into a response still points into the zone of the handle
that was captured.

* `StoredResponse.build_value`: apart from the zones, a stored response is the
  `Response` that the same calls build.
* `roundTrips_iff`: the codec round trip holds exactly when the zones that the
  two fields point into are alive when `data` runs.
-/

namespace RpcLib

/-- The object holds its value itself and points into no zone. -/
def Object.isScalar : Object → Bool
  | .nil | .boolean _ | .positiveInteger _ | .negativeInteger _ => true
  | .float32 _ | .float64 _ => true
  | .str _ | .bin _ | .array _ | .map _ | .ext _ _ => false

namespace Protocol

variable {Buf : Type} (mp : MsgPack Buf)

/-- The zones that have been made, by number. -/
abbrev ZoneId := Nat

/-- A `msgpack::object` and the zone that it points into, if it does.  A scalar
never does. -/
structure StoredObject where
  value : Object
  zone : Option ZoneId
  scalar : value.isScalar = true → zone = none

namespace StoredObject

/-- An object whose zone lives as long as whoever holds the object. -/
def own (value : Object) : StoredObject := ⟨value, none, fun _ => rfl⟩

/-- An object that `detail::pack` builds in a zone.  What is not a scalar is taken
to point into it, also where it is empty. -/
def inZone (value : Object) (z : ZoneId) : StoredObject :=
  ⟨value, if value.isScalar then none else some z,
    fun hscalar => if_pos hscalar⟩

/-- The zone of the object, if it has one, is not destroyed. -/
def Alive (destroyed : List ZoneId) (o : StoredObject) : Prop :=
  ∀ z, o.zone = some z → z ∉ destroyed

/-- Read an object; an error when its zone is destroyed. -/
def read (destroyed : List ZoneId) (o : StoredObject) : Option Object :=
  match o.zone with
  | none => some o.value
  | some z => if z ∈ destroyed then none else some o.value

theorem read_of_alive {destroyed : List ZoneId} {o : StoredObject}
    (halive : o.Alive destroyed) : o.read destroyed = some o.value := by
  unfold read
  cases hzone : o.zone with
  | none => rfl
  | some z => exact if_neg (halive z hzone)

theorem read_of_not_alive {destroyed : List ZoneId} {o : StoredObject}
    (hdead : ¬ o.Alive destroyed) : o.read destroyed = none := by
  unfold Alive at hdead
  push Not at hdead
  obtain ⟨z, hzone, hgone⟩ := hdead
  unfold read
  rw [hzone]
  exact if_pos hgone

theorem alive_own (destroyed : List ZoneId) (value : Object) :
    (own value).Alive destroyed := by
  intro z hzone
  cases hzone

end StoredObject

/-- `msgpack::object_handle`: an object, and the zone that the handle owns. -/
structure ObjectHandle where
  object : StoredObject
  zone : Option ZoneId

/-- `object_handle::object_handle()`. -/
def ObjectHandle.null : ObjectHandle := ⟨.own .nil, none⟩

/-- `object_handle::set`, which keeps the zone. -/
def ObjectHandle.set (h : ObjectHandle) (o : StoredObject) : ObjectHandle :=
  { h with object := o }

/-- The handle that `detail::pack(v)` returns. -/
def ObjectHandle.pack (value : Object) (z : ZoneId) : ObjectHandle :=
  ⟨.inZone value z, some z⟩

/-- The handle that a constructor of `Response` makes.  Its zone is its own and
is destroyed with the response, so it has no number here. -/
def ObjectHandle.ofResponse (value : Object) : ObjectHandle :=
  ⟨.own value, none⟩

/-- `detail::Response` with its two handles.  A null `shared_ptr` is `none`. -/
structure StoredResponse where
  id : UInt32
  error : Option ObjectHandle
  result : Option ObjectHandle
  empty : Bool

/-- One call of a mutator, with the handle that it captures. -/
inductive HandleCapture where
  | result (handle : ObjectHandle)
  | error (handle : ObjectHandle)

namespace HandleCapture

/-- The capture without the storage of its object. -/
def value : HandleCapture → Capture
  | .result handle => .result handle.object.value
  | .error handle => .error handle.object.value

/-- The object that is captured into the result. -/
def given : HandleCapture → Option StoredObject
  | .result handle => some handle.object
  | .error _ => none

/-- The object that is captured into the error. -/
def givenError : HandleCapture → Option StoredObject
  | .result _ => none
  | .error handle => some handle.object

end HandleCapture

namespace StoredResponse

/-- `Response::Response(object_handle&&)`; `none` when `convert` throws.  The
error is a clone, and the result takes over the zone of the handle. -/
def ofHandle (obj : Object) : Option StoredResponse :=
  (mp.responseTuple obj).map fun (_, id, error, result) =>
    ⟨id, if error.isNil then none else some (.ofResponse error),
      some (.ofResponse result), false⟩

/-- The response that a constructor returns. -/
def make (id : UInt32) : Origin → StoredResponse
  | .result object => ⟨id, none, some (.ofResponse object), false⟩
  | .resultHandle handle => ⟨id, none, handle.map .ofResponse, false⟩
  | .error object => ⟨id, some (.ofResponse object), none, false⟩

/-- `Response::capture_result`. -/
def captureResult (r : StoredResponse) (result : ObjectHandle) :
    StoredResponse :=
  { r with result := some ((r.result.getD .null).set result.object) }

/-- `Response::capture_error`. -/
def captureError (r : StoredResponse) (error : ObjectHandle) :
    StoredResponse :=
  { r with error := some ((r.error.getD .null).set error.object) }

/-- One call of a mutator. -/
def capture (r : StoredResponse) : HandleCapture → StoredResponse
  | .result handle => r.captureResult handle
  | .error handle => r.captureError handle

/-- A response and what was captured into it. -/
def build (id : UInt32) (origin : Origin) (captures : List HandleCapture) :
    StoredResponse :=
  captures.foldl capture (make id origin)

/-- A null handle packs as nil. -/
def readField (destroyed : List ZoneId) : Option ObjectHandle → Option Object
  | none => some .nil
  | some handle => handle.object.read destroyed

/-- `Response::data`, after the given zones have been destroyed; an error when
it reads an object whose zone is one of them. -/
def data (destroyed : List ZoneId) (r : StoredResponse) : Option Buf :=
  (readField destroyed r.error).bind fun error =>
    (readField destroyed r.result).map fun result =>
      mp.pack (.array [.ofUInt32 1, .ofUInt32 r.id, error, result])

/-- The response without the storage of its objects. -/
def value (r : StoredResponse) : Response :=
  ⟨r.id, r.error.map fun handle => handle.object.value,
    r.result.map fun handle => handle.object.value, r.empty⟩

/-- The zones that the two fields point into are not destroyed. -/
def Alive (destroyed : List ZoneId) (r : StoredResponse) : Prop :=
  (∀ handle, r.error = some handle → handle.object.Alive destroyed) ∧
    ∀ handle, r.result = some handle → handle.object.Alive destroyed

/-! ## What the calls leave in the two fields -/

theorem capture_value (r : StoredResponse) (c : HandleCapture) :
    (r.capture c).value = r.value.capture c.value := by
  cases c with
  | result handle => rfl
  | error handle => rfl

/-- Apart from the zones, the calls build the response that `Response` says. -/
theorem build_value (id : UInt32) (origin : Origin)
    (captures : List HandleCapture) :
    (build id origin captures).value =
      Response.build id origin (captures.map HandleCapture.value) := by
  have hfoldl : ∀ (captures : List HandleCapture) (r : StoredResponse),
      (captures.foldl capture r).value =
        (captures.map HandleCapture.value).foldl Response.capture
          r.value := by
    intro captures
    induction captures with
    | nil => exact fun r => rfl
    | cons c captures ih =>
        intro r
        rw [List.foldl_cons, ih, capture_value]
        rfl
  have hmake : (make id origin).value = Response.make id origin := by
    cases origin with
    | resultHandle handle => cases handle <;> rfl
    | _ => rfl
  unfold build Response.build
  rw [hfoldl, hmake]

/-- Which objects a sequence of captures leaves in the two fields. -/
theorem foldl_capture (r : StoredResponse) (captures : List HandleCapture) :
    (captures.foldl capture r).error.map ObjectHandle.object =
        (captures.filterMap HandleCapture.givenError).getLast?.or
          (r.error.map ObjectHandle.object) ∧
      (captures.foldl capture r).result.map ObjectHandle.object =
        (captures.filterMap HandleCapture.given).getLast?.or
          (r.result.map ObjectHandle.object) := by
  induction captures generalizing r with
  | nil => simp
  | cons c captures ih =>
      obtain ⟨herror, hresult⟩ := ih (r.capture c)
      rw [List.foldl_cons, herror, hresult]
      cases c with
      | result handle =>
          refine ⟨by simp [capture, captureResult, HandleCapture.givenError],
            ?_⟩
          rw [List.filterMap_cons_some (show (HandleCapture.result handle).given
            = some handle.object from rfl), Response.getLast?_cons_or]
          rfl
      | error handle =>
          refine ⟨?_, by simp [capture, captureError, HandleCapture.given]⟩
          rw [List.filterMap_cons_some (show (HandleCapture.error
            handle).givenError = some handle.object from rfl),
            Response.getLast?_cons_or]
          rfl

/-- Of the objects captured for a field, the last one is not destroyed. -/
def LastAlive (destroyed : List ZoneId) (given : List StoredObject) : Prop :=
  ∀ o, given.getLast? = some o → o.Alive destroyed

/-- What a constructor stores has a zone of its own, so a field can only lose
its zone by a capture. -/
theorem alive_build (destroyed : List ZoneId) (id : UInt32) (origin : Origin)
    (captures : List HandleCapture) :
    (build id origin captures).Alive destroyed ↔
      LastAlive destroyed (captures.filterMap HandleCapture.givenError) ∧
        LastAlive destroyed (captures.filterMap HandleCapture.given) := by
  have hown : ∀ (field made : Option ObjectHandle)
      (given : List StoredObject),
      field.map ObjectHandle.object =
        given.getLast?.or (made.map ObjectHandle.object) →
      (∀ handle, made = some handle → handle.object.Alive destroyed) →
      ((∀ handle, field = some handle → handle.object.Alive destroyed) ↔
        LastAlive destroyed given) := by
    intro field made given hfield hmade
    unfold LastAlive
    cases hlast : given.getLast? with
    | none =>
        rw [hlast, Option.none_or] at hfield
        refine ⟨fun _ o ho => absurd ho (by simp),
          fun _ handle hhandle => ?_⟩
        rw [hhandle, Option.map_some] at hfield
        obtain ⟨own, hmake, hobject⟩ := Option.map_eq_some_iff.mp hfield.symm
        rw [← hobject]
        exact hmade own hmake
    | some o =>
        rw [hlast, Option.some_or] at hfield
        obtain ⟨handle, rfl, rfl⟩ := Option.map_eq_some_iff.mp hfield
        exact ⟨fun h o' ho' => Option.some.inj ho' ▸ h handle rfl,
          fun h handle' hhandle' => Option.some.inj hhandle' ▸ h _ rfl⟩
  obtain ⟨herror, hresult⟩ := foldl_capture (make id origin) captures
  refine and_congr (hown _ _ _ herror ?_) (hown _ _ _ hresult ?_)
  · intro handle hhandle
    cases origin with
    | error object =>
        cases hhandle
        exact StoredObject.alive_own destroyed object
    | _ => cases hhandle
  · intro handle hhandle
    cases origin with
    | result object =>
        cases hhandle
        exact StoredObject.alive_own destroyed object
    | resultHandle given =>
        obtain ⟨object, -, rfl⟩ := Option.map_eq_some_iff.mp hhandle
        exact StoredObject.alive_own destroyed object
    | error object => cases hhandle

/-! ## Reading and packing -/

theorem readField_of_alive {destroyed : List ZoneId}
    {field : Option ObjectHandle}
    (halive : ∀ handle, field = some handle →
      handle.object.Alive destroyed) :
    readField destroyed field =
      some ((field.map fun handle => handle.object.value).getD .nil) := by
  cases field with
  | none => rfl
  | some handle => exact StoredObject.read_of_alive (halive handle rfl)

/-- While the zones live, the bytes are those of the value. -/
theorem data_of_alive {destroyed : List ZoneId} {r : StoredResponse}
    (halive : r.Alive destroyed) :
    r.data mp destroyed = some (r.value.data mp) := by
  unfold data
  rw [readField_of_alive halive.1, readField_of_alive halive.2]
  rfl

/-- Once a zone is gone, `data` reads it. -/
theorem data_of_not_alive {destroyed : List ZoneId} {r : StoredResponse}
    (hdead : ¬ r.Alive destroyed) : r.data mp destroyed = none := by
  have hfield : ∀ field : Option ObjectHandle,
      (¬ ∀ handle, field = some handle → handle.object.Alive destroyed) →
      readField destroyed field = none := by
    intro field hfield
    push Not at hfield
    obtain ⟨handle, rfl, hgone⟩ := hfield
    exact StoredObject.read_of_not_alive hgone
  unfold data
  rcases not_and_or.mp hdead with herror | hresult
  · rw [hfield _ herror]
    rfl
  · rw [hfield _ hresult]
    cases readField destroyed r.error <;> rfl

/-- What is decoded keeps its objects in zones of its own. -/
theorem ofHandle_stored {obj : Object} {decoded : StoredResponse}
    (hdecoded : ofHandle mp obj = some decoded) (destroyed : List ZoneId) :
    decoded.Alive destroyed := by
  obtain ⟨⟨version, id, error, result⟩, -, rfl⟩ :=
    Option.map_eq_some_iff.mp hdecoded
  refine ⟨fun handle hhandle => ?_, fun handle hhandle => ?_⟩
  · dsimp only at hhandle
    split at hhandle
    · cases hhandle
    · cases hhandle
      exact StoredObject.alive_own destroyed error
  · cases hhandle
    exact StoredObject.alive_own destroyed result

theorem ofHandle_value (obj : Object) :
    (ofHandle mp obj).map value = Response.ofHandle mp obj := by
  unfold ofHandle Response.ofHandle
  cases mp.responseTuple obj with
  | none => rfl
  | some fields =>
      obtain ⟨version, id, error, result⟩ := fields
      cases hnil : error.isNil <;> simp [value, hnil, Response.init,
        ObjectHandle.ofResponse, StoredObject.own]

/-! ## The round trip -/

/-- `data` packs the response, what is decoded from the bytes is the response
up to the two representations of a missing object, and it has the same
bytes. -/
def RoundTrips (destroyed : List ZoneId) (r : StoredResponse) : Prop :=
  ∃ bytes decoded, r.data mp destroyed = some bytes ∧
    (mp.unpack bytes).bind (ofHandle mp) = some decoded ∧
    decoded.id = r.id ∧
    (decoded.error = none ↔ r.value.error = none ∨
      r.value.error = some .nil) ∧
    (∀ error, decoded.value.error = some error →
      r.value.error = some error) ∧
    decoded.value.result = some (r.value.result.getD .nil) ∧
    decoded.data mp destroyed = some bytes

/-- A built response makes the round trip exactly when the objects that were
captured last, one for the error and one for the result, are scalars or lie in
zones that are alive when `data` runs. -/
theorem roundTrips_iff (id : UInt32) (origin : Origin)
    (captures : List HandleCapture) (destroyed : List ZoneId) :
    RoundTrips mp destroyed (build id origin captures) ↔
      LastAlive destroyed (captures.filterMap HandleCapture.givenError) ∧
        LastAlive destroyed (captures.filterMap HandleCapture.given) := by
  rw [← alive_build destroyed id origin captures]
  constructor
  · rintro ⟨bytes, decoded, hdata, -⟩
    by_contra hdead
    rw [data_of_not_alive mp hdead] at hdata
    cases hdata
  · intro halive
    obtain ⟨decoded, hdecoded, hid, hnone, hsome, hresult, hagain⟩ :=
      Response.codec_of_value mp id origin
        (captures.map HandleCapture.value)
    rw [← build_value] at hdecoded hnone hsome hresult hagain
    obtain ⟨obj, hunpack, hobj⟩ := Option.bind_eq_some_iff.mp hdecoded
    rw [← ofHandle_value] at hobj
    obtain ⟨stored, hstored, rfl⟩ := Option.map_eq_some_iff.mp hobj
    refine ⟨_, stored, data_of_alive mp halive, ?_, ?_, ?_, hsome, hresult, ?_⟩
    · rw [hunpack]
      exact hstored
    · rw [show stored.id = stored.value.id from rfl, hid,
        show (build id origin captures).id =
          (build id origin captures).value.id from rfl, build_value,
        Response.build_id]
    · rw [← hnone]
      show stored.error = none ↔ stored.error.map _ = none
      rw [Option.map_eq_none_iff]
    · rw [data_of_alive mp (ofHandle_stored mp hstored destroyed), hagain]

/-- `capture_error(pack(text))` leaves the zone of the text with the temporary
handle. -/
def capturedTemporary : StoredResponse :=
  build 1 (.result (.str "x")) [.error (.pack (.str "text") 0)]

/-- After the temporary handle is gone, `data` reads its zone. -/
theorem captured_temporary_is_lost :
    ¬ RoundTrips .reference [0] capturedTemporary ∧
      capturedTemporary.data .reference [0] = none := by
  have hdata : capturedTemporary.data .reference [0] = none := rfl
  refine ⟨?_, hdata⟩
  rintro ⟨bytes, decoded, hbytes, -⟩
  rw [hdata] at hbytes
  cases hbytes

end StoredResponse
end Protocol
end RpcLib
