import Mathlib.Tactic.Common

/-!
# MessagePack objects and what the code relies on of msgpack

`Object` is `msgpack::object`, one constructor for each object type.  A
`std::string` is modelled by a `String` with one character for each byte.

The library itself is not part of the repository, so its functions are the
fields of a structure, `MsgPack`, whose laws state the documented behaviour the
code relies on.  `Buf` is the type of `sbuffer` contents.  An integer, string
or tuple conversion that throws `type_error`, and an `unpack` that throws, are
`none`.
-/

namespace RpcLib

/-- `msgpack::object`.  A float is kept as the 64 bits of `via.f64`. -/
inductive Object where
  | nil
  | boolean (value : Bool)
  | positiveInteger (u64 : UInt64)
  | negativeInteger (i64 : Int64)
  | float32 (f64 : UInt64)
  | float64 (f64 : UInt64)
  | str (value : String)
  | bin (data : List UInt8)
  | array (elements : List Object)
  | map (pairs : List (Object × Object))
  | ext (type : Int8) (data : List UInt8)

namespace Object

/-- `object::is_nil`. -/
def isNil : Object → Bool
  | nil => true
  | _ => false

@[simp] theorem isNil_nil : nil.isNil = true := rfl

@[simp] theorem isNil_str (s : String) : (str s).isNil = false := rfl

theorem isNil_eq_false_iff (o : Object) : o.isNil = false ↔ o ≠ nil := by
  cases o <;> simp [isNil]

/-- An integer is stored as `POSITIVE_INTEGER` or `NEGATIVE_INTEGER` by its
sign. -/
def ofInt64 (value : Int64) : Object :=
  if value < 0 then negativeInteger value else positiveInteger value.toUInt64

/-- The object of an `int8_t`. -/
def ofInt8 (value : Int8) : Object := ofInt64 value.toInt64

/-- The object of an `int` or `int32_t`. -/
def ofInt32 (value : Int32) : Object := ofInt64 value.toInt64

/-- The object of a `uint32_t`. -/
def ofUInt32 (value : UInt32) : Object := positiveInteger value.toUInt64

end Object

/-- The functions of msgpack that the code calls, with what it relies on. -/
structure MsgPack (Buf : Type) where
  /-- `msgpack::pack` into an empty `sbuffer`. -/
  pack : Object → Buf
  /-- `msgpack::unpack` of one whole buffer. -/
  unpack : Buf → Option Object
  /-- The contents of an `sbuffer` that has been moved from. -/
  movedFrom : Buf
  /-- `via.array.size`, read whatever the type of the object is. -/
  arraySize : Object → Nat
  /-- `object::convert` to `int8_t`. -/
  int8 : Object → Option Int8
  /-- `object::convert` to `int32_t`. -/
  int32 : Object → Option Int32
  /-- `object::convert` to `uint32_t`. -/
  uint32 : Object → Option UInt32
  /-- `object::convert` to `std::string`. -/
  string : Object → Option String
  /-- `object::convert` to `Dispatcher::call_t`. -/
  callTuple : Object → Option (Int8 × Int32 × String × Object)
  /-- `object::convert` to `Dispatcher::notification_t`. -/
  notificationTuple : Object → Option (Int8 × String × Object)
  /-- `object::convert` to `Response::response_type`. -/
  responseTuple : Object → Option (UInt32 × UInt32 × Object × Object)
  unpack_pack : ∀ o, unpack (pack o) = some o
  unpack_movedFrom : unpack movedFrom = none
  arraySize_array : ∀ elements, arraySize (.array elements) = elements.length
  int8_ofInt8 : ∀ value, int8 (.ofInt8 value) = some value
  int32_ofInt32 : ∀ value, int32 (.ofInt32 value) = some value
  uint32_ofUInt32 : ∀ value, uint32 (.ofUInt32 value) = some value
  string_str : ∀ value, string (.str value) = some value
  callTuple_array : ∀ code id name args,
    callTuple (.array [code, id, name, args]) =
      (int8 code).bind fun code' => (int32 id).bind fun id' =>
        (string name).map fun name' => (code', id', name', args)
  callTuple_not_array : ∀ o, (∀ elements, o ≠ .array elements) →
    callTuple o = none
  notificationTuple_array : ∀ code name args,
    notificationTuple (.array [code, name, args]) =
      (int8 code).bind fun code' =>
        (string name).map fun name' => (code', name', args)
  notificationTuple_not_array : ∀ o, (∀ elements, o ≠ .array elements) →
    notificationTuple o = none
  responseTuple_array : ∀ version id error result,
    responseTuple (.array [version, id, error, result]) =
      (uint32 version).bind fun version' =>
        (uint32 id).map fun id' => (version', id', error, result)

attribute [simp] MsgPack.unpack_pack MsgPack.unpack_movedFrom
  MsgPack.arraySize_array MsgPack.int8_ofInt8 MsgPack.int32_ofInt32
  MsgPack.uint32_ofUInt32 MsgPack.string_str MsgPack.callTuple_array
  MsgPack.notificationTuple_array MsgPack.responseTuple_array

end RpcLib
