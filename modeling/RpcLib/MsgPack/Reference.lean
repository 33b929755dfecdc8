import RpcLib.MsgPack.Object

/-!
# A concrete msgpack

`MsgPack.reference` satisfies the laws of `MsgPack`.  A buffer is the object it
holds, or `none` after it has been moved from.  `via` is read as a
little-endian machine does: `via.array.size` is the first word of whichever
member of the union the object stores, and zero where none is stored.
-/

namespace RpcLib
namespace MsgPack

/-- The first 32 bits of the `via` union. -/
def firstWord : Object → Nat
  | .nil => 0
  | .boolean value => value.toNat
  | .positiveInteger u64 => u64.toUInt32.toNat
  | .negativeInteger i64 => i64.toUInt64.toUInt32.toNat
  | .float32 f64 => f64.toUInt32.toNat
  | .float64 f64 => f64.toUInt32.toNat
  | .str value => value.length
  | .bin data => data.length
  | .array elements => elements.length
  | .map pairs => pairs.length
  | .ext _ data => data.length

/-- An integer object read as a 64-bit value that lies in `[low, high]`. -/
def integerWithin (low high : Int64) : Object → Option Int64
  | .positiveInteger u64 =>
      if u64 ≤ high.toUInt64 then some u64.toInt64 else none
  | .negativeInteger i64 => if low ≤ i64 then some i64 else none
  | _ => none

def referenceInt8 (o : Object) : Option Int8 :=
  (integerWithin (-128) 127 o).map Int64.toInt8

def referenceInt32 (o : Object) : Option Int32 :=
  (integerWithin (-2147483648) 2147483647 o).map Int64.toInt32

def referenceUInt32 : Object → Option UInt32
  | .positiveInteger u64 => if u64 ≤ 4294967295 then some u64.toUInt32 else none
  | _ => none

/-- `std::string` accepts the types `STR` and `BIN`. -/
def referenceString : Object → Option String
  | .str value => some value
  | .bin data => some (String.ofList (data.map fun b => Char.ofNat b.toNat))
  | _ => none

def referenceCallTuple : Object → Option (Int8 × Int32 × String × Object)
  | .array [code, id, name, args] =>
      (referenceInt8 code).bind fun code' =>
        (referenceInt32 id).bind fun id' =>
          (referenceString name).map fun name' => (code', id', name', args)
  | _ => none

def referenceNotificationTuple : Object → Option (Int8 × String × Object)
  | .array [code, name, args] =>
      (referenceInt8 code).bind fun code' =>
        (referenceString name).map fun name' => (code', name', args)
  | _ => none

def referenceResponseTuple :
    Object → Option (UInt32 × UInt32 × Object × Object)
  | .array [version, id, error, result] =>
      (referenceUInt32 version).bind fun version' =>
        (referenceUInt32 id).map fun id' => (version', id', error, result)
  | _ => none

/-- Storing an integer by its sign and reading it back loses nothing. -/
theorem integerWithin_ofInt64 {low high value : Int64} (hlow : low ≤ value)
    (hhigh : value ≤ high) :
    integerWithin low high (.ofInt64 value) = some value := by
  unfold Object.ofInt64
  split
  · simp [integerWithin, hlow]
  · rename_i hsign
    have hle : value.toUInt64 ≤ high.toUInt64 :=
      Int64.toUInt64_le (Int64.not_lt.mp hsign) hhigh
    simp [integerWithin, hle]

theorem referenceInt8_ofInt8 (value : Int8) :
    referenceInt8 (.ofInt8 value) = some value := by
  have hlow : -128 ≤ value.toInt64 := by
    simpa [Int64.le_iff_toInt_le] using value.le_toInt
  have hhigh : value.toInt64 ≤ 127 := by
    have hlt := value.toInt_lt
    simp only [Int64.le_iff_toInt_le, Int8.toInt_toInt64]
    exact Int.le_of_lt_add_one hlt
  simp [referenceInt8, Object.ofInt8, integerWithin_ofInt64 hlow hhigh]

theorem referenceInt32_ofInt32 (value : Int32) :
    referenceInt32 (.ofInt32 value) = some value := by
  have hlow : -2147483648 ≤ value.toInt64 := by
    simpa [Int64.le_iff_toInt_le] using value.le_toInt
  have hhigh : value.toInt64 ≤ 2147483647 := by
    have hlt := value.toInt_lt
    simp only [Int64.le_iff_toInt_le, Int32.toInt_toInt64]
    exact Int.le_of_lt_add_one hlt
  simp [referenceInt32, Object.ofInt32, integerWithin_ofInt64 hlow hhigh]

theorem referenceUInt32_ofUInt32 (value : UInt32) :
    referenceUInt32 (.ofUInt32 value) = some value := by
  have hle : value.toUInt64 ≤ 4294967295 := by
    rw [UInt64.le_iff_toNat_le]
    simpa using Nat.le_of_lt_succ value.toNat_lt
  simp [referenceUInt32, Object.ofUInt32, hle]

/-- The laws of `MsgPack` can be met, with buffers that keep the object. -/
def reference : MsgPack (Option Object) where
  pack := some
  unpack := id
  movedFrom := none
  arraySize := firstWord
  int8 := referenceInt8
  int32 := referenceInt32
  uint32 := referenceUInt32
  string := referenceString
  callTuple := referenceCallTuple
  notificationTuple := referenceNotificationTuple
  responseTuple := referenceResponseTuple
  unpack_pack := fun _ => rfl
  unpack_movedFrom := rfl
  arraySize_array := fun _ => rfl
  int8_ofInt8 := referenceInt8_ofInt8
  int32_ofInt32 := referenceInt32_ofInt32
  uint32_ofUInt32 := referenceUInt32_ofUInt32
  string_str := fun _ => rfl
  callTuple_array := fun _ _ _ _ => rfl
  callTuple_not_array := by
    intro o hnot
    cases o with
    | array elements => exact absurd rfl (hnot elements)
    | _ => rfl
  notificationTuple_array := fun _ _ _ => rfl
  notificationTuple_not_array := by
    intro o hnot
    cases o with
    | array elements => exact absurd rfl (hnot elements)
    | _ => rfl
  responseTuple_array := fun _ _ _ _ => rfl

end MsgPack
end RpcLib
