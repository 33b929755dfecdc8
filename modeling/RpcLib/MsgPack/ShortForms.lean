import RpcLib.Foundation.Framing
import RpcLib.MsgPack.Object

/-!
# A concrete unpacker

`MsgPack.shortForms` reads the one-byte formats of MessagePack as
`msgpack::unpacker` does: positive fixint, fixarray, fixstr and nil.  Every
other format is malformed to it.  It is the unpacker of the concrete runs.
-/

namespace RpcLib
namespace MsgPack

open Foundation

/-- Put an object in front of what is found behind it. -/
def Found.cons (o : Object) :
    Found (List Object) UInt8 → Found (List Object) UInt8
  | .item os rest => .item (o :: os) rest
  | .incomplete => .incomplete
  | .malformed => .malformed

/-- Read a number of objects one after the other; the first argument bounds
the bytes that are looked at. -/
def readObjects : Nat → Nat → List UInt8 → Found (List Object) UInt8
  | _, 0, bytes => .item [] bytes
  | 0, _ + 1, _ => .incomplete
  | _ + 1, _ + 1, [] => .incomplete
  | fuel + 1, n + 1, b :: bytes =>
      if b < 0x80 then
        Found.cons (.positiveInteger b.toUInt64) (readObjects fuel n bytes)
      else if b < 0x90 then .malformed
      else if b < 0xa0 then
        match readObjects fuel (b.toNat - 0x90) bytes with
        | .item elements bytes =>
            Found.cons (.array elements) (readObjects fuel n bytes)
        | .incomplete => .incomplete
        | .malformed => .malformed
      else if b < 0xc0 then
        if bytes.length < b.toNat - 0xa0 then .incomplete
        else
          let chars := (bytes.take (b.toNat - 0xa0)).map fun c =>
            Char.ofNat c.toNat
          Found.cons (.str (String.ofList chars))
            (readObjects fuel n (bytes.drop (b.toNat - 0xa0)))
      else if b = 0xc0 then Found.cons .nil (readObjects fuel n bytes)
      else .malformed

/-- Read one object. -/
def readObject (bytes : List UInt8) : Found Object UInt8 :=
  match readObjects bytes.length 1 bytes with
  | .item (o :: _) rest => .item o rest
  | .item [] _ => .malformed
  | .incomplete => .incomplete
  | .malformed => .malformed

theorem Found.cons_eq_item {o : Object} {found : Found (List Object) UInt8}
    {os : List Object} {rest : List UInt8}
    (hfound : Found.cons o found = .item os rest) :
    ∃ os', found = .item os' rest := by
  cases found with
  | item os' rest' =>
      obtain ⟨-, rfl⟩ : o :: os' = os ∧ rest' = rest := by
        simpa [Found.cons] using hfound
      exact ⟨os', rfl⟩
  | incomplete => cases hfound
  | malformed => cases hfound

/-- Every object takes at least one byte. -/
theorem readObjects_length {fuel n : Nat} {bytes rest : List UInt8}
    {os : List Object} (hread : readObjects fuel n bytes = .item os rest) :
    rest.length + n ≤ bytes.length := by
  induction fuel generalizing n bytes rest os with
  | zero =>
      cases n with
      | zero =>
          obtain ⟨-, rfl⟩ : [] = os ∧ bytes = rest := by
            simpa [readObjects] using hread
          exact Nat.le_refl _
      | succ n => simp [readObjects] at hread
  | succ fuel ih =>
      cases n with
      | zero =>
          obtain ⟨-, rfl⟩ : [] = os ∧ bytes = rest := by
            simpa [readObjects] using hread
          exact Nat.le_refl _
      | succ n =>
          cases bytes with
          | nil => simp [readObjects] at hread
          | cons b bytes =>
              rw [List.length_cons]
              unfold readObjects at hread
              split at hread
              · obtain ⟨os', hrest⟩ := Found.cons_eq_item hread
                have := ih hrest
                omega
              · split at hread
                · cases hread
                · split at hread
                  · split at hread
                    · rename_i elements bytes' helements
                      obtain ⟨os', hrest⟩ := Found.cons_eq_item hread
                      have := ih helements
                      have := ih hrest
                      omega
                    · cases hread
                    · cases hread
                  · split at hread
                    · split at hread
                      · cases hread
                      · obtain ⟨os', hrest⟩ := Found.cons_eq_item hread
                        have := ih hrest
                        rw [List.length_drop] at this
                        omega
                    · split at hread
                      · obtain ⟨os', hrest⟩ := Found.cons_eq_item hread
                        have := ih hrest
                        omega
                      · cases hread

/-- The unpacker of the one-byte formats. -/
def shortForms : Decoder Object UInt8 where
  next := readObject
  next_nil := rfl
  shorter := by
    intro bytes o rest hread
    unfold readObject at hread
    split at hread
    · rename_i o' os rest' hobjects
      have := readObjects_length hobjects
      obtain ⟨rfl, rfl⟩ : o' = o ∧ rest' = rest := by simpa using hread
      exact this
    · cases hread
    · cases hread
    · cases hread

end MsgPack
end RpcLib
