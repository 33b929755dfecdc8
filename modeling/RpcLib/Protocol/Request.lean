import RpcLib.Protocol.Response

/-!
# Which messages are answered, and under which id

A request names the id of its response; a notification and whatever else
arrives are not answered.  The id is the only link between the two messages,
so everything about who gets which response is about lists of ids:
`filter_of_nodup_filterMap` finds the one message with an id.  `message` is the
message that a response is sent as.
-/

namespace RpcLib
namespace Protocol
namespace Request

variable {Buf : Type} (mp : MsgPack Buf)

/-- The id of the response to the message.  The server reads the index of a
request as an `int32_t` and answers with a `uint32_t`. -/
def replyId (msg : Object) : Option UInt32 :=
  if mp.arraySize msg = 4 then
    (mp.callTuple msg).map fun (_, idx, _, _) => idx.toUInt32
  else none

/-- The id of the response to the message in the buffer. -/
def bufferId (buffer : Buf) : Option UInt32 :=
  (mp.unpack buffer).bind (replyId mp)

/-- A message of another size is not answered. -/
theorem replyId_of_size_ne {msg : Object} (hsize : mp.arraySize msg ≠ 4) :
    replyId mp msg = none := if_neg hsize

/-- What is left of a buffer that was moved from is not answered. -/
@[simp] theorem bufferId_movedFrom : bufferId mp mp.movedFrom = none := by
  simp [bufferId]

/-- The buffers that are answered and the messages in them have the same ids. -/
theorem filterMap_bufferId (buffers : List Buf) :
    (buffers.filterMap mp.unpack).filterMap (replyId mp) =
      buffers.filterMap (bufferId mp) :=
  List.filterMap_filterMap ..

end Request

/-- The message that `data` packs. -/
def Response.message (r : Response) : Response.Message :=
  ⟨1, r.id, r.error.getD .nil, r.result.getD .nil⟩

theorem Response.frame_eq (r : Response) : r.frame = r.message.toObject := rfl

/-- Where no id occurs twice, an element is the only one with its id. -/
theorem filter_of_nodup_filterMap {α β : Type} [DecidableEq β]
    {f : α → Option β} {l : List α} (hnodup : (l.filterMap f).Nodup) {a : α}
    (ha : a ∈ l) {b : β} (hb : f a = some b) :
    (l.filter fun x => f x = some b) = [a] := by
  induction l with
  | nil => cases ha
  | cons x l ih =>
      cases hx : f x with
      | none =>
          rw [List.filterMap_cons_none hx] at hnodup
          have hne : a ≠ x := by
            rintro rfl
            rw [hx] at hb
            cases hb
          rw [List.filter_cons_of_neg (by simp [hx])]
          exact ih hnodup ((List.mem_cons.mp ha).resolve_left hne)
      | some b' =>
          rw [List.filterMap_cons_some hx, List.nodup_cons] at hnodup
          obtain ⟨hfresh, hnodup⟩ := hnodup
          rcases List.mem_cons.mp ha with rfl | ha
          · -- the others have other ids
            obtain rfl : b' = b := Option.some.inj (hx.symm.trans hb)
            rw [List.filter_cons_of_pos (by simp [hx]), List.cons.injEq]
            refine ⟨rfl, List.filter_eq_nil_iff.mpr fun y hy => ?_⟩
            intro hsame
            exact hfresh (List.mem_filterMap.mpr ⟨y, hy, by simpa using hsame⟩)
          · have hne : b' ≠ b := by
              rintro rfl
              exact hfresh (List.mem_filterMap.mpr ⟨a, ha, hb⟩)
            rw [List.filter_cons_of_neg (by simp [hx, hne])]
            exact ih hnodup ha

end Protocol
end RpcLib
