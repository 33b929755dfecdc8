import Mathlib.Tactic.Common

/-!
# Items in a stream of symbols

A receiver appends the symbols it is given to a buffer and takes items off the
front of the buffer as long as it finds one.  The sender writes one item after
the other; where the stream is cut into chunks is up to whoever carries it.

* `Decoder.drain`: the loop of the receiver, with its equation `drain_eq`.
* `Decoder.Reads`: what makes a written item readable: a whole item is found
  whatever follows it, and a part of one is found incomplete.
* `Decoder.drain_of_stream`: a buffer that holds a first part of the stream of
  some items gives the items that are whole in it, and keeps the part of the
  next one.
-/

namespace RpcLib
namespace Foundation

universe u v

/-- What a decoder finds at the front of its buffer. -/
inductive Found (α : Type u) (β : Type v) where
  | item (a : α) (rest : List β)
  | incomplete
  | malformed

/-- A decoder.  An item takes at least one symbol, and there is none in an
empty buffer. -/
structure Decoder (α : Type u) (β : Type v) where
  next : List β → Found α β
  next_nil : next [] = .incomplete
  shorter : ∀ {buffer a rest}, next buffer = .item a rest →
    rest.length < buffer.length

/-- What the loop over the items leaves: the items it has found, the rest of
the buffer, and whether it has ended at something malformed. -/
structure Drained (α : Type u) (β : Type v) where
  items : List α
  rest : List β
  failed : Bool

namespace Decoder

variable {α : Type u} {β : Type v}

/-- At most `n` rounds of the loop. -/
def drainWithin (d : Decoder α β) : Nat → List β → Drained α β
  | 0, buffer => ⟨[], buffer, false⟩
  | n + 1, buffer =>
      match d.next buffer with
      | .item a rest =>
          let drained := d.drainWithin n rest
          { drained with items := a :: drained.items }
      | .incomplete => ⟨[], buffer, false⟩
      | .malformed => ⟨[], buffer, true⟩

/-- Take items until none is found.  Every round shortens the buffer. -/
def drain (d : Decoder α β) (buffer : List β) : Drained α β :=
  d.drainWithin buffer.length buffer

/-- Once there is a round for every symbol, more rounds change nothing. -/
theorem drainWithin_eq_drain (d : Decoder α β) {n : Nat} {buffer : List β}
    (hlength : buffer.length ≤ n) : d.drainWithin n buffer = d.drain buffer := by
  have hagree : ∀ (n m : Nat) (buffer : List β), buffer.length ≤ n →
      buffer.length ≤ m → d.drainWithin n buffer = d.drainWithin m buffer := by
    intro n
    induction n with
    | zero =>
        intro m buffer hn hm
        obtain rfl := List.length_eq_zero_iff.mp (Nat.le_zero.mp hn)
        cases m with
        | zero => rfl
        | succ m => simp [drainWithin, d.next_nil]
    | succ n ih =>
        intro m buffer hn hm
        cases m with
        | zero =>
            obtain rfl := List.length_eq_zero_iff.mp (Nat.le_zero.mp hm)
            simp [drainWithin, d.next_nil]
        | succ m =>
            unfold drainWithin
            cases hnext : d.next buffer with
            | item a rest =>
                have hshorter := d.shorter hnext
                dsimp only
                rw [ih m rest (by omega) (by omega)]
            | incomplete => rfl
            | malformed => rfl
  exact hagree n buffer.length buffer hlength (Nat.le_refl _)

/-- The equation of the loop. -/
theorem drain_eq (d : Decoder α β) (buffer : List β) :
    d.drain buffer =
      match d.next buffer with
      | .item a rest =>
          { d.drain rest with items := a :: (d.drain rest).items }
      | .incomplete => ⟨[], buffer, false⟩
      | .malformed => ⟨[], buffer, true⟩ := by
  cases buffer with
  | nil => simp [drain, drainWithin, d.next_nil]
  | cons b buffer =>
      show d.drainWithin (buffer.length + 1) (b :: buffer) = _
      unfold drainWithin
      cases hnext : d.next (b :: buffer) with
      | item a rest =>
          have hshorter := d.shorter hnext
          dsimp only
          rw [drainWithin_eq_drain d (Nat.le_of_lt_succ hshorter)]
      | incomplete => rfl
      | malformed => rfl

/-- The decoder reads the item that is written as `encode a`. -/
structure Reads (d : Decoder α β) (encode : α → List β) (a : α) : Prop where
  whole : ∀ rest, d.next (encode a ++ rest) = .item a rest
  part : ∀ part rest, encode a = part ++ rest → rest ≠ [] →
    d.next part = .incomplete

/-- A readable item takes at least one symbol. -/
theorem Reads.ne_nil {d : Decoder α β} {encode : α → List β} {a : α}
    (h : d.Reads encode a) : encode a ≠ [] := by
  intro hnil
  have hnext := h.whole []
  rw [hnil, List.append_nil, d.next_nil] at hnext
  cases hnext

/-- The buffer holds only a part of an item. -/
def waits (d : Decoder α β) (buffer : List β) : Bool :=
  match d.next buffer with
  | .incomplete => true
  | _ => false

theorem next_of_waits {d : Decoder α β} {buffer : List β}
    (h : d.waits buffer = true) : d.next buffer = .incomplete := by
  unfold waits at h
  split at h
  · assumption
  · cases h

/-- A part of an item is one of its prefixes, so it is enough to test these. -/
theorem Reads.of_waits {d : Decoder α β} {encode : α → List β} {a : α}
    (hwhole : ∀ rest, d.next (encode a ++ rest) = .item a rest)
    (hparts : ((List.range (encode a).length).all fun n =>
      d.waits ((encode a).take n)) = true) : d.Reads encode a := by
  refine ⟨hwhole, fun part rest hencode hrest => ?_⟩
  have hpart : (encode a).take part.length = part := by
    rw [hencode, List.take_left]
  have hlength : part.length < (encode a).length := by
    rw [hencode, List.length_append]
    exact Nat.lt_add_of_pos_right (List.length_pos_iff.mpr hrest)
  rw [← hpart]
  exact next_of_waits
    (List.all_eq_true.mp hparts part.length (List.mem_range.mpr hlength))

/-- A buffer that holds a first part of the stream of `items` gives the items
that are whole in it. -/
theorem drain_of_stream {d : Decoder α β} {encode : α → List β}
    {items : List α} (hreads : ∀ a ∈ items, d.Reads encode a)
    {buffer future : List β}
    (hstream : buffer ++ future = items.flatMap encode) :
    ∃ waiting, items = (d.drain buffer).items ++ waiting ∧
      (d.drain buffer).failed = false ∧
      (d.drain buffer).rest ++ future = waiting.flatMap encode ∧
      (future = [] → waiting = []) := by
  induction items generalizing buffer with
  | nil =>
      obtain ⟨rfl, rfl⟩ := List.append_eq_nil_iff.mp hstream
      rw [drain_eq, d.next_nil]
      exact ⟨[], rfl, rfl, rfl, fun _ => rfl⟩
  | cons a items ih =>
      have ha := hreads a List.mem_cons_self
      have hitems : ∀ a ∈ items, d.Reads encode a :=
        fun a' ha' => hreads a' (List.mem_cons_of_mem _ ha')
      rw [List.flatMap_cons] at hstream
      -- the buffer ends inside the first item or not before its end
      rcases List.append_eq_append_iff.mp hstream with
        ⟨left, hencode, hfuture⟩ | ⟨rest, hbuffer, hrest⟩
      · by_cases hwhole : left = []
        · subst hwhole
          rw [List.append_nil] at hencode
          rw [← hencode, drain_eq, ← List.append_nil (encode a), ha.whole]
          have hlater : [] ++ future = items.flatMap encode := hfuture
          obtain ⟨waiting, hsplit, hok, hstream', hdone⟩ := ih hitems hlater
          dsimp only
          exact ⟨waiting, by rw [List.cons_append, ← hsplit], hok, hstream',
            hdone⟩
        · rw [drain_eq, ha.part buffer left hencode hwhole]
          refine ⟨a :: items, rfl, rfl, ?_, ?_⟩
          · rw [List.flatMap_cons]
            exact hstream
          · rintro rfl
            exact absurd (List.append_eq_nil_iff.mp hfuture.symm).1 hwhole
      · rw [hbuffer, drain_eq, ha.whole]
        obtain ⟨waiting, hsplit, hok, hstream', hdone⟩ := ih hitems hrest.symm
        dsimp only
        exact ⟨waiting, by rw [List.cons_append, ← hsplit], hok, hstream',
          hdone⟩

end Decoder
end Foundation
end RpcLib
