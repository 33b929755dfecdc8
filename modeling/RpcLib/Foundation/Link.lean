import RpcLib.Foundation.Framing

/-!
# One direction of a connection

The sender offers a stream that only grows, the link takes symbols from its
front and gives them to the receiver later, in pieces of any size.  The
receiver runs a decoder on what it was given.

* `Link`, `Link.Carries`: what was taken is a prefix of the stream, whatever
  is on the way.
* `Decoder.Decodes`: what a receiver has made of the symbols it was given, with
  the rule `Decodes.chunk` for one more piece.
* `Decoder.Decodes.isPrefix`: the items of a receiver at the end of a link are a
  prefix of the items that the sender has written, in any chunking.
-/

namespace RpcLib
namespace Foundation

universe u v w

/-- One direction of a connection. -/
structure Link (β : Type u) where
  /-- The symbols that the receiver was given, in order. -/
  delivered : List β
  /-- The symbols on the way. -/
  wire : List β
  /-- A write has failed, and the link takes nothing any more. -/
  cut : Bool

namespace Link

variable {β : Type u}

/-- The link of a connection that stands and was not used. -/
def idle : Link β := ⟨[], [], false⟩

/-- The symbols that the link has taken from the sender. -/
def sent (l : Link β) : List β := l.delivered ++ l.wire

/-- What the link has not taken of the stream of the sender. -/
def rest (l : Link β) (stream : List β) : List β :=
  stream.drop l.sent.length

/-- The link takes the next `n` symbols of the stream. -/
def take (l : Link β) (stream : List β) (n : Nat) : Link β :=
  { l with wire := l.wire ++ (l.rest stream).take n }

/-- The receiver is given the first `n` symbols on the way. -/
def deliver (l : Link β) (n : Nat) : Link β :=
  { l with
    delivered := l.delivered ++ l.wire.take n
    wire := l.wire.drop n }

/-- A write of the sender has failed. -/
def cutOff (l : Link β) : Link β := { l with cut := true }

/-- The link carries the stream: it has taken a first part of it. -/
def Carries (l : Link β) (stream : List β) : Prop := l.sent <+: stream

@[simp] theorem sent_idle : (idle : Link β).sent = [] := rfl

@[simp] theorem sent_cutOff (l : Link β) : l.cutOff.sent = l.sent := rfl

/-- Delivering changes nothing about what was taken. -/
@[simp] theorem sent_deliver (l : Link β) (n : Nat) :
    (l.deliver n).sent = l.sent := by
  unfold sent deliver
  rw [List.append_assoc, List.take_append_drop]

theorem sent_take (l : Link β) (stream : List β) (n : Nat) :
    (l.take stream n).sent = l.sent ++ (l.rest stream).take n := by
  unfold sent take
  rw [List.append_assoc]

/-- What was taken is not left. -/
theorem rest_take_length (l : Link β) (stream : List β) (n : Nat) :
    ((l.take stream n).rest stream).length = (l.rest stream).length - n := by
  unfold rest
  rw [List.length_drop, List.length_drop, sent_take, List.length_append,
    List.length_take, rest, List.length_drop]
  omega

@[simp] theorem rest_deliver (l : Link β) (stream : List β) (n : Nat) :
    (l.deliver n).rest stream = l.rest stream := by
  unfold rest
  rw [sent_deliver]

theorem wire_deliver_length (l : Link β) (n : Nat) :
    (l.deliver n).wire.length = l.wire.length - n :=
  List.length_drop

namespace Carries

variable {l : Link β} {stream stream' : List β}

theorem idle (stream : List β) : (Link.idle : Link β).Carries stream :=
  List.nil_prefix

/-- A link that carries the stream divides it. -/
theorem sent_append_rest (h : l.Carries stream) :
    l.sent ++ l.rest stream = stream := by
  obtain ⟨rest, rfl⟩ := h
  show l.sent ++ (l.sent ++ rest).drop l.sent.length = _
  rw [List.drop_left]

/-- The sender may go on. -/
theorem extend (h : l.Carries stream) (hgrows : stream <+: stream') :
    l.Carries stream' := h.trans hgrows

theorem take (h : l.Carries stream) (n : Nat) :
    (l.take stream n).Carries stream := by
  show (l.take stream n).sent <+: stream
  rw [sent_take]
  refine ⟨(l.rest stream).drop n, ?_⟩
  rw [List.append_assoc, List.take_append_drop, h.sent_append_rest]

theorem deliver (h : l.Carries stream) (n : Nat) :
    (l.deliver n).Carries stream := by
  show (l.deliver n).sent <+: stream
  rw [sent_deliver]
  exact h

/-- What the receiver was given is a first part of the stream. -/
theorem delivered_isPrefix (h : l.Carries stream) : l.delivered <+: stream :=
  (List.prefix_append l.delivered l.wire).trans h

/-- A link that has taken the whole stream. -/
theorem sent_of_rest (h : l.Carries stream) (hnone : l.rest stream = []) :
    l.sent = stream := by
  have hsplit := h.sent_append_rest
  rwa [hnone, List.append_nil] at hsplit

end Carries
end Link

/-! ## The receiver at the end of a link -/

namespace Decoder

variable {α : Type u} {β : Type v} {γ : Type w}

/-- What a receiver has made of the symbols it was given: whatever readable
items the whole stream holds, those taken out so far are the first of them, in
order, and the buffer holds the beginning of the others. -/
def Decodes (d : Decoder α β) (received : List β) (items : List α)
    (unparsed : List β) : Prop :=
  ∀ (encode : α → List β) (all : List α) (future : List β),
    (∀ a ∈ all, d.Reads encode a) →
    received ++ future = all.flatMap encode →
    ∃ unread, items ++ unread = all ∧
      unparsed ++ future = unread.flatMap encode ∧
      (future = [] → unread = [])

namespace Decodes

variable {d : Decoder α β} {received unparsed : List β} {items : List α}

/-- A receiver that was given nothing. -/
theorem nil : d.Decodes [] [] [] := by
  intro encode all future hreads hstream
  refine ⟨all, rfl, hstream, ?_⟩
  rintro rfl
  -- an item that is still to come has a symbol that is still to come
  refine List.eq_nil_iff_forall_not_mem.mpr fun a ha => ?_
  have hnone : all.flatMap encode = [] := hstream.symm
  exact (hreads a ha).ne_nil (List.flatMap_eq_nil_iff.mp hnone a ha)

/-- One more piece: the loop over the items takes out what it completes. -/
theorem chunk (h : d.Decodes received items unparsed) (chunk : List β) :
    d.Decodes (received ++ chunk)
      (items ++ (d.drain (unparsed ++ chunk)).items)
      (d.drain (unparsed ++ chunk)).rest := by
  intro encode all future hreads hstream
  rw [List.append_assoc] at hstream
  obtain ⟨unread, rfl, hbuffer, -⟩ := h encode all _ hreads hstream
  rw [← List.append_assoc] at hbuffer
  obtain ⟨waiting, hsplit, -, hrest, hdone⟩ := drain_of_stream
    (fun a ha => hreads a (List.mem_append_right _ ha)) hbuffer
  exact ⟨waiting, by rw [List.append_assoc, ← hsplit], hrest, hdone⟩

/-- The next piece of a readable stream is not malformed. -/
theorem not_failed (h : d.Decodes received items unparsed)
    {encode : α → List β} {all : List α}
    (hreads : ∀ a ∈ all, d.Reads encode a) {chunk : List β}
    (hstream : received ++ chunk <+: all.flatMap encode) :
    (d.drain (unparsed ++ chunk)).failed = false := by
  obtain ⟨future, hfuture⟩ := hstream
  rw [List.append_assoc] at hfuture
  obtain ⟨unread, rfl, hbuffer, -⟩ := h encode all _ hreads hfuture
  rw [← List.append_assoc] at hbuffer
  obtain ⟨-, -, hok, -⟩ := drain_of_stream
    (fun a ha => hreads a (List.mem_append_right _ ha)) hbuffer
  exact hok

/-- The items of a receiver that was given a first part of a stream are the
first items of the stream. -/
theorem isPrefix (h : d.Decodes received items unparsed)
    {encode : α → List β} {all : List α}
    (hreads : ∀ a ∈ all, d.Reads encode a)
    (hstream : received <+: all.flatMap encode) : items <+: all := by
  obtain ⟨future, hfuture⟩ := hstream
  obtain ⟨unread, hsplit, -⟩ := h encode all future hreads hfuture
  exact ⟨unread, hsplit⟩

/-- A receiver that was given the whole stream has all its items. -/
theorem all (h : d.Decodes received items unparsed)
    {encode : α → List β} {all : List α}
    (hreads : ∀ a ∈ all, d.Reads encode a)
    (hstream : received = all.flatMap encode) : items = all := by
  obtain ⟨unread, hsplit, -, hdone⟩ := h encode all [] hreads
    (by rw [List.append_nil, hstream])
  rw [← hsplit, hdone rfl, List.append_nil]

end Decodes
end Decoder

/-! ## A stream of buffers -/

section Buffers

variable {α : Type u} {β : Type v} {Buf : Type w}

/-- A stream grows with the list of its items. -/
theorem flatMap_isPrefix {items items' : List α} (h : items <+: items')
    (encode : α → List β) : items.flatMap encode <+: items'.flatMap encode := by
  obtain ⟨later, rfl⟩ := h
  rw [List.flatMap_append]
  exact List.prefix_append _ _

/-- The buffer holds the encoding of one item, or nothing. -/
def HoldsItem (bytes : Buf → List β) (item : Buf → Option α)
    (encode : α → List β) (buffer : Buf) : Prop :=
  bytes buffer = (item buffer).elim [] encode

/-- The stream of some buffers is the stream of the items in them. -/
theorem flatMap_of_holdsItem {bytes : Buf → List β} {item : Buf → Option α}
    {encode : α → List β} {buffers : List Buf}
    (h : ∀ buffer ∈ buffers, HoldsItem bytes item encode buffer) :
    buffers.flatMap bytes = (buffers.filterMap item).flatMap encode := by
  induction buffers with
  | nil => rfl
  | cons buffer buffers ih =>
      have hbuffer := h buffer List.mem_cons_self
      have hrest := ih fun b hb => h b (List.mem_cons_of_mem _ hb)
      unfold HoldsItem at hbuffer
      rw [List.flatMap_cons, hbuffer, hrest]
      cases hitem : item buffer with
      | none => simp [hitem]
      | some a => simp [hitem]

end Buffers

end Foundation
end RpcLib
