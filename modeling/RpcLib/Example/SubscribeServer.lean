import RpcLib.Server.Replay
import RpcLib.System.CallSemantics

/-!
# The example server

`subscribe_control_server.cpp` binds two functions of a `Master`: `subscribe`
adds a name to a set, `list` returns the set.  The clock of the `Master`, by
which `main` decides when to stop, is left out.

* `Master`, `control`: the set of names and the functions that are bound.
* `subscribes_iff`: which messages subscribe a name.
* `mem_before_iff`: a dispatch finds in the set what was subscribed before it.
* `responses_of_list`: a dispatch of `list` answers with what it finds.
-/

namespace RpcLib
namespace Example

open Protocol Foundation Server RpcLib.System

/-! ## The set of names -/

/-- `std::set::insert`. -/
def insertName (id : String) : List String → List String
  | [] => [id]
  | x :: xs =>
      if id < x then id :: x :: xs
      else if id = x then x :: xs
      else x :: insertName id xs

theorem mem_insertName (id other : String) (names : List String) :
    other ∈ insertName id names ↔ other ∈ names ∨ other = id := by
  induction names with
  | nil => simp [insertName]
  | cons x xs ih =>
      unfold insertName
      split
      · rw [List.mem_cons, or_comm]
      · split
        · rename_i hsame
          subst hsame
          simp +contextual
        · rw [List.mem_cons, ih, List.mem_cons, or_assoc]

theorem insertName_sorted (id : String) {names : List String}
    (h : names.Pairwise (· < ·)) : (insertName id names).Pairwise (· < ·) := by
  induction names with
  | nil => exact List.pairwise_singleton _ _
  | cons x xs ih =>
      obtain ⟨hfirst, hrest⟩ := List.pairwise_cons.mp h
      unfold insertName
      split
      · rename_i hlt
        refine List.pairwise_cons.mpr ⟨fun y hy => ?_, h⟩
        rcases List.mem_cons.mp hy with rfl | hy
        · exact hlt
        · exact String.lt_trans hlt (hfirst y hy)
      · split
        · exact h
        · rename_i hnlt hne
          refine List.pairwise_cons.mpr ⟨fun y hy => ?_, ih hrest⟩
          rcases (mem_insertName id y xs).mp hy with hy | rfl
          · exact hfirst y hy
          · by_contra hnot
            exact hne (String.le_antisymm (String.not_lt.mp hnot)
              (String.not_lt.mp hnlt))

/-- `Master`.  Its `std::set` is sorted and has no name twice. -/
structure Master where
  clients : List String
  sorted : clients.Pairwise (· < ·)

namespace Master

def initial : Master := ⟨[], .nil⟩

/-- `Master::subscribe`. -/
def subscribe (m : Master) (id : String) : Master :=
  ⟨insertName id m.clients, insertName_sorted id m.sorted⟩

/-- `Master::list`. -/
def list (m : Master) : List String := m.clients

@[simp] theorem mem_subscribe (m : Master) (id other : String) :
    other ∈ (m.subscribe id).clients ↔ other ∈ m.clients ∨ other = id :=
  mem_insertName id other m.clients

/-- What the calls of the bound functions make of a `Master`. -/
def after (m : Master) : String × List String → Master
  | ("subscribe", [id]) => m.subscribe id
  | _ => m

theorem mem_after (m : Master) (call : String × List String) (id : String) :
    id ∈ (m.after call).clients ↔
      id ∈ m.clients ∨ call = ("subscribe", [id]) := by
  unfold after
  split
  · rename_i other
    rw [mem_subscribe]
    simp [eq_comm]
  · rename_i hother
    have hne : call ≠ ("subscribe", [id]) := hother id
    simp [hne]

/-- A name is there when it was there before or was subscribed. -/
theorem mem_foldl_after (calls : List (String × List String)) (m : Master)
    (id : String) :
    id ∈ (calls.foldl after m).clients ↔
      id ∈ m.clients ∨ ("subscribe", [id]) ∈ calls := by
  induction calls generalizing m with
  | nil => simp
  | cons call calls ih =>
      rw [List.foldl_cons, ih, mem_after, List.mem_cons, or_assoc,
        eq_comm (a := call)]

end Master

/-! ## The functions that are bound -/

section Functions

variable {Buf : Type} (mp : MsgPack Buf)

/-- The conversion of a parameter of type `std::string`. -/
def stringParam (o : Object) : Except Exn String :=
  match mp.string o with
  | some value => .ok value
  | none => .error .typeError

/-- The lambda of `main` that is bound to `subscribe`. -/
def subscribeFunctor : Functor Master String where
  params := [stringParam mp]
  returnsVoid := true
  body := fun m _ args =>
    match args with
    | [id] => (m.subscribe id, ⟨[], .returned .nil⟩)
    -- the adaptor passes one value for each parameter
    | _ => (m, ⟨[], .returned .nil⟩)

/-- The lambda of `main` that is bound to `list`. -/
def listFunctor : Functor Master String where
  params := []
  returnsVoid := false
  body := fun m _ _ => (m, ⟨[], .returned (.array (m.list.map .str))⟩)

/-- What `main` binds. -/
def control : Dispatcher Master String :=
  ⟨((∅ : AList fun _ : String => Functor Master String).insert "subscribe"
    (subscribeFunctor mp)).insert "list" listFunctor⟩

/-- `main` binds both functions to a dispatcher without any. -/
theorem control_eq : (do
    let d ← Dispatcher.bind (ω := Master) (V := String) ⟨∅⟩ "subscribe"
      (subscribeFunctor mp)
    d.bind "list" listFunctor) = .ok (control mp) := rfl

theorem lookup_subscribe :
    (control mp).funcs.lookup "subscribe" = some (subscribeFunctor mp) := rfl

theorem lookup_list : (control mp).funcs.lookup "list" = some listFunctor := rfl

theorem lookup_other {name : String} (hsubscribe : name ≠ "subscribe")
    (hlist : name ≠ "list") : (control mp).funcs.lookup name = none := by
  unfold control
  rw [AList.lookup_insert_ne hlist, AList.lookup_insert_ne hsubscribe]
  rfl

/-- The functions do not look at the session. -/
theorem afterCall_control (id : SessionId) :
    (control mp).afterCall id = Master.after := by
  funext m ⟨name, vals⟩
  by_cases hsubscribe : name = "subscribe"
  · subst hsubscribe
    rw [Dispatcher.afterCall_of_bound (lookup_subscribe mp)]
    match vals with
    | [] => rfl
    | [id] => rfl
    | _ :: _ :: _ => rfl
  · have hafter : m.after (name, vals) = m := by
      unfold Master.after
      split
      · rename_i hsame
        exact absurd (Prod.mk.inj hsame).1 hsubscribe
      · rfl
    rw [hafter]
    by_cases hlist : name = "list"
    · subst hlist
      rw [Dispatcher.afterCall_of_bound (lookup_list mp)]
      rfl
    · unfold Dispatcher.afterCall
      rw [lookup_other mp hsubscribe hlist]

/-- The message subscribes a name. -/
def Subscribes (msg : Object) (id : String) : Prop :=
  ("subscribe", [id]) ∈ (control mp).callsOf mp msg

theorem readArgs_subscribe_iff (args : Object) (id : String) :
    (subscribeFunctor mp).readArgs mp "subscribe" args = .ok [id] ↔
      ∃ o, args = .array [o] ∧ mp.string o = some id := by
  have hparam : ∀ o, stringParam mp o = .ok id ↔ mp.string o = some id := by
    intro o
    unfold stringParam
    cases mp.string o <;> simp
  constructor
  · intro hread
    by_cases harray : ∃ elements, args = .array elements
    · obtain ⟨elements, rfl⟩ := harray
      obtain ⟨hlength, hconverts⟩ :=
        (Functor.readArgs_array_eq_ok_iff mp _ _ _ _).mp hread
      obtain ⟨o, rfl⟩ := List.length_eq_one_iff.mp hlength
      obtain ⟨hfirst, -⟩ := List.forall₂_cons.mp hconverts
      exact ⟨o, rfl, (hparam o).mp hfirst⟩
    · -- the adaptor has parameters, so it converts, and refuses
      exfalso
      by_cases hcount : mp.arraySize args = 1
      · rw [Functor.readArgs_of_params mp hcount (List.cons_ne_nil _ _),
          Functor.convertArgs_of_not_array _
            fun elements h => harray ⟨elements, h⟩] at hread
        cases hread
      · obtain ⟨what, herror⟩ := Functor.readArgs_of_wrong_count mp
          (f := subscribeFunctor mp) hcount "subscribe"
        rw [herror] at hread
        cases hread
  · rintro ⟨o, rfl, hstring⟩
    refine (Functor.readArgs_array_eq_ok_iff mp _ _ _ _).mpr ⟨rfl, ?_⟩
    exact List.forall₂_cons.mpr ⟨(hparam o).mpr hstring, .nil⟩

/-- It does so by its addressee and its one argument. -/
theorem subscribes_iff (msg : Object) (id : String) :
    Subscribes mp msg id ↔
      ∃ o, Dispatcher.addressee mp msg = some ("subscribe", .array [o]) ∧
        mp.string o = some id := by
  unfold Subscribes
  rw [Dispatcher.mem_callsOf]
  constructor
  · rintro ⟨args, func, haddressee, hbound, hread⟩
    obtain rfl := Option.some.inj (hbound.symm.trans (lookup_subscribe mp))
    obtain ⟨o, rfl, hstring⟩ := (readArgs_subscribe_iff mp args id).mp hread
    exact ⟨o, haddressee, hstring⟩
  · rintro ⟨o, haddressee, hstring⟩
    exact ⟨_, _, haddressee, lookup_subscribe mp,
      (readArgs_subscribe_iff mp _ id).mpr ⟨o, rfl, hstring⟩⟩

/-- `c.notify("subscribe", id)` subscribes the name. -/
theorem subscribes_notification (id : String) :
    Subscribes mp (.array [.ofInt8 Client.RequestType.notification.value,
      .str "subscribe", .array [.str id]]) id := by
  refine (subscribes_iff mp _ id).mpr ⟨.str id, ?_, mp.string_str id⟩
  simp [Dispatcher.addressee]

/-- So does `c.call("subscribe", id)`. -/
theorem subscribes_call {c : Client.Call} (hname : c.funcName = "subscribe")
    {id : String} (hargs : c.args = [.str id]) : Subscribes mp c.message id := by
  refine (subscribes_iff mp _ id).mpr ⟨.str id, ?_, mp.string_str id⟩
  simp [Dispatcher.addressee, Client.Call.message, hname, hargs]

/-! ## What the server has in its set -/

variable {mp} {unpacker : Decoder Object UInt8}
  {s : Server.State Master String Buf}

/-- Dispatches add to the set what their messages subscribe. -/
theorem mem_of_linked
    (h : Serving mp unpacker (control mp) .initial s) {first last : Master}
    {ds : List (Dispatched Master String)} (hds : ds ⊆ s.dispatched)
    (hlinked : Linked first ds last) (id : String) :
    id ∈ last.clients ↔
      id ∈ first.clients ∨ ∃ d ∈ ds, Subscribes mp d.msg id := by
  have hafter : ∀ d ∈ ds, d.after = d.called.foldl Master.after d.before := by
    intro d hd
    obtain ⟨w, w', hran, -⟩ := h.executed d (hds hd)
    rw [hran.after_eq, h.history.called d (hds hd),
      h.history.sameDisp d.number, afterCall_control]
  rw [hlinked.replay hafter, Master.mem_foldl_after, List.mem_flatMap]
  refine or_congr_right (exists_congr fun d => and_congr_right fun hd => ?_)
  rw [h.history.called d (hds hd)]
  exact Iff.rfl

/-- A dispatch finds in the set what was subscribed before it. -/
theorem mem_before_iff (h : Serving mp unpacker (control mp) .initial s)
    {before after : List (Dispatched Master String)}
    {d : Dispatched Master String}
    (hsplit : s.dispatched = before ++ d :: after) (id : String) :
    id ∈ d.before.clients ↔ ∃ d' ∈ before, Subscribes mp d'.msg id := by
  have hlinked := h.history.linked
  rw [hsplit] at hlinked
  rw [mem_of_linked h (hsplit ▸ List.subset_append_left before _)
    hlinked.split id]
  simp [Master.initial]

/-- A dispatch of `list` answers with the set that it finds. -/
theorem responses_of_list (h : Serving mp unpacker (control mp) .initial s)
    {d : Dispatched Master String} (hd : d ∈ s.dispatched) {c : Client.Call}
    (hmsg : d.msg = c.message) (hname : c.funcName = "list")
    (hargs : c.args = []) :
    d.responses = [.makeResultHandle c.idx.toUInt32
      (some (.array (d.before.clients.map .str)))] := by
  obtain ⟨w, w', hran, -⟩ := h.executed d hd
  have hsize : mp.arraySize d.msg = 4 := by simp [hmsg, Client.Call.message]
  have htuple := callTuple_message mp c
  rw [← hmsg] at htuple
  have hbound : (s.connection d.number).disp.funcs.lookup c.funcName =
      some listFunctor := by
    rw [h.history.sameDisp d.number, hname]
    rfl
  have hread : listFunctor.readArgs mp c.funcName (.array c.args) = .ok [] := by
    rw [hargs]
    exact Functor.readArgs_of_no_params mp (mp.arraySize_array []) rfl _
  exact hran.responses_of_returned mp hsize htuple hbound hread rfl

end Functions
end Example
end RpcLib
