import RpcLib.Foundation.Fairness
import RpcLib.System.EndToEnd

/-!
# `Client::call`

Threads that wait in `call` for the answer, on top of the network.  The optional
`timeout_val` of a client is read twice, by `call` itself and, when the wait has
run out, by `throw_timeout` for the text of the exception; in between another
thread may set or clear it.

The clock counts nanoseconds and goes on when it likes.  `wait_for` may take
longer than it was told, but it does not give up before.  It adds the timeout,
in nanoseconds, to the clock; where one of the two is no 64-bit value it
overflows, and the deadline can be anything.

* `State`, `step`: the network with the threads in `call`.
* `Move`, `Effect`, `effect_of_step`: what a step can do, to a thread in `call`
  and at all.
* `netPart`, `serverPart`: the network and its server as components.
-/

namespace RpcLib
namespace System
namespace Calling

open Protocol Transport Foundation TransitionSystem Server

/-- How `call` ends. -/
inductive Result where
  /-- `future.get()` returns the handle or throws what the promise holds. -/
  | got (outcome : Client.Outcome)
  /-- A `Timeout`, by its `what()`. -/
  | timeout (what : String)
  /-- The `std::bad_optional_access` of `timeout().value()`. -/
  | badOptionalAccess

/-- `Client::throw_timeout`, with what `timeout()` returns by then. -/
def throwTimeout (timeoutVal : Option Int64) (funcName : String) : Result :=
  match timeoutVal with
  | some val => .timeout ("rpc::timeout: Timeout of " ++ toString val ++
      "ms while calling rpc function '" ++ funcName ++ "'")
  | none => .badOptionalAccess

/-- `std::chrono::milliseconds(val)` on a clock of nanoseconds. -/
def nanoseconds (val : Int64) : Int := val.toInt * 1000000

/-- A wait of `val` has a deadline: neither its nanoseconds overflow nor the sum
with the clock, which is not negative. -/
def HasDeadline (clock : Int) (val : Int64) : Prop :=
  Int64.minValue.toInt ≤ nanoseconds val ∧
    clock + nanoseconds val ≤ Int64.maxValue.toInt

instance (clock : Int) (val : Int64) : Decidable (HasDeadline clock val) :=
  inferInstanceAs (Decidable (_ ∧ _))

theorem HasDeadline.of_le {clock clock' : Int} {val : Int64}
    (h : HasDeadline clock' val) (hle : clock ≤ clock') :
    HasDeadline clock val :=
  ⟨h.1, (Int.add_le_add_right hle _).trans h.2⟩

/-- Where a thread is in `call`. -/
inductive Stage where
  /-- In `async_call`, behind `next_call_idx`. -/
  | posting
  /-- Before `timeout()`. -/
  | reading
  /-- In `future.wait_for`. -/
  | waiting (deadline : Int)
  /-- Before `throw_timeout`. -/
  | throwing
  /-- In `future.get()`. -/
  | getting
  | ended (result : Result)

/-- A thread in `call`.  Its call is known by the client and the number, and so
is its future. -/
structure Caller (ι : Type) where
  client : ι
  number : Nat
  funcName : String
  /-- When `call` was entered. -/
  began : Int
  /-- The local variable `timeout_val`. -/
  timeoutVal : Option Int64
  stage : Stage

/-- The network, the `timeout_val` of every client and the threads in `call`. -/
structure State (ι ω V Buf : Type) where
  net : Network.State ι ω V Buf
  timeoutVal : ι → Option Int64
  clock : Int
  callers : List (Caller ι)

/-- What can happen: something in the network, which is also where the other
functions of the clients are; a thread enters `call`, or goes on in it, or its
wait runs out; some thread sets or clears a timeout; time passes. -/
inductive Event (ι : Type) where
  | net (e : Network.Event ι)
  | call (i : ι) (funcName : String) (args : List Object)
  | proceed (j : Nat)
  /-- The thread begins to wait until whatever deadline the overflow gives. -/
  | overflow (j : Nat) (deadline : Int)
  | expire (j : Nat)
  | timeout (i : ι) (val : Int64)
  | clearTimeout (i : ι)
  | tick (elapsed : Nat)

variable {ι ω V Buf : Type} [DecidableEq ι] (mp : MsgPack Buf)
  (bytes : Buf → List UInt8) (unpacker : Decoder Object UInt8)
  (disp : Dispatcher ω V)

namespace State

def initial (app : ω) : State ι ω V Buf where
  net := .initial disp app
  timeoutVal := fun _ => none
  clock := 0
  callers := []

/-- The shared state of the future that a thread holds. -/
def promise (s : State ι ω V Buf) (c : Caller ι) : Option Client.Outcome :=
  (s.net.client c.client).shared (.call c.number)

/-- The process of the thread lives. -/
def alive (s : State ι ω V Buf) (c : Caller ι) : Bool :=
  (s.net.client c.client).escaped.isNone

def setCaller (s : State ι ω V Buf) (j : Nat) (c : Caller ι) :
    State ι ω V Buf :=
  { s with callers := s.callers.set j c }

/-- The thread has drawn the call and is about to post it. -/
def isPosting (i : ι) (number : Nat) (c : Caller ι) : Bool :=
  match c.stage with
  | .posting => c.client = i && c.number = number
  | _ => false

/-- No other thread posts the call of a thread in `call`. -/
def admits (s : State ι ω V Buf) : Network.Event ι → Bool
  | .client i (.post k) =>
      match (s.net.client i).drawn[k]? with
      | some call => s.callers.all fun c => !isPosting i call.number c
      | none => true
  | _ => true

/-- The end of `async_call`. -/
def post (s : State ι ω V Buf) (j : Nat) (c : Caller ι) :
    Option (State ι ω V Buf) :=
  ((s.net.client c.client).drawn.findIdx? fun call =>
    call.number = c.number).bind fun k =>
      (Network.step mp bytes unpacker disp s.net
        (.client c.client (.post k))).map fun net =>
          { s with net := net }.setCaller j { c with stage := .reading }

/-- A thread goes on. -/
def proceed (s : State ι ω V Buf) (j : Nat) (c : Caller ι) :
    Option (State ι ω V Buf) :=
  match c.stage with
  | .posting => s.post mp bytes unpacker disp j c
  | .reading =>
      match s.timeoutVal c.client with
      | some val =>
          if HasDeadline s.clock val then
            some (s.setCaller j
              { c with
                timeoutVal := some val
                stage := .waiting (s.clock + nanoseconds val) })
          else none
      | none => some (s.setCaller j
          { c with timeoutVal := none, stage := .getting })
  | .waiting _ =>
      (s.promise c).map fun _ => s.setCaller j { c with stage := .getting }
  | .throwing => some (s.setCaller j
      { c with
        stage := .ended (throwTimeout (s.timeoutVal c.client) c.funcName) })
  | .getting =>
      (s.promise c).map fun outcome =>
        s.setCaller j { c with stage := .ended (.got outcome) }
  | .ended _ => none

/-- A thread goes on where the deadline overflows. -/
def overflow (s : State ι ω V Buf) (j : Nat) (c : Caller ι) (deadline : Int) :
    Option (State ι ω V Buf) :=
  match c.stage, s.timeoutVal c.client with
  | .reading, some val =>
      if HasDeadline s.clock val then none
      else some (s.setCaller j
        { c with timeoutVal := some val, stage := .waiting deadline })
  | _, _ => none

/-- The wait of a thread runs out. -/
def expire (s : State ι ω V Buf) (j : Nat) (c : Caller ι) :
    Option (State ι ω V Buf) :=
  match c.stage with
  | .waiting deadline =>
      if deadline ≤ s.clock ∧ (s.promise c).isNone then
        some (s.setCaller j { c with stage := .throwing })
      else none
  | _ => none

end State

/-- The step of the network with the threads in `call`. -/
def step (s : State ι ω V Buf) : Event ι → Option (State ι ω V Buf)
  | .net e =>
      if s.admits e then
        (Network.step mp bytes unpacker disp s.net e).map fun net =>
          { s with net := net }
      else none
  | .call i funcName args =>
      (Network.step mp bytes unpacker disp s.net
        (.client i (.draw funcName args))).map fun net =>
          { s with
            net := net
            callers := s.callers ++ [⟨i, (s.net.client i).issued.length,
              funcName, s.clock, none, .posting⟩] }
  | .proceed j =>
      s.callers[j]?.bind fun c =>
        if s.alive c then s.proceed mp bytes unpacker disp j c else none
  | .overflow j deadline =>
      s.callers[j]?.bind fun c =>
        if s.alive c then s.overflow j c deadline else none
  | .expire j =>
      s.callers[j]?.bind fun c => if s.alive c then s.expire j c else none
  | .timeout i val =>
      if (s.net.client i).escaped.isNone then
        some { s with timeoutVal := Function.update s.timeoutVal i (some val) }
      else none
  | .clearTimeout i =>
      if (s.net.client i).escaped.isNone then
        some { s with timeoutVal := Function.update s.timeoutVal i none }
      else none
  | .tick elapsed => some { s with clock := s.clock + elapsed }

/-! ## What a step can do -/

/-- What a thread in `call` can do behind `async_call`. -/
inductive Move (s : State ι ω V Buf) (c : Caller ι) : Caller ι → Prop
  | limited {val : Int64} (hstage : c.stage = .reading)
      (hval : s.timeoutVal c.client = some val)
      (hfits : HasDeadline s.clock val) :
      Move s c
        { c with
          timeoutVal := some val
          stage := .waiting (s.clock + nanoseconds val) }
  | overflowed {val : Int64} (hstage : c.stage = .reading)
      (hval : s.timeoutVal c.client = some val)
      (hlarge : ¬ HasDeadline s.clock val)
      (deadline : Int) :
      Move s c { c with timeoutVal := some val, stage := .waiting deadline }
  | unlimited (hstage : c.stage = .reading)
      (hnone : s.timeoutVal c.client = none) :
      Move s c { c with timeoutVal := none, stage := .getting }
  | answered {deadline : Int} {outcome : Client.Outcome}
      (hstage : c.stage = .waiting deadline)
      (hready : s.promise c = some outcome) :
      Move s c { c with stage := .getting }
  | expired {deadline : Int} (hstage : c.stage = .waiting deadline)
      (hclock : deadline ≤ s.clock) (hempty : s.promise c = none) :
      Move s c { c with stage := .throwing }
  | threw (hstage : c.stage = .throwing) :
      Move s c
        { c with
          stage := .ended (throwTimeout (s.timeoutVal c.client) c.funcName) }
  | got {outcome : Client.Outcome} (hstage : c.stage = .getting)
      (hready : s.promise c = some outcome) :
      Move s c { c with stage := .ended (.got outcome) }

/-- The event is a step of the thread `j`. -/
def Event.ofCaller (j : Nat) : Event ι → Prop
  | .proceed j' | .overflow j' _ | .expire j' => j' = j
  | _ => False

/-- What a step can do. -/
inductive Effect (s : State ι ω V Buf) : Event ι → State ι ω V Buf → Prop
  | net {e : Network.Event ι} {net : Network.State ι ω V Buf}
      (hadmits : s.admits e = true)
      (hstep : Network.step mp bytes unpacker disp s.net e = some net) :
      Effect s (.net e) { s with net := net }
  | call {i : ι} {funcName : String} {args : List Object}
      {net : Network.State ι ω V Buf}
      (hstep : Network.step mp bytes unpacker disp s.net
        (.client i (.draw funcName args)) = some net) :
      Effect s (.call i funcName args)
        { s with
          net := net
          callers := s.callers ++ [⟨i, (s.net.client i).issued.length,
            funcName, s.clock, none, .posting⟩] }
  | post {j k : Nat} {c : Caller ι} {call : Client.Call}
      {net : Network.State ι ω V Buf} (hc : s.callers[j]? = some c)
      (hstage : c.stage = .posting)
      (hdrawn : (s.net.client c.client).drawn[k]? = some call)
      (hnumber : call.number = c.number)
      (hstep : Network.step mp bytes unpacker disp s.net
        (.client c.client (.post k)) = some net) :
      Effect s (.proceed j)
        ({ s with net := net }.setCaller j { c with stage := .reading })
  | move {j : Nat} {c c' : Caller ι} {e : Event ι}
      (hc : s.callers[j]? = some c) (hown : e.ofCaller j)
      (hmove : Move s c c') :
      Effect s e (s.setCaller j c')
  | timeout {i : ι} (val : Int64) :
      Effect s (.timeout i val)
        { s with timeoutVal := Function.update s.timeoutVal i (some val) }
  | clearTimeout {i : ι} :
      Effect s (.clearTimeout i)
        { s with timeoutVal := Function.update s.timeoutVal i none }
  | tick (elapsed : Nat) :
      Effect s (.tick elapsed) { s with clock := s.clock + elapsed }

/-- A step has one of the effects. -/
theorem effect_of_step {s s' : State ι ω V Buf} {e : Event ι}
    (hstep : step mp bytes unpacker disp s e = some s') :
    Effect mp bytes unpacker disp s e s' := by
  cases e with
  | net e =>
      simp only [step] at hstep
      split at hstep
      · rename_i hadmits
        obtain ⟨net, hnet, rfl⟩ := Option.map_eq_some_iff.mp hstep
        exact .net hadmits hnet
      · cases hstep
  | call i funcName args =>
      obtain ⟨net, hnet, rfl⟩ := Option.map_eq_some_iff.mp hstep
      exact .call hnet
  | proceed j =>
      obtain ⟨c, hc, hproceed⟩ := Option.bind_eq_some_iff.mp hstep
      split at hproceed
      · unfold State.proceed at hproceed
        split at hproceed
        · rename_i hstage
          obtain ⟨k, hfind, hpost⟩ := Option.bind_eq_some_iff.mp hproceed
          obtain ⟨net, hnet, rfl⟩ := Option.map_eq_some_iff.mp hpost
          obtain ⟨hk, hnumber, -⟩ := List.findIdx?_eq_some_iff_getElem.mp hfind
          exact .post hc hstage (List.getElem?_eq_getElem hk)
            (by simpa using hnumber) hnet
        · rename_i hstage
          split at hproceed
          · rename_i val hval
            split at hproceed
            · rename_i hfits
              obtain rfl := Option.some.inj hproceed
              exact .move hc rfl (.limited hstage hval hfits)
            · cases hproceed
          · rename_i hnone
            obtain rfl := Option.some.inj hproceed
            exact .move hc rfl (.unlimited hstage hnone)
        · rename_i deadline hstage
          obtain ⟨outcome, hready, rfl⟩ := Option.map_eq_some_iff.mp hproceed
          exact .move hc rfl (.answered hstage hready)
        · rename_i hstage
          obtain rfl := Option.some.inj hproceed
          exact .move hc rfl (.threw hstage)
        · rename_i hstage
          obtain ⟨outcome, hready, rfl⟩ := Option.map_eq_some_iff.mp hproceed
          exact .move hc rfl (.got hstage hready)
        · cases hproceed
      · cases hproceed
  | overflow j deadline =>
      obtain ⟨c, hc, hoverflow⟩ := Option.bind_eq_some_iff.mp hstep
      split at hoverflow
      · unfold State.overflow at hoverflow
        split at hoverflow
        · rename_i val hstage hval
          split at hoverflow
          · cases hoverflow
          · rename_i hlarge
            obtain rfl := Option.some.inj hoverflow
            exact .move hc rfl (.overflowed hstage hval hlarge deadline)
        · cases hoverflow
      · cases hoverflow
  | expire j =>
      obtain ⟨c, hc, hexpire⟩ := Option.bind_eq_some_iff.mp hstep
      split at hexpire
      · unfold State.expire at hexpire
        split at hexpire
        · rename_i deadline hstage
          split at hexpire
          · rename_i hlate
            obtain rfl := Option.some.inj hexpire
            exact .move hc rfl
              (.expired hstage hlate.1 (by simpa using hlate.2))
          · cases hexpire
        · cases hexpire
      · cases hexpire
  | timeout i val =>
      simp only [step] at hstep
      split at hstep
      · obtain rfl := Option.some.inj hstep
        exact .timeout val
      · cases hstep
  | clearTimeout i =>
      simp only [step] at hstep
      split at hstep
      · obtain rfl := Option.some.inj hstep
        exact .clearTimeout
      · cases hstep
  | tick elapsed =>
      obtain rfl := Option.some.inj hstep
      exact .tick elapsed

/-! ## Components -/

/-- The step that the network takes. -/
def netEvent (s : State ι ω V Buf) : Event ι → Option (Network.Event ι)
  | .net e => some e
  | .call i funcName args => some (.client i (.draw funcName args))
  | .proceed j =>
      s.callers[j]?.bind fun c =>
        match c.stage with
        | .posting =>
            ((s.net.client c.client).drawn.findIdx? fun call =>
              call.number = c.number).map fun k => .client c.client (.post k)
        | _ => none
  | _ => none

/-- What a thread does to the network is this step. -/
theorem net_of_proceed {s s' : State ι ω V Buf} {j : Nat}
    (hstep : step mp bytes unpacker disp s (.proceed j) = some s') :
    Follows (Network.step mp bytes unpacker disp) s.net
      (netEvent s (.proceed j)) s'.net := by
  obtain ⟨c, hc, hproceed⟩ := Option.bind_eq_some_iff.mp hstep
  unfold netEvent
  dsimp only
  rw [hc, Option.bind_some]
  split at hproceed
  · cases hstage : c.stage with
    | posting =>
        unfold State.proceed at hproceed
        rw [hstage] at hproceed
        obtain ⟨k, hfind, hpost⟩ := Option.bind_eq_some_iff.mp hproceed
        obtain ⟨net, hnet, rfl⟩ := Option.map_eq_some_iff.mp hpost
        rw [hfind]
        exact hnet
    | _ =>
        cases effect_of_step mp bytes unpacker disp hstep with
        | post hc' hposting =>
            obtain rfl := Option.some.inj (hc'.symm.trans hc)
            rw [hstage] at hposting
            cases hposting
        | move => rfl
  · cases hproceed

/-- The network is a component of the system with the threads in `call`. -/
def netPart :
    Component (step (ι := ι) mp bytes unpacker disp)
      (Network.step (ι := ι) mp bytes unpacker disp) where
  get := State.net
  set := fun s net => { s with net := net }
  label := netEvent
  get_set := fun _ _ => rfl
  set_get := fun _ => rfl
  follows := by
    intro s e s' hstep
    cases e with
    | proceed j => exact net_of_proceed mp bytes unpacker disp hstep
    | net e =>
        cases effect_of_step mp bytes unpacker disp hstep with
        | net hadmits hnet => exact hnet
        | move hc hown => exact hown.elim
    | call =>
        cases effect_of_step mp bytes unpacker disp hstep with
        | call hnet => exact hnet
        | move hc hown => exact hown.elim
    | _ => cases effect_of_step mp bytes unpacker disp hstep <;> rfl

/-- So is its server. -/
def serverPart :
    Component (step (ι := ι) mp bytes unpacker disp)
      (Server.step mp unpacker disp) :=
  (netPart mp bytes unpacker disp).trans
    (Network.serverPart mp bytes unpacker disp)

end Calling
end System
end RpcLib
