import ThreadIpc.Lib.Reachability
import Mathlib.Logic.Function.Basic

/-!
# `TimedCall` and `TimerSingleton`

One thread with its singleton. Between the steps user code runs, in the callback of the
innermost `Callback` in progress if there is one; a message loop that it runs may enter `Callback`
again. A pointer is an address and the number of the object that was created there, since an
address is used again. The clock may be set back and what is read from freed memory is arbitrary.
When the platform calls is left open, and so are the sums of a time and a delay that overflow.
-/

namespace ThreadIpc.TimerSingleton

structure Pointer where
  address : Nat
  number : Nat
  deriving DecidableEq

structure TimedCall where
  delay : Int
  repeats : Bool
  deadline : Int
  deriving DecidableEq

abbrev Heap := Pointer → Option TimedCall

def Heap.deadline (heap : Heap) (timer : Pointer) : Int :=
  (heap timer).elim 0 (·.deadline)

/-- `TimedCallPtrLessThan`; the numbers never decide between two objects that exist. -/
def Heap.lessThan (heap : Heap) (a b : Pointer) : Bool :=
  if heap.deadline a ≠ heap.deadline b then heap.deadline a < heap.deadline b
  else if a.address ≠ b.address then a.address < b.address
  else a.number < b.number

abbrev TimerQueue := List Pointer

def TimerQueue.insert (heap : Heap) (timer : Pointer) : TimerQueue → TimerQueue
  | [] => [timer]
  | first :: rest =>
      if heap.lessThan timer first then timer :: first :: rest
      else if heap.lessThan first timer then first :: TimerQueue.insert heap timer rest
      else first :: rest

def TimerQueue.erase (heap : Heap) (timer : Pointer) (queue : TimerQueue) : TimerQueue :=
  queue.filter fun other => heap.lessThan timer other || heap.lessThan other timer

/-- A `Callback` in progress and what is left of `current_queue` behind the iterator. -/
structure Frame where
  now : Int
  rest : List Pointer
  deriving DecidableEq

structure Fired where
  timer : Pointer
  alive : Bool
  scheduled : Bool
  repeats : Bool
  deriving DecidableEq

structure State where
  heap : Heap
  constructed : Nat
  timerQueue : TimerQueue
  callbacks : List Frame
  fired : List Fired
  corrupted : Bool

def State.init : State where
  heap _ := none
  constructed := 0
  timerQueue := []
  callbacks := []
  fired := []
  corrupted := false

/-- `Fire` of a timer that `Callback` has taken out of the queue, up to the call of `callback_`. -/
def State.fire (state : State) (clock : Int) (timer : Pointer) (call : TimedCall) : State :=
  if call.repeats then
    let heap := Function.update state.heap timer (some { call with deadline := clock + call.delay })
    { state with heap, timerQueue := state.timerQueue.insert heap timer }
  else state

def State.advance (state : State) (clock garbage : Int) : State :=
  match state.callbacks with
  | [] => state
  | ⟨_, []⟩ :: outer => { state with callbacks := outer }
  | ⟨now, timer :: rest⟩ :: outer => match state.heap timer with
      | none =>
          if garbage ≤ now then { state with
            fired := state.fired ++ [⟨timer, false, timer ∈ state.timerQueue, false⟩]
            corrupted := true }
          else { state with callbacks := outer }
      | some call =>
          if call.deadline ≤ now then
            let erased : State := { state with
              timerQueue := TimerQueue.erase state.heap timer state.timerQueue
              callbacks := ⟨now, rest⟩ :: outer
              fired := state.fired ++ [⟨timer, true, timer ∈ state.timerQueue, call.repeats⟩] }
            erased.fire clock timer call
          else { state with callbacks := outer }

inductive Action
  | construct (address : Nat) (clock delay : Int) (repeats : Bool)
  | destroy (timer : Pointer)
  | callback (now clock garbage : Int)
  | returns (clock garbage : Int)
  deriving DecidableEq

def State.copied (state : State) (now : Int) : State :=
  { state with callbacks := ⟨now, state.timerQueue⟩ :: state.callbacks }

def State.construct (state : State) (address : Nat) (clock delay : Int) (repeats : Bool) : State :=
  let timer : Pointer := ⟨address, state.constructed⟩
  let heap := Function.update state.heap timer (some ⟨delay, repeats, clock + delay⟩)
  { state with
    heap
    constructed := state.constructed + 1
    timerQueue := TimerQueue.insert heap timer state.timerQueue }

def State.destroy (state : State) (timer : Pointer) : State :=
  { state with
    heap := Function.update state.heap timer none
    timerQueue := TimerQueue.erase state.heap timer state.timerQueue }

def step (state : State) (action : Action) : Option State :=
  if state.corrupted then none
  else match action with
    | .construct address clock delay repeats =>
        -- the allocator gives out memory that is free
        if ∀ number < state.constructed, state.heap ⟨address, number⟩ = none then
          some (state.construct address clock delay repeats)
        else none
    | .destroy timer =>
        if state.heap timer = none then none else some (state.destroy timer)
    | .callback now clock garbage => some ((state.copied now).advance clock garbage)
    | .returns clock garbage =>
        if state.callbacks = [] then none else some (state.advance clock garbage)

end ThreadIpc.TimerSingleton
