import ThreadIpc.Lib.Reachability

/-!
# `CondVar` on Windows

Any number of threads call `Wait`, `WaitWithTimeout` and `SignalAll`. What they do under
`current_event_mutex_` is one step, everything else a step of its own. The caller's mutex is left
out: it keeps threads from stepping, and so only takes runs away. Events and calls of `SignalAll`
are numbered in order, and every step is given a time.
-/

namespace ThreadIpc.CondVar

/-- What a thread does next; a waiter keeps its event and the time at which it captured it. -/
inductive Phase
  | outside
  | unlock (event captured : Nat) (timed : Bool)
  | waitForSingleObject (event captured : Nat) (timed : Bool)
  | lock (event captured : Nat) (timedOut : Bool)
  | releaseEvent (event captured : Nat) (timedOut : Bool)
  | detach (call : Nat)
  | setEvent (call event : Nat)
  | releaseOld (call event : Nat)
  deriving DecidableEq, Repr

def Phase.captured : Phase → Option (Nat × Nat)
  | .unlock event captured _ | .waitForSingleObject event captured _ | .lock event captured _
  | .releaseEvent event captured _ => some (event, captured)
  | .outside | .detach _ | .setEvent _ _ | .releaseOld _ _ => none

structure Signal where
  began : Nat
  looked : Option Nat
  detached : Option Nat
  hasSet : Bool
  returned : Option Nat
  deriving DecidableEq, Repr

structure State (T : Type) where
  currentEvent_ : Option Nat
  created : Nat
  born : Nat → Nat
  refs : Nat → Nat
  isSet : Nat → Bool
  closed : Nat → Bool
  phase : T → Phase
  signals : Nat
  signal : Nat → Signal
  clock : Nat

inductive Action (T : Type)
  | wait (thread : T) (timed : Bool)
  | signalAll (thread : T)
  | advance (thread : T)
  | timeout (thread : T)
  deriving DecidableEq, Repr

variable {T : Type}

def State.init : State T where
  currentEvent_ := none
  created := 0
  born := fun _ => 0
  refs := fun _ => 0
  isSet := fun _ => false
  closed := fun _ => false
  phase := fun _ => .outside
  signals := 0
  signal := fun _ => ⟨0, none, none, false, none⟩
  clock := 0

namespace State
variable [DecidableEq T] (state : State T)

def move (thread : T) (phase : Phase) : State T :=
  { state with phase := Function.update state.phase thread phase }

def unref (event : Nat) : State T :=
  { state with
    refs := Function.update state.refs event (state.refs event - 1)
    closed := Function.update state.closed event (state.closed event || state.refs event == 1) }

/-- `new Event` has one reference of `current_event_` and one of the waiter. -/
def capture (thread : T) (timed : Bool) : State T :=
  match state.currentEvent_ with
  | some event =>
      { state.move thread (.unlock event state.clock timed) with
        refs := Function.update state.refs event (state.refs event + 1) }
  | none =>
      { state.move thread (.unlock state.created state.clock timed) with
        currentEvent_ := some state.created
        created := state.created + 1
        born := Function.update state.born state.created state.clock
        refs := Function.update state.refs state.created 2 }

def begin (thread : T) : State T :=
  { state.move thread (.detach state.signals) with
    signals := state.signals + 1
    signal := Function.update state.signal state.signals ⟨state.clock, none, none, false, none⟩ }

def detach (thread : T) (call : Nat) : State T :=
  match state.currentEvent_ with
  | some event =>
      { state.move thread (.setEvent call event) with
        currentEvent_ := none
        signal := Function.update state.signal call
          { state.signal call with looked := some state.clock, detached := some event } }
  | none =>
      { state.move thread .outside with
        signal := Function.update state.signal call
          { state.signal call with looked := some state.clock, returned := some state.clock } }

def setEvent (thread : T) (call event : Nat) : State T :=
  { state.move thread (.releaseOld call event) with
    isSet := Function.update state.isSet event true
    signal := Function.update state.signal call { state.signal call with hasSet := true } }

def releaseOld (thread : T) (call event : Nat) : State T :=
  { (state.unref event).move thread .outside with
    signal := Function.update state.signal call { state.signal call with returned := some state.clock } }

def advance (thread : T) : Option (State T) :=
  match state.phase thread with
  | .outside => none
  | .unlock event captured timed => some (state.move thread (.waitForSingleObject event captured timed))
  | .waitForSingleObject event captured _ =>
      if state.isSet event then some (state.move thread (.lock event captured false)) else none
  | .lock event captured timedOut => some (state.move thread (.releaseEvent event captured timedOut))
  | .releaseEvent event _ _ => some ((state.unref event).move thread .outside)
  | .detach call => some (state.detach thread call)
  | .setEvent call event => some (state.setEvent thread call event)
  | .releaseOld call event => some (state.releaseOld thread call event)

def act : Action T → Option (State T)
  | .wait thread timed => match state.phase thread with
      | .outside => some (state.capture thread timed)
      | _ => none
  | .signalAll thread => match state.phase thread with
      | .outside => some (state.begin thread)
      | _ => none
  | .advance thread => state.advance thread
  | .timeout thread => match state.phase thread with
      | .waitForSingleObject event captured true => some (state.move thread (.lock event captured true))
      | _ => none

def tick : State T :=
  { state with clock := state.clock + 1 }

end State

def step [DecidableEq T] (state : State T) (action : Action T) : Option (State T) :=
  (state.act action).map State.tick

abbrev Reached [DecidableEq T] (state : State T) : Prop :=
  Lib.Reachable step Lib.anyAction .init state

def FirstAfter (state : State T) (time call : Nat) : Prop :=
  ∃ event looked, (state.signal call).detached = some event ∧ (state.signal call).looked = some looked ∧
    time < looked ∧ ∀ other < state.signals, ∀ later, (state.signal other).detached.isSome = true →
      (state.signal other).looked = some later → time < later → looked ≤ later

structure WakesRight [DecidableEq T] (state : State T) : Prop where
  /-- The event of a waiter is taken by the first call that takes one after the capture, by no other, -/
  first : ∀ waiter event captured, (state.phase waiter).captured = some (event, captured) →
    ∀ call < state.signals, (state.signal call).detached = some event ↔ FirstAfter state captured call
  once : ∀ call < state.signals, ∀ other < state.signals, ∀ event,
    (state.signal call).detached = some event → (state.signal other).detached = some event → call = other
  /-- and is set by the call that took it. -/
  setBy : ∀ event, state.isSet event = true ↔
    ∃ call < state.signals, (state.signal call).detached = some event ∧ (state.signal call).hasSet = true
  /-- When a call that began after the capture has returned, and so have all that began before it
  returned, the event is set and the waiter can go on. -/
  released : ∀ waiter event captured, (state.phase waiter).captured = some (event, captured) →
    ∀ call < state.signals, captured < (state.signal call).began →
    ∀ time, (state.signal call).returned = some time →
    (∀ other < state.signals, (state.signal other).began < time → (state.signal other).returned.isSome = true) →
      state.isSet event = true ∧ ∀ timed, state.phase waiter = .waitForSingleObject event captured timed →
        ∃ after, step state (.advance waiter) = some after ∧ after.phase waiter = .lock event captured false
  notBefore : ∀ waiter event captured, (state.phase waiter).captured = some (event, captured) →
    ∀ call < state.signals, ∀ looked, (state.signal call).detached = some event →
      (state.signal call).looked = some looked → captured < looked
  open_ : ∀ waiter event captured, (state.phase waiter).captured = some (event, captured) →
    state.closed event = false

end ThreadIpc.CondVar
