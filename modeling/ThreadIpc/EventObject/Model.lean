import ThreadIpc.Lib.Reachability

/-!
# `Event`, step by step

`mutex_`, `signal_` and the condition variable step separately here. Any number of threads call
`Signal`, `Wait` and `WaitWithTimeout` on one `Event`. `pthread_cond_wait` releases the mutex and
blocks in one step; it may return without a notification, and a timed one may give up at any
moment, even after a notification. `pthread_cond_timedwait` never reports `EINTR`, so the loop
around it in `CondVar::WaitWithTimeout` runs once.
-/

namespace ThreadIpc.EventObject

inductive Call
  | signal
  | wait
  | waitWithTimeout (timeoutMilliseconds : Int32)
  deriving DecidableEq, Repr

inductive Outcome
  | signalled
  /-- left the loop and reset `signal_`: `true` of `WaitWithTimeout` -/
  | succeeded
  | gaveUp
  deriving DecidableEq, Repr

inductive Phase
  | outside
  | locking (call : Call)
  | testing (call : Call)
  | broadcasting
  | blocked (call : Call)
  /-- leaving `pthread_cond_wait`, without the mutex yet -/
  | woken (call : Call) (waitTimedOut : Bool)
  | waited (timeoutMilliseconds : Int32) (waitTimedOut : Bool)
  | leaving (call : Call) (outcome : Outcome)
  deriving DecidableEq, Repr

def Phase.holdsMutex : Phase → Bool
  | .testing _ | .broadcasting | .waited _ _ | .leaving _ _ => true
  | .outside | .locking _ | .blocked _ | .woken _ _ => false

def Phase.notify : Phase → Phase
  | .blocked call => .woken call false
  | other => other

structure Returned (T : Type) where
  thread : T
  call : Call
  outcome : Outcome
  resets : Nat
  deriving DecidableEq, Repr

structure State (T : Type) where
  signal_ : Bool
  owner : Option T
  phase : T → Phase
  signalsFoundClear : Nat
  successfulWaits : Nat
  resets : T → Nat
  returned : List (Returned T)

inductive Action (T : Type)
  | call (thread : T) (call : Call)
  | lock (thread : T)
  | test (thread : T)
  | timedwaitRefuses (thread : T)
  | signalAll (thread : T)
  | wakeup (thread : T)
  | timeout (thread : T)
  | checkWait (thread : T) (elapsed : Int32)
  | unlock (thread : T)
  deriving DecidableEq, Repr

variable {T : Type}

def State.init : State T where
  signal_ := false
  owner := none
  phase := fun _ => .outside
  signalsFoundClear := 0
  successfulWaits := 0
  resets := fun _ => 0
  returned := []

def State.signalAll (state : State T) : State T :=
  { state with phase := fun thread => (state.phase thread).notify }

/-- Back from the condition variable with the mutex: `Wait` tests at once, `WaitWithTimeout` looks
at what `CondVar::WaitWithTimeout` returned. -/
def Call.afterWait (waitTimedOut : Bool) : Call → Phase
  | .waitWithTimeout timeout => .waited timeout waitTimedOut
  | call => .testing call

variable [DecidableEq T]

def State.move (state : State T) (thread : T) (phase : Phase) : State T :=
  { state with phase := Function.update state.phase thread phase }

def State.begin (state : State T) (thread : T) (call : Call) : State T :=
  { state.move thread (.locking call) with resets := Function.update state.resets thread 0 }

def State.take (state : State T) (thread : T) (phase : Phase) : State T :=
  { state.move thread phase with owner := some thread }

def State.testSignal (state : State T) (thread : T) : State T :=
  if state.signal_ then state.move thread (.leaving .signal .signalled) else
    { state.move thread .broadcasting with
      signal_ := true
      signalsFoundClear := state.signalsFoundClear + 1 }

def State.testWait (state : State T) (thread : T) (call : Call) : State T :=
  if state.signal_ then
    { state.move thread (.leaving call .succeeded) with
      signal_ := false
      successfulWaits := state.successfulWaits + 1
      resets := Function.update state.resets thread (state.resets thread + 1) }
  else { state.move thread (.blocked call) with owner := none }

def State.test (state : State T) (thread : T) : Call → State T
  | .signal => state.testSignal thread
  | call => state.testWait thread call

def State.checkWait (state : State T) (thread : T) (timeout : Int32) (waitTimedOut : Bool)
    (elapsed : Int32) : State T :=
  if waitTimedOut then state.move thread (.leaving (.waitWithTimeout timeout) .gaveUp)
  else if state.signal_ then state.move thread (.testing (.waitWithTimeout timeout))
  else if timeout - elapsed ≤ 0 then
    state.move thread (.leaving (.waitWithTimeout (timeout - elapsed)) .gaveUp)
  else state.move thread (.testing (.waitWithTimeout (timeout - elapsed)))

def State.unlock (state : State T) (thread : T) (call : Call) (outcome : Outcome) : State T :=
  { state.move thread .outside with
    owner := none
    returned := state.returned ++ [⟨thread, call, outcome, state.resets thread⟩] }

def step (state : State T) : Action T → Option (State T)
  | .call thread call => match state.phase thread with
      | .outside => some (state.begin thread call)
      | _ => none
  | .lock thread => match state.owner, state.phase thread with
      | none, .locking call => some (state.take thread (.testing call))
      | none, .woken call waitTimedOut => some (state.take thread (call.afterWait waitTimedOut))
      | _, _ => none
  | .test thread => match state.phase thread with
      | .testing call => some (state.test thread call)
      | _ => none
  | .timedwaitRefuses thread => match state.signal_, state.phase thread with
      -- `EINVAL` for a time with negative nanoseconds, without giving the mutex away
      | false, .testing (.waitWithTimeout timeout) => some (state.move thread (.waited timeout false))
      | _, _ => none
  | .signalAll thread => match state.phase thread with
      | .broadcasting => some (state.signalAll.move thread (.leaving .signal .signalled))
      | _ => none
  | .wakeup thread => match state.phase thread with
      | .blocked call => some (state.move thread (.woken call false))
      | _ => none
  | .timeout thread => match state.phase thread with
      | .blocked (.waitWithTimeout timeout) | .woken (.waitWithTimeout timeout) _ =>
          some (state.move thread (.woken (.waitWithTimeout timeout) true))
      | _ => none
  | .checkWait thread elapsed => match state.phase thread with
      | .waited timeout waitTimedOut => some (state.checkWait thread timeout waitTimedOut elapsed)
      | _ => none
  | .unlock thread => match state.phase thread with
      | .leaving call outcome => some (state.unlock thread call outcome)
      | _ => none

abbrev Reached (state : State T) : Prop :=
  Lib.Reachable step Lib.anyAction .init state

end ThreadIpc.EventObject
