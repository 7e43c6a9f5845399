import Mathlib.Logic.Function.Basic

/-!
# `Event`

`Signal` and each test of the loop in `Wait` are critical sections of `mutex_` and so one step
each. `CondVar::Wait` releases the mutex and blocks in the same instant; a thread that has been
notified still has to take the mutex and test `signal_` again.
-/

namespace ThreadIpc.ThreadQueue

variable {T : Type}

inductive WaitState
  | outside
  | blocked
  | notified
  deriving DecidableEq, Repr

def WaitState.notify : WaitState → WaitState
  | .blocked => .notified
  | other => other

structure Event (T : Type) where
  signal_ : Bool
  waiter : T → WaitState

namespace Event

def new : Event T where
  signal_ := false
  waiter := fun _ => .outside

def signalAll (event : Event T) : Event T :=
  { event with waiter := fun thread => (event.waiter thread).notify }

def signal (event : Event T) : Event T :=
  if event.signal_ then event else { event with signal_ := true }.signalAll

def Awake (event : Event T) (thread : T) : Prop :=
  event.waiter thread = .blocked → event.signal_ = false

theorem notify_ne_blocked (w : WaitState) : w.notify ≠ .blocked := by
  cases w <;> simp [WaitState.notify]

theorem new_awake (thread : T) : (new : Event T).Awake thread := by
  simp [Awake, new]

theorem signal_signal_ (event : Event T) : event.signal.signal_ = true := by
  unfold signal
  split
  · assumption
  · rfl

theorem signal_awake (event : Event T) (thread : T) (awake : event.Awake thread) :
    event.signal.Awake thread := by
  unfold signal
  split
  · exact awake
  · intro blocked
    exact absurd blocked (notify_ne_blocked _)

variable [DecidableEq T]

def waitTest (event : Event T) (thread : T) : Bool × Event T :=
  if event.signal_ then
    (true, { signal_ := false, waiter := Function.update event.waiter thread .outside })
  else (false, { event with waiter := Function.update event.waiter thread .blocked })

def spuriousWakeup (event : Event T) (thread : T) : Event T :=
  { event with waiter := Function.update event.waiter thread (event.waiter thread).notify }

theorem waitTest_stays {event : Event T} {thread : T} (stays : (event.waitTest thread).1 = false) :
    (event.waitTest thread).2.signal_ = event.signal_ := by
  unfold waitTest at stays ⊢
  split at stays
  · contradiction
  · simp_all

theorem waitTest_left {event : Event T} {thread : T} (left : (event.waitTest thread).1 = true) :
    event.signal_ = true ∧ (event.waitTest thread).2.signal_ = false := by
  unfold waitTest at left ⊢
  split at left
  · simp_all
  · contradiction

theorem waitTest_awake (event : Event T) (thread other : T) :
    (event.waitTest thread).2.Awake other := by
  intro _
  unfold waitTest
  cases event.signal_
  · simp
  · rfl

theorem spuriousWakeup_awake (event : Event T) (thread other : T) (awake : event.Awake other) :
    (event.spuriousWakeup thread).Awake other := by
  intro blocked
  simp only [spuriousWakeup, Function.update_apply] at blocked ⊢
  split at blocked
  · exact absurd blocked (notify_ne_blocked _)
  · exact awake blocked

end Event

end ThreadIpc.ThreadQueue
