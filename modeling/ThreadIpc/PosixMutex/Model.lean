import Mathlib.Logic.Function.Basic
import ThreadIpc.Lib.Reachability

/-!
# `Mutex` with its owner

`Mutex` and `CondVar` on POSIX where `DEBUG` is defined: one mutex and one condition, any number of threads,
which may also call what they must not. Each read and each write of `owner_` is a step, as is what
`pthread_mutex_lock` and the other functions do to the mutex. `pthread_cond_wait` may return at any time. An
assertion that fails stops the program. What `WaitWithTimeout` returns is left out.
-/

namespace ThreadIpc.PosixMutex

inductive Retcode
  | done
  | timedOut
  | interrupted
  deriving DecidableEq

inductive Stage
  | outside
  | inside
  | locking
  | locked
  | assigning
  /-- In front of `owner_ = 0` in `Unlock`, or in a wait that is timed or is not. -/
  | clearing (waits : Option Bool)
  | unlocking
  | waiting (timed : Bool)
  | asleep (timed : Bool)
  | waking (timed : Bool) (retcode : Retcode)
  deriving DecidableEq

structure State (T : Type) where
  mutex : Option T
  owner : Option T
  stage : T → Stage

inductive Machine (T : Type)
  | running (state : State T)
  | aborted

inductive Action
  | lock
  | unlock
  | wait (timed : Bool)
  | acquire
  | checkUnowned
  | assignOwner
  | clearOwner
  | release
  | wake (retcode : Retcode)
  deriving DecidableEq

variable {T : Type} [DecidableEq T]

namespace State

def init : State T where
  mutex := none
  owner := none
  stage _ := .outside

variable (state : State T) (thread : T)

def setStage (stage : Stage) : State T := { state with stage := Function.update state.stage thread stage }

@[simp] theorem setStage_self (stage : Stage) : (state.setStage thread stage).stage thread = stage :=
  Function.update_self ..

theorem setStage_of_ne {other : T} (different : other ≠ thread) (stage : Stage) :
    (state.setStage thread stage).stage other = state.stage other :=
  Function.update_of_ne different ..

def runsUserCode : Bool := state.stage thread = .outside || state.stage thread = .inside

def lock : Machine T :=
  if state.owner = some thread then .aborted else .running (state.setStage thread .locking)

def leave (waits : Option Bool) : Machine T :=
  if state.owner ≠ some thread then .aborted else .running (state.setStage thread (.clearing waits))

/-- `pthread_cond_timedwait` is called again when it was interrupted. -/
def acquire : Option (State T) :=
  if state.mutex ≠ none then none
  else match state.stage thread with
    | .locking => some { state.setStage thread .locked with mutex := some thread }
    | .waking timed retcode => some
        { state.setStage thread (if timed = true ∧ retcode = .interrupted then .waiting timed else .locked) with
          mutex := some thread }
    | _ => none

def release : Option (State T) :=
  match state.stage thread with
  | .unlocking => some { state.setStage thread .outside with mutex := none }
  | .waiting timed => some { state.setStage thread (.asleep timed) with mutex := none }
  | _ => none

end State

def step : Machine T → T × Action → Option (Machine T)
  | .aborted, _ => none
  | .running state, (thread, .lock) =>
      if state.runsUserCode thread then some (state.lock thread) else none
  | .running state, (thread, .unlock) =>
      if state.runsUserCode thread then some (state.leave thread none) else none
  | .running state, (thread, .wait timed) =>
      if state.runsUserCode thread then some (state.leave thread (some timed)) else none
  | .running state, (thread, .acquire) => (state.acquire thread).map .running
  | .running state, (thread, .checkUnowned) => match state.stage thread with
      | .locked => some
          (if state.owner ≠ none then .aborted else .running (state.setStage thread .assigning))
      | _ => none
  | .running state, (thread, .assignOwner) => match state.stage thread with
      | .assigning => some (.running { state.setStage thread .inside with owner := some thread })
      | _ => none
  | .running state, (thread, .clearOwner) => match state.stage thread with
      | .clearing none => some (.running { state.setStage thread .unlocking with owner := none })
      | .clearing (some timed) => some
          (.running { state.setStage thread (.waiting timed) with owner := none })
      | _ => none
  | .running state, (thread, .release) => (state.release thread).map .running
  | .running state, (thread, .wake retcode) => match state.stage thread with
      | .asleep timed => some (.running (state.setStage thread (.waking timed retcode)))
      | _ => none

/-- To lock the mutex once more, and to unlock it or wait without it. -/
def Misuse (state : State T) : T × Action → Prop
  | (thread, .lock) => state.stage thread = .inside
  | (thread, .unlock) | (thread, .wait _) => state.stage thread = .outside
  | _ => False

end ThreadIpc.PosixMutex
