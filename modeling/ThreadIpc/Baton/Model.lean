import ThreadIpc.Lib.Reachability
import ThreadIpc.Lib.RecursiveMutex

/-!
# `Baton`

The instances of one name, the threads that use them and the processes they live in. The mutex and
the event of that name exist while an instance has its handles open; `init` opens or creates both at
one moment, and an instance whose handles are closed has none. Every call of the system in `get`,
`pass` and `finish` is a step of its own, and so is the write of `mutex_got_` behind it. A thread or
a whole process may end at any moment. A failed assertion is passed, as in a build without them.
-/

namespace ThreadIpc.Baton
open Lib (RecursiveMutex)

structure Hosts (T I P : Type) where
  thread : T → P
  baton : I → P

inductive Call
  | get
  | pass
  | finish
  deriving DecidableEq, Repr

inductive Phase (I : Type)
  | outside
  | waitMutex (baton : I)
  | waitEvent (baton : I)
  /-- in `get`, the event is signalled -/
  | releaseDone (baton : I)
  | proceed (baton : I)
  | releasePass (baton : I)
  | clearGot (baton : I)
  | setEvent (baton : I)
  /-- in `finish`, `mutex_.Release()`, with `ret` -/
  | releaseFinish (baton : I) (ret : Bool)
  | ended
  deriving DecidableEq, Repr

structure Returned (T I : Type) where
  thread : T
  call : Call
  baton : I
  result : Bool
  deriving DecidableEq, Repr

def Returned.finished {T I : Type} (returned : Returned T I) : Bool :=
  returned.call = .finish && returned.result

def Returned.got {T I : Type} (returned : Returned T I) : Bool :=
  returned.call = .get && returned.result

structure State (T I : Type) where
  opened : List I
  mutex : RecursiveMutex T
  signalled : Bool
  mutexGot_ : I → Bool
  phase : T → Phase I
  /-- the thread to which `get` has returned the baton, until it is released by the instance -/
  holding : I → Option T
  returned : List (Returned T I)

inductive Action (T I P : Type)
  /-- `created` is false where the system refuses. -/
  | init (thread : T) (baton : I) (created : Bool)
  | call (thread : T) (call : Call) (baton : I)
  | advance (thread : T)
  | threadEnds (thread : T)
  | processEnds (process : P)
  deriving DecidableEq, Repr

variable {T I P : Type}

def State.init : State T I where
  opened := []
  mutex := .free
  signalled := false
  mutexGot_ := fun _ => false
  phase := fun _ => .outside
  holding := fun _ => none
  returned := []

namespace State
variable (state : State T I)

def endThreads (ended : T → Bool) (closed : I → Bool) : State T I :=
  { state with
    opened := state.opened.filter fun baton => !closed baton
    mutex := state.mutex.abandon ended
    phase := fun thread => if ended thread then .ended else state.phase thread
    holding := fun baton => (state.holding baton).filter fun thread => !ended thread }

/-- `init` of an instance; the objects are new if no instance has them open. -/
def open_ (baton : I) : State T I :=
  { state with
    opened := baton :: state.opened
    mutex := if state.opened.isEmpty then .free else state.mutex
    signalled := !state.opened.isEmpty && state.signalled }

variable [DecidableEq T] [DecidableEq I]

def move (thread : T) (phase : Phase I) : State T I :=
  { state with phase := Function.update state.phase thread phase }

def return_ (thread : T) (call : Call) (baton : I) (result : Bool) : State T I :=
  { state.move thread .outside with returned := state.returned ++ [⟨thread, call, baton, result⟩] }

def release (thread : T) (baton : I) : Option (RecursiveMutex T) :=
  if baton ∈ state.opened then state.mutex.release thread else none

def waitMutex (thread : T) (baton : I) : Option (State T I) :=
  (state.mutex.acquire thread).map fun mutex => { state.move thread (.waitEvent baton) with mutex := mutex }

def waitEvent (thread : T) (baton : I) : State T I :=
  if baton ∈ state.opened ∧ state.signalled then state.move thread (.releaseDone baton)
  else state.move thread (.proceed baton)

def releaseDone (thread : T) (baton : I) : State T I :=
  { state.return_ thread .get baton false with mutex := (state.release thread baton).getD state.mutex }

def proceed (thread : T) (baton : I) : State T I :=
  { state.return_ thread .get baton true with
    mutexGot_ := Function.update state.mutexGot_ baton true
    holding := Function.update state.holding baton (some thread) }

def releasePass (thread : T) (baton : I) : State T I :=
  match state.release thread baton with
  | some mutex =>
      { state.move thread (.clearGot baton) with
        mutex := mutex
        holding := Function.update state.holding baton none }
  | none => state.return_ thread .pass baton false

def clearGot (thread : T) (baton : I) : State T I :=
  { state.return_ thread .pass baton true with
    mutexGot_ := Function.update state.mutexGot_ baton false }

def setEvent (thread : T) (baton : I) : State T I :=
  if baton ∈ state.opened then { state.move thread (.releaseFinish baton true) with signalled := true }
  else state.move thread (.releaseFinish baton false)

def releaseFinish (thread : T) (baton : I) (ret : Bool) : State T I :=
  match state.release thread baton with
  | some mutex =>
      { state.return_ thread .finish baton ret with
        mutex := mutex
        holding := Function.update state.holding baton none }
  | none =>
      { state.return_ thread .finish baton false with
        opened := state.opened.filter fun other => !(other = baton : Bool) }

/-- The call, up to its first call of the system. `finish` leaves `mutex_got_` as it is. -/
def call (thread : T) (baton : I) : Call → State T I
  | .get => if baton ∈ state.opened then state.move thread (.waitMutex baton)
      else state.return_ thread .get baton false
  | .pass => if state.mutexGot_ baton then state.move thread (.releasePass baton)
      else state.return_ thread .pass baton false
  | .finish => if state.mutexGot_ baton then state.move thread (.setEvent baton)
      else state.return_ thread .finish baton false

def advance (thread : T) : Option (State T I) :=
  match state.phase thread with
  | .outside | .ended => none
  | .waitMutex baton => state.waitMutex thread baton
  | .waitEvent baton => some (state.waitEvent thread baton)
  | .releaseDone baton => some (state.releaseDone thread baton)
  | .proceed baton => some (state.proceed thread baton)
  | .releasePass baton => some (state.releasePass thread baton)
  | .clearGot baton => some (state.clearGot thread baton)
  | .setEvent baton => some (state.setEvent thread baton)
  | .releaseFinish baton ret => some (state.releaseFinish thread baton ret)

end State

variable [DecidableEq T] [DecidableEq I] [DecidableEq P]

def State.mayCall (hosts : Hosts T I P) (state : State T I) (thread : T) (baton : I) : Prop :=
  state.phase thread = .outside ∧ hosts.thread thread = hosts.baton baton

instance (hosts : Hosts T I P) (state : State T I) (thread : T) (baton : I) :
    Decidable (state.mayCall hosts thread baton) :=
  inferInstanceAs (Decidable (_ ∧ _))

def step (hosts : Hosts T I P) (state : State T I) : Action T I P → Option (State T I)
  | .init thread baton created =>
      if state.mayCall hosts thread baton ∧ baton ∉ state.opened then
        some (if created then state.open_ baton else state)
      else none
  | .call thread call baton =>
      if state.mayCall hosts thread baton then some (state.call thread baton call) else none
  | .advance thread => state.advance thread
  | .threadEnds thread => some (state.endThreads (fun other => other = thread) fun _ => false)
  | .processEnds process =>
      some (state.endThreads (fun thread => hosts.thread thread = process)
        fun baton => hosts.baton baton = process)

omit [DecidableEq P]

/-- A thread that owns the mutex does not call `get`; a thread does not call `finish`, or `pass` while
it owns the mutex, of an instance that has kept `mutex_got_` from an earlier holder; and the event is
not created anew after a `finish` that succeeded. -/
def Allowed (state : State T I) : Action T I P → Prop
  | .init _ _ created => created = true → state.opened = [] → ∀ call ∈ state.returned, call.finished = false
  | .call thread .get _ => state.mutex.thread ≠ some thread
  | .call thread .pass baton => state.mutexGot_ baton = true → state.mutex.thread = some thread →
      state.holding baton = some thread
  | .call thread .finish baton => state.mutexGot_ baton = true → state.holding baton = some thread
  | _ => True

instance (state : State T I) : ∀ action : Action T I P, Decidable (Allowed state action)
  | .init _ _ created => inferInstanceAs
      (Decidable (created = true → state.opened = [] → ∀ call ∈ state.returned, call.finished = false))
  | .call thread .get _ => inferInstanceAs (Decidable (state.mutex.thread ≠ some thread))
  | .call thread .pass baton => inferInstanceAs (Decidable (state.mutexGot_ baton = true →
      state.mutex.thread = some thread → state.holding baton = some thread))
  | .call thread .finish baton =>
      inferInstanceAs (Decidable (state.mutexGot_ baton = true → state.holding baton = some thread))
  | .advance _ | .threadEnds _ | .processEnds _ => inferInstanceAs (Decidable True)

structure Exclusive (state : State T I) : Prop where
  one : ∀ baton other thread holder, state.holding baton = some thread → state.holding other = some holder →
    baton = other
  done : state.returned.Pairwise fun earlier later => earlier.finished = true → later.got = false

end ThreadIpc.Baton
