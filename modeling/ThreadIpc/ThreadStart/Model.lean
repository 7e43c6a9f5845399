import ThreadIpc.Lib.Reachability
import ThreadIpc.ThreadQueue.Event

/-!
# Starting and joining a `Thread`

One `Thread` object, the parent that calls `Start`, `Join` and the destructor, and the children
that `pthread_create` has made for it, numbered in order. Each statement of `ThreadMain` is a step
of the child; `started_event_` is the `Event` of the thread queues. `pthread_self` is never 0, so
`thread_id_ == 0` is `none`. A failed assertion is recorded and the run goes on, as in a build
without assertions. Other threads register and unregister their own queues at any time.
-/

namespace ThreadIpc.ThreadStart
open ThreadQueue (Event)

inductive ChildPhase
  | initThreadMessageQueue
  | setThreadId
  | setRunning
  | signal
  | run
  | clearRunning
  | threadEndHook
  | terminate
  | terminated
  deriving DecidableEq, Repr

namespace ChildPhase

def next : ChildPhase → ChildPhase
  | .initThreadMessageQueue => .setThreadId
  | .setThreadId => .setRunning
  | .setRunning => .signal
  | .signal => .run
  | .run => .clearRunning
  | .clearRunning => .threadEndHook
  | .threadEndHook => .terminate
  | .terminate | .terminated => .terminated

def hasQueue : ChildPhase → Bool
  | .initThreadMessageQueue | .terminate | .terminated => false
  | _ => true

def hasSetThreadId : ChildPhase → Bool
  | .initThreadMessageQueue | .setThreadId => false
  | _ => true

def hasSignalled : ChildPhase → Bool
  | .initThreadMessageQueue | .setThreadId | .setRunning | .signal => false
  | _ => true

def mayBeRunning : ChildPhase → Bool
  | .signal | .run | .clearRunning => true
  | _ => false

def hookPending : ChildPhase → Bool
  | .terminate | .terminated => false
  | _ => true

end ChildPhase

structure Child (T : Type) where
  id : T
  phase : ChildPhase
  hooked : Bool
  deriving DecidableEq, Repr

inductive Parent
  | idle
  | waiting
  | started
  | joining
  | destroyed
  deriving DecidableEq, Repr

structure State (T : Type) where
  isRunning : Bool
  threadId : Option T
  startedEvent : Event Unit
  handle : Option Nat
  messageQueues : T → Bool
  child : Nat → Child T
  created : Nat
  parent : Parent
  returned : List (T × Nat)
  /-- `Start` has returned an id since the last `Join`. -/
  needsJoin : Bool
  assertFailed : Bool
  usedAfterDestruction : Bool

inductive Action (T : Type)
  | start (create : Option T)
  | wait
  | spuriousWakeup
  | startReturns
  | join
  | joinReturns
  | destroy
  | child (number : Nat)
  | other (id : T) (registered : Bool)
  deriving DecidableEq, Repr

variable {T : Type} [DecidableEq T]

def State.init (main : T) (messageQueues : T → Bool) : State T where
  isRunning := false
  threadId := none
  startedEvent := .new
  handle := none
  messageQueues := messageQueues
  child := fun _ => ⟨main, .terminated, false⟩
  created := 0
  parent := .idle
  returned := []
  needsJoin := false
  assertFailed := false
  usedAfterDestruction := false

namespace State
variable (state : State T)

def send (thread : T) : Bool :=
  state.messageQueues thread

def assert (condition : Bool) : State T :=
  { state with assertFailed := state.assertFailed || !condition }

def touch : State T :=
  { state with usedAfterDestruction := state.usedAfterDestruction || state.parent == .destroyed }

def setPhase (number : Nat) (phase : ChildPhase) : State T :=
  { state with
    child := Function.update state.child number { state.child number with phase := phase } }

def initThreadMessageQueue (main : T) (number : Nat) : State T :=
  let threadId := (state.child number).id
  if state.messageQueues threadId then state else
    { state with
      child := Function.update state.child number
        { state.child number with hooked := threadId ≠ main }
      messageQueues := Function.update state.messageQueues threadId true }

def threadEndHook (number : Nat) : State T :=
  if (state.child number).hooked then
    { state with
      messageQueues := Function.update state.messageQueues (state.child number).id false }
  else state

def threadMain (main : T) (number : Nat) : ChildPhase → State T
  | .initThreadMessageQueue => state.initThreadMessageQueue main number
  | .setThreadId => { state.touch with threadId := some (state.child number).id }
  | .setRunning => { state.touch with isRunning := true }
  | .signal => { state.touch with startedEvent := state.startedEvent.signal }
  | .clearRunning => { state.touch with isRunning := false }
  | .threadEndHook => state.threadEndHook number
  | .run | .terminate | .terminated => state

def childStep (main : T) (number : Nat) : State T :=
  let phase := (state.child number).phase
  (state.threadMain main number phase).setPhase number phase.next

def mayRegister (id : T) : Bool :=
  (List.range state.created).all fun number =>
    !((state.child number).phase.hookPending && (state.child number).id = id)

/-- `pthread_create` never gives the id of a thread that has not terminated. -/
def isFresh (id : T) : Bool :=
  (List.range state.created).all fun number =>
    (state.child number).phase = .terminated || (state.child number).id ≠ id

def start : Option T → State T
  | some id =>
      { state.assert (!state.isRunning && state.threadId.isNone && state.handle.isNone) with
        handle := some state.created
        child := Function.update state.child state.created ⟨id, .initThreadMessageQueue, false⟩
        created := state.created + 1
        parent := .waiting }
  | none =>
      { state.assert (!state.isRunning && state.threadId.isNone && state.handle.isNone) with
        handle := none }

def startReturns : State T :=
  match state.threadId with
  | some id => { state with
      parent := .idle, returned := state.returned ++ [(id, state.created - 1)], needsJoin := true }
  | none => { state.assert false with parent := .idle }

def join : State T :=
  match state.threadId with
  | some _ => { state with parent := .joining }
  | none => { state with needsJoin := false }

def joinReturns : State T :=
  { state with handle := none, threadId := none, parent := .idle, needsJoin := false }

def handleTerminated : Bool :=
  match state.handle with
  | some number => (state.child number).phase = .terminated
  | none => true

def destroy : State T :=
  { state.assert (!state.isRunning && state.threadId.isNone && state.handle.isNone) with
    parent := .destroyed }

end State

def step (main : T) (state : State T) : Action T → Option (State T)
  | .start create =>
      if state.parent = .idle ∧ create.all state.isFresh then some (state.start create) else none
  | .wait =>
      if state.parent = .waiting ∧ state.startedEvent.waiter () ≠ .blocked then
        match state.startedEvent.waitTest () with
        | (true, event) => some { state with startedEvent := event, parent := .started }
        | (false, event) => some { state with startedEvent := event }
      else none
  | .spuriousWakeup => some { state with startedEvent := state.startedEvent.spuriousWakeup () }
  | .startReturns => if state.parent = .started then some state.startReturns else none
  | .join => if state.parent = .idle then some state.join else none
  | .joinReturns =>
      if state.parent = .joining ∧ state.handleTerminated then some state.joinReturns else none
  | .destroy => if state.parent = .idle then some state.destroy else none
  | .child number => if number < state.created then some (state.childStep main number) else none
  | .other id registered =>
      if state.mayRegister id then
        some { state with messageQueues := Function.update state.messageQueues id registered }
      else none

abbrev Reached (main : T) (queues : T → Bool) (state : State T) : Prop :=
  Lib.Reachable (step main) Lib.anyAction (.init main queues) state

/-- Between a `Start` that returned an id and the next `Start` or the destructor there is a `Join`. -/
def joinsFirst (state : State T) : Action T → Prop
  | .start _ | .destroy => state.needsJoin = false
  | _ => True

instance (state : State T) : (action : Action T) → Decidable (joinsFirst state action)
  | .start _ => inferInstanceAs (Decidable (state.needsJoin = false))
  | .destroy => inferInstanceAs (Decidable (state.needsJoin = false))
  | .wait => inferInstanceAs (Decidable True)
  | .spuriousWakeup => inferInstanceAs (Decidable True)
  | .startReturns => inferInstanceAs (Decidable True)
  | .join => inferInstanceAs (Decidable True)
  | .joinReturns => inferInstanceAs (Decidable True)
  | .child _ => inferInstanceAs (Decidable True)
  | .other _ _ => inferInstanceAs (Decidable True)

end ThreadIpc.ThreadStart
