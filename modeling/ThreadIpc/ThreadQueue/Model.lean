import ThreadIpc.Lib.Reachability
import ThreadIpc.ThreadQueue.Event

/-!
# `ThreadSpecificQueue` and the threads that use it

One queue, its owner thread `threadId` and any number of senders. A critical section of
`event_queue_mutex_` or of the event's `mutex_` is one step, everything between two critical
sections of one thread is free to interleave.
-/

namespace ThreadIpc.ThreadQueue

structure Message (D : Type) where
  messageType : Int32
  messageData : D
  deriving DecidableEq, Repr

structure Posted (T D : Type) where
  sender : T
  message : Message D
  deriving DecidableEq, Repr

inductive SenderState
  | idle
  | pushed
  deriving DecidableEq, Repr

inductive OwnerCall
  | getAndDispatchMessages (exitType : Int32)
  | runOnce
  deriving DecidableEq, Repr

inductive OwnerState (T D : Type)
  | idle
  | waiting (call : OwnerCall)
  | popping (call : OwnerCall)
  | dispatching (call : OwnerCall) (localEventQueue : List (Posted T D))
  | handling (call : OwnerCall) (localEventQueue : List (Posted T D))
  deriving DecidableEq, Repr

def OwnerState.call? {T D : Type} : OwnerState T D → Option OwnerCall
  | .idle => none
  | .waiting call | .popping call | .dispatching call _ | .handling call _ => some call

structure State (T D : Type) where
  event : Event T
  eventQueue : List (Posted T D)
  sender : T → SenderState
  owner : OwnerState T D
  pushed : List (Posted T D)
  dispatched : List (Posted T D)
  calls : List OwnerCall
  exited : Bool

inductive Action (T D : Type)
  | push (thread : T) (message : Message D)
  | signal (thread : T)
  | call (call : OwnerCall)
  | wait
  | spuriousWakeup
  | popMessages
  | takeFront
  | handlerReturns
  deriving DecidableEq, Repr

variable {T D : Type}

def State.init : State T D where
  event := .new
  eventQueue := []
  sender := fun _ => .idle
  owner := .idle
  pushed := []
  dispatched := []
  calls := []
  exited := false

def State.localEventQueue (state : State T D) : List (Posted T D) :=
  match state.owner with
  | .dispatching _ batch | .handling _ batch => batch
  | _ => []

def State.popMessages (state : State T D) (call : OwnerCall) : State T D :=
  { state with eventQueue := [], owner := .dispatching call state.eventQueue }

def State.takeFront (state : State T D) (call : OwnerCall) :
    List (Posted T D) → State T D
  | [] => match call with
      | .runOnce => { state with owner := .idle }
      | .getAndDispatchMessages _ => { state with owner := .waiting call }
  | front :: rest =>
      if call = .getAndDispatchMessages front.message.messageType then
        { state with owner := .idle, exited := true }
      else
        { state with owner := .handling call rest, dispatched := state.dispatched ++ [front] }

section TakeFront
variable (state : State T D) (call : OwnerCall) (batch : List (Posted T D))

@[simp] theorem takeFront_event : (state.takeFront call batch).event = state.event := by
  unfold State.takeFront
  split <;> split <;> rfl

@[simp] theorem takeFront_eventQueue :
    (state.takeFront call batch).eventQueue = state.eventQueue := by
  unfold State.takeFront
  split <;> split <;> rfl

@[simp] theorem takeFront_sender : (state.takeFront call batch).sender = state.sender := by
  unfold State.takeFront
  split <;> split <;> rfl

@[simp] theorem takeFront_calls : (state.takeFront call batch).calls = state.calls := by
  unfold State.takeFront
  split <;> split <;> rfl

end TakeFront

variable [DecidableEq T]

def State.maySend (threadId : T) (state : State T D) (thread : T) : Bool :=
  state.sender thread == .idle &&
    (thread != threadId || match state.owner with
      | .idle | .handling _ _ => true
      | _ => false)

def State.push (state : State T D) (thread : T) (message : Message D) : State T D :=
  { state with
    eventQueue := state.eventQueue ++ [⟨thread, message⟩]
    pushed := state.pushed ++ [⟨thread, message⟩]
    sender := Function.update state.sender thread .pushed }

def State.signal (state : State T D) (thread : T) : State T D :=
  { state with
    event := state.event.signal
    sender := Function.update state.sender thread .idle }

def step (threadId : T) (state : State T D) : Action T D → Option (State T D)
  | .push thread message =>
      if state.maySend threadId thread then some (state.push thread message) else none
  | .signal thread => if state.sender thread = .pushed then some (state.signal thread) else none
  | .call call => match state.owner with
      | .idle =>
          if state.sender threadId = .idle then
            some { state with owner := .waiting call, calls := state.calls ++ [call] }
          else none
      | _ => none
  | .wait => match state.owner with
      | .waiting call =>
          -- a blocked thread takes no step until it is notified
          if state.event.waiter threadId = .blocked then none else
          match state.event.waitTest threadId with
          | (true, event) => some { state with event := event, owner := .popping call }
          | (false, event) => some { state with event := event }
      | _ => none
  | .spuriousWakeup => some { state with event := state.event.spuriousWakeup threadId }
  | .popMessages => match state.owner with
      | .popping call => some (state.popMessages call)
      | _ => none
  | .takeFront => match state.owner with
      | .dispatching call batch => some (state.takeFront call batch)
      | _ => none
  | .handlerReturns => match state.owner with
      | .handling call batch =>
          if state.sender threadId = .idle then some { state with owner := .dispatching call batch }
          else none
      | _ => none

inductive Moved (threadId : T) (state : State T D) : Action T D → State T D → Prop
  | push {thread message} (may : state.maySend threadId thread = true) :
      Moved threadId state (.push thread message) (state.push thread message)
  | signal {thread} (pushed : state.sender thread = .pushed) :
      Moved threadId state (.signal thread) (state.signal thread)
  | call {call} (idle : state.owner = .idle) :
      Moved threadId state (.call call)
        { state with owner := .waiting call, calls := state.calls ++ [call] }
  | waitLeft {call} (waiting : state.owner = .waiting call)
      (left : (state.event.waitTest threadId).1 = true) :
      Moved threadId state .wait
        { state with event := (state.event.waitTest threadId).2, owner := .popping call }
  | waitStays {call} (waiting : state.owner = .waiting call)
      (stays : (state.event.waitTest threadId).1 = false) :
      Moved threadId state .wait { state with event := (state.event.waitTest threadId).2 }
  | spuriousWakeup : Moved threadId state .spuriousWakeup
      { state with event := state.event.spuriousWakeup threadId }
  | popMessages {call} (popping : state.owner = .popping call) :
      Moved threadId state .popMessages (state.popMessages call)
  | takeFront {call batch} (dispatching : state.owner = .dispatching call batch) :
      Moved threadId state .takeFront (state.takeFront call batch)
  | handlerReturns {call batch} (handling : state.owner = .handling call batch) :
      Moved threadId state .handlerReturns { state with owner := .dispatching call batch }

theorem step_moved {threadId : T} {state after : State T D} {action : Action T D}
    (moved : step threadId state action = some after) : Moved threadId state action after := by
  cases action with
  | push thread message =>
      simp only [step, Option.ite_none_right_eq_some, Option.some.injEq] at moved
      exact moved.2 ▸ .push moved.1
  | signal thread =>
      simp only [step, Option.ite_none_right_eq_some, Option.some.injEq] at moved
      exact moved.2 ▸ .signal moved.1
  | call call =>
      simp only [step] at moved
      split at moved
      · rename_i idle
        split at moved
        · simp only [Option.some.injEq] at moved
          exact moved ▸ .call idle
        · contradiction
      · contradiction
  | wait =>
      simp only [step] at moved
      split at moved
      · rename_i call waiting
        split at moved
        · contradiction
        · split at moved
          · rename_i event test
            simp only [Option.some.injEq] at moved
            have same : event = (state.event.waitTest threadId).2 := by rw [test]
            exact moved ▸ same ▸ .waitLeft waiting (by rw [test])
          · rename_i event test
            simp only [Option.some.injEq] at moved
            have same : event = (state.event.waitTest threadId).2 := by rw [test]
            exact moved ▸ same ▸ .waitStays waiting (by rw [test])
      · contradiction
  | spuriousWakeup =>
      simp only [step, Option.some.injEq] at moved
      exact moved ▸ .spuriousWakeup
  | popMessages =>
      simp only [step] at moved
      split at moved
      · rename_i call popping
        simp only [Option.some.injEq] at moved
        exact moved ▸ .popMessages popping
      · contradiction
  | takeFront =>
      simp only [step] at moved
      split at moved
      · rename_i call batch dispatching
        simp only [Option.some.injEq] at moved
        exact moved ▸ .takeFront dispatching
      · contradiction
  | handlerReturns =>
      simp only [step] at moved
      split at moved
      · rename_i call batch handling
        split at moved
        · simp only [Option.some.injEq] at moved
          exact moved ▸ .handlerReturns handling
        · contradiction
      · contradiction

abbrev Reached (threadId : T) (state : State T D) : Prop :=
  Lib.Reachable (step threadId) Lib.anyAction .init state

end ThreadIpc.ThreadQueue
