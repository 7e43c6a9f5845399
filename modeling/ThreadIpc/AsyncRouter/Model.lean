import ThreadIpc.ThreadQueue.Model

/-!
# Thread queues, their registry and `CallSync`

All threads and all queues of a process. Lookups and the end hook are critical sections of
`queue_mutex_` without any other lock, so one step each; `Send` keeps the mutex while it pushes and
signals, step by step. A queue is a number that is never used twice: what is still done to a queue
that the end hook has deleted is done to a dead object. A thread that has ended may be followed by
another thread with the same id. `main` is the id of the main thread, which has no end hook.
-/

namespace ThreadIpc.AsyncRouter
open ThreadQueue

/-- The data of a message is the handled event of a `SyncFunctor`, if it is one. -/
abbrev Message := ThreadQueue.Message (Option Nat)

def kAndroidLoopExit : Int32 := 3

def kSyncRouterCall : Int32 := 4

def exitMessage : Message := ⟨kAndroidLoopExit, none⟩

def functorMessage (call : Nat) : Message := ⟨kSyncRouterCall, some call⟩

def androidLoopStart : OwnerCall := .getAndDispatchMessages kAndroidLoopExit

structure Queue (T : Type) where
  event : Event T
  eventQueue : List Message

inductive Phase
  | waiting
  | popping
  | dispatching (localEventQueue : List Message)
  | handling (message : Message) (localEventQueue : List Message)
  deriving DecidableEq

structure Frame where
  call : OwnerCall
  queue : Nat
  phase : Phase
  deriving DecidableEq

inductive Stage
  | find
  | push (queue : Nat)
  | signal (queue : Nat)
  | unlock
  deriving DecidableEq

inductive Activity (T : Type)
  | free
  | send (target : T) (message : Message) (stage : Stage)
  /-- `looping` tells whether the target was in `Start` when `Stop` was called. -/
  | stop (target : T) (looping : Bool) (stage : Stage)
  | enter (call : OwnerCall)
  | await (target : T) (call : Nat)
  | failed (looping : Bool)
  deriving DecidableEq

structure Thread (T : Type) where
  frames : List Frame
  activity : Activity T
  deriving DecidableEq

structure State (T : Type) where
  queue : Nat → Queue T
  messageQueues : T → Option Nat
  nextQueue : Nat
  queueMutex : Option T
  thread : T → Thread T
  signalled : Nat → Bool
  nextCall : Nat

inductive Action (T : Type)
  | initThreadMessageQueue
  | send (target : T) (messageType : Int32)
  | callSync (target : T)
  | stop (target : T)
  | enter (call : OwnerCall)
  | lookUp
  | push
  | signal
  | unlock
  | awaken
  | wait
  | spuriousWakeup
  | popMessages
  | takeFront
  | handlerReturns
  | threadEndHook
  deriving DecidableEq

variable {T : Type} [DecidableEq T]

def State.init : State T where
  queue := fun _ => ⟨.new, []⟩
  messageQueues := fun _ => none
  nextQueue := 0
  queueMutex := none
  thread := fun _ => ⟨[], .free⟩
  signalled := fun _ => false
  nextCall := 0

namespace State
variable (state : State T)

def runsUserCode (thread : T) : Bool :=
  (state.thread thread).activity = .free && match (state.thread thread).frames with
    | [] | ⟨_, _, .handling _ _⟩ :: _ => true
    | _ => false

def isLooping (thread : T) : Bool :=
  (state.thread thread).frames.any fun frame => frame.call = androidLoopStart

def setActivity (thread : T) (activity : Activity T) : State T :=
  { state with
    thread := Function.update state.thread thread ⟨(state.thread thread).frames, activity⟩ }

def setFrames (thread : T) (frames : List Frame) : State T :=
  { state with
    thread := Function.update state.thread thread ⟨frames, (state.thread thread).activity⟩ }

def setQueue (queue : Nat) (content : Queue T) : State T :=
  { state with queue := Function.update state.queue queue content }

def pushMessage (queue : Nat) (message : Message) : State T :=
  state.setQueue queue
    { state.queue queue with eventQueue := (state.queue queue).eventQueue ++ [message] }

def signalQueue (queue : Nat) : State T :=
  state.setQueue queue { state.queue queue with event := (state.queue queue).event.signal }

def addQueue (thread : T) : State T :=
  { state.setQueue state.nextQueue ⟨.new, []⟩ with
    messageQueues := Function.update state.messageQueues thread (some state.nextQueue)
    nextQueue := state.nextQueue + 1 }

def handled (message : Message) : State T :=
  match message.messageData with
  | some call => { state with signalled := Function.update state.signalled call true }
  | none => state

end State

def lookUp (state : State T) (thread : T) : Option (State T) :=
  if state.queueMutex ≠ none then none else
  match (state.thread thread).activity with
  | .send target message .find => match state.messageQueues target with
      | none => some (state.setActivity thread .free)
      | some queue => some
          { state.setActivity thread (.send target message (.push queue)) with
            queueMutex := some thread }
  | .stop target looping .find => match state.messageQueues target with
      | none => some (state.setActivity thread (.failed looping))
      | some queue => some (state.setActivity thread (.stop target looping (.push queue)))
  | .enter call => match state.messageQueues thread with
      | none => some (state.setActivity thread (.failed false))
      | some queue => some ((state.setActivity thread .free).setFrames thread
          (⟨call, queue, .waiting⟩ :: (state.thread thread).frames))
  | _ => none

def sendMessage (state : State T) (thread : T) : Action T → Option (State T)
  | .push => match (state.thread thread).activity with
      | .send target message (.push queue) => some ((state.pushMessage queue message).setActivity
          thread (.send target message (.signal queue)))
      | .stop target looping (.push queue) => some ((state.pushMessage queue exitMessage).setActivity
          thread (.stop target looping (.signal queue)))
      | _ => none
  | .signal => match (state.thread thread).activity with
      | .send target message (.signal queue) => some ((state.signalQueue queue).setActivity
          thread (.send target message .unlock))
      | .stop _ _ (.signal queue) => some ((state.signalQueue queue).setActivity thread .free)
      | _ => none
  | _ => none

def takeFront (state : State T) (thread : T) (frame : Frame) (outer : List Frame) :
    List Message → State T
  | [] => match frame.call with
      | .runOnce => state.setFrames thread outer
      | .getAndDispatchMessages _ => state.setFrames thread ({ frame with phase := .waiting } :: outer)
  | front :: rest =>
      if frame.call = .getAndDispatchMessages front.messageType then state.setFrames thread outer
      else state.setFrames thread ({ frame with phase := .handling front rest } :: outer)

def loopStep (state : State T) (thread : T) (action : Action T) (frame : Frame)
    (outer : List Frame) : Option (State T) :=
  match action, frame.phase with
  | .wait, .waiting =>
      let content := state.queue frame.queue
      if content.event.waiter thread = .blocked then none else
      match content.event.waitTest thread with
      | (true, event) => some ((state.setQueue frame.queue { content with event }).setFrames thread
          ({ frame with phase := .popping } :: outer))
      | (false, event) => some (state.setQueue frame.queue { content with event })
  | .spuriousWakeup, .waiting =>
      let content := state.queue frame.queue
      some (state.setQueue frame.queue
        { content with event := content.event.spuriousWakeup thread })
  | .popMessages, .popping =>
      let content := state.queue frame.queue
      some ((state.setQueue frame.queue { content with eventQueue := [] }).setFrames thread
        ({ frame with phase := .dispatching content.eventQueue } :: outer))
  | .takeFront, .dispatching batch => some (takeFront state thread frame outer batch)
  | .handlerReturns, .handling message batch =>
      if (state.thread thread).activity = .free then
        some ((state.handled message).setFrames thread
          ({ frame with phase := .dispatching batch } :: outer))
      else none
  | _, _ => none

def step (main : T) (state : State T) : T × Action T → Option (State T)
  | (thread, .initThreadMessageQueue) =>
      if state.runsUserCode thread ∧ state.queueMutex = none then
        match state.messageQueues thread with
        | some _ => some state
        | none => some (state.addQueue thread)
      else none
  | (thread, .send target messageType) =>
      -- only `CallSync` sends functors that have a handled event
      if state.runsUserCode thread ∧ messageType ≠ kSyncRouterCall then
        some (state.setActivity thread (.send target ⟨messageType, none⟩ .find))
      else none
  | (thread, .callSync target) =>
      if state.runsUserCode thread then
        some { state.setActivity thread (.send target (functorMessage state.nextCall) .find) with
          nextCall := state.nextCall + 1 }
      else none
  | (thread, .stop target) =>
      if state.runsUserCode thread then
        some (state.setActivity thread (.stop target (state.isLooping target) .find))
      else none
  | (thread, .enter call) =>
      if state.runsUserCode thread ∧ (call = androidLoopStart ∨ call = .runOnce) then
        some (state.setActivity thread (.enter call))
      else none
  | (thread, .lookUp) => lookUp state thread
  | (thread, .push) => sendMessage state thread .push
  | (thread, .signal) => sendMessage state thread .signal
  | (thread, .unlock) => match (state.thread thread).activity with
      | .send target message .unlock => some { state.setActivity thread
          (match message.messageData with
            | some call => .await target call
            | none => .free) with queueMutex := none }
      | _ => none
  | (thread, .awaken) => match (state.thread thread).activity with
      | .await _ call => if state.signalled call then some (state.setActivity thread .free) else none
      | _ => none
  | (thread, .threadEndHook) =>
      if state.thread thread = ⟨[], .free⟩ ∧ thread ≠ main ∧ state.queueMutex = none then
        some { state with messageQueues := Function.update state.messageQueues thread none }
      else none
  | (thread, action) => match (state.thread thread).frames with
      | [] => none
      | frame :: outer => loopStep state thread action frame outer

end ThreadIpc.AsyncRouter
