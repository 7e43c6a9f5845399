import ThreadIpc.AsyncRouter.Model
import ThreadIpc.ThreadStart.Model

/-!
# The program of `main.cc`

`TestThreadMessageQueue` on the main thread and `TestThread` beside it, with any messages in place of the six
of the source. The thread, the queues and the registry of queues are the machines of `ThreadStart` and
`ThreadQueue`, and a step of a thread is at most one step of one of them; spurious wakeups happen at any
moment. `pthread_create` succeeds. What sleeps may sleep for any time, and nothing is printed.
-/

namespace ThreadIpc.TestThreadMessageQueue
open ThreadQueue (OwnerCall Posted)
open AsyncRouter (kAndroidLoopExit androidLoopStart)

def kMessageType1 : Int32 := 100
def kMessageType2 : Int32 := 101
def kMessageType3 : Int32 := 102

structure TestMessage (T : Type) where
  sender : T
  data : Int32
  deriving DecidableEq, Repr

abbrev Message (T : Type) := ThreadQueue.Message (Option (TestMessage T))

inductive Background
  | handler1
  | handler2
  deriving DecidableEq, Repr

def Background.messageType : Background → Int32
  | .handler1 => kMessageType1
  | .handler2 => kMessageType2

structure Program (T : Type) where
  main : T
  worker : T
  distinct : main ≠ worker
  messages : List (Background × Int32)

inductive Handler
  | background (handler : Background)
  | main
  deriving DecidableEq, Repr

inductive Stage
  | find
  | push
  | signal
  | unlock
  deriving DecidableEq, Repr

inductive Main (T : Type)
  | initThreadMessageQueue
  | registerHandler
  | start
  | starting
  | send (workerThreadId : T) (index : Nat) (stage : Stage)
  | isDone
  | getQueue
  | running
  | handle (message : Message T)
  | stop (threadId : T)
  | stopPush (threadId : T)
  | stopSignal (threadId : T)
  | setDone
  | handled
  | join
  | joining
  | destroy
  | finished
  | failed
  deriving DecidableEq, Repr

inductive Worker (T : Type)
  | registerHandler1
  | registerHandler2
  | getQueue
  | running
  | handle (message : Message T)
  | send (data : Int32) (stage : Stage)
  | handled
  | returned
  | failed
  deriving DecidableEq, Repr

structure State (T : Type) where
  thread : ThreadStart.State T
  queue : T → ThreadQueue.State T (Option (TestMessage T))
  queueMutex : Option T
  handlers : Int32 → Option Handler
  main : Main T
  worker : Worker T
  /-- `count_` of the handler, which wraps around where the source leaves an overflow open. -/
  count : Background → Int32
  done : Bool
  received : List (Background × Int32)
  assertFailed : Bool
  /-- A queue has been used that is not registered any more. -/
  usedAfterErase : Bool

inductive Action
  | main
  | worker
  | wakeStarted
  | wakeMain
  | wakeWorker
  deriving DecidableEq, Repr

variable {T : Type} [DecidableEq T]

def State.init (program : Program T) : State T where
  thread := .init program.main fun _ => false
  queue := fun _ => .init
  queueMutex := none
  handlers := fun _ => none
  main := .initThreadMessageQueue
  worker := .registerHandler1
  count := fun _ => 0
  done := false
  received := []
  assertFailed := false
  usedAfterErase := false

namespace State
variable (program : Program T) (state : State T)

def atMain (main : Main T) : State T := { state with main }

def atWorker (worker : Worker T) : State T := { state with worker }

def registerHandler (messageType : Int32) (handler : Handler) : State T :=
  { state with handlers := Function.update state.handlers messageType (some handler) }

def threadStep (action : ThreadStart.Action T) : Option (State T) :=
  (ThreadStart.step program.main state.thread action).map fun thread => { state with thread }

def queueStep (owner : T) (action : ThreadQueue.Action T (Option (TestMessage T))) :
    Option (State T) :=
  (ThreadQueue.step owner (state.queue owner) action).map fun queue =>
    { state with queue := Function.update state.queue owner queue }

def sendMessageStep (owner : T) (action : ThreadQueue.Action T (Option (TestMessage T))) :
    Option (State T) :=
  queueStep { state with
    usedAfterErase := state.usedAfterErase || !state.thread.messageQueues owner } owner action

/-- `Send` with the stage it is at behind the step, and none if it has returned. -/
def sendStep (sender threadId : T) (message : Message T) : Stage → Option (State T × Option Stage)
  | .find =>
      if state.queueMutex ≠ none then none
      else if state.thread.send threadId then
        some ({ state with queueMutex := some sender }, some .push)
      else some (state, none)
  | .push => (state.sendMessageStep threadId (.push sender message)).map (·, some .signal)
  | .signal => (state.sendMessageStep threadId (.signal sender)).map (·, some .unlock)
  | .unlock => some ({ state with queueMutex := none }, none)

end State

inductive Looped (T : Type)
  | goesOn
  | handles (message : Message T)
  | returns

def loopStep (state : State T) (thread : T) : Option (State T × Looped T) :=
  match (state.queue thread).owner with
  | .idle => some (state, .returns)
  | .waiting _ => (state.queueStep thread .wait).map (·, .goesOn)
  | .popping _ => (state.queueStep thread .popMessages).map (·, .goesOn)
  | .dispatching call batch => (state.queueStep thread .takeFront).map fun after =>
      (after, match batch with
        | [] => .goesOn
        | front :: _ =>
            if call = .getAndDispatchMessages front.message.messageType then .goesOn
            else .handles front.message)
  | .handling _ _ => none

section Threads
variable (program : Program T) (state : State T)

/-- `TestThread::Run`. No step is given for a handler of the main thread on this one. -/
def run : Option (State T) :=
  match state.worker with
  | .registerHandler1 => some
      ((state.registerHandler kMessageType1 (.background .handler1)).atWorker .registerHandler2)
  | .registerHandler2 => some
      ((state.registerHandler kMessageType2 (.background .handler2)).atWorker .getQueue)
  | .getQueue =>
      if state.queueMutex ≠ none then none
      else if state.thread.messageQueues program.worker then
        (state.queueStep program.worker (.call androidLoopStart)).map (·.atWorker .running)
      else some ({ state with assertFailed := true }.atWorker .failed)
  | .running => (loopStep state program.worker).map fun (after, looped) => match looped with
      | .goesOn => after
      | .handles message => after.atWorker (.handle message)
      | .returns => after.atWorker .returned
  | .handle message => match state.handlers message.messageType with
      | none => some (state.atWorker .handled)
      | some .main => none
      | some (.background handler) => match message.messageData with
          | none => some ({ state with assertFailed := true }.atWorker .failed)
          | some testMessage =>
              let count := state.count handler + testMessage.data
              some ({ state with
                assertFailed := state.assertFailed || program.main ≠ testMessage.sender
                count := Function.update state.count handler count
                received := state.received ++ [(handler, testMessage.data)] }.atWorker
                  (if count = 600 then .send count .find else .handled))
  | .send data stage =>
      (state.sendStep program.worker program.main
        ⟨kMessageType3, some ⟨program.worker, data⟩⟩ stage).map fun (after, stage') =>
          after.atWorker (match stage' with
            | some stage' => .send data stage'
            | none => .handled)
  | .handled => (state.queueStep program.worker .handlerReturns).map (·.atWorker .running)
  | .returned => state.threadStep program (.child 0)
  | .failed => none

def workerStep : Option (State T) :=
  if state.thread.created = 0 then none else
  match (state.thread.child 0).phase with
  | .initThreadMessageQueue | .threadEndHook =>
      if state.queueMutex ≠ none then none else state.threadStep program (.child 0)
  | .run => run program state
  | .terminated => none
  | _ => state.threadStep program (.child 0)

/-- `TestThreadMessageQueue`. No step is given for a handler of the worker on this thread. -/
def mainStep : Option (State T) :=
  match state.main with
  | .initThreadMessageQueue =>
      if state.queueMutex ≠ none then none
      else (state.threadStep program (.other program.main true)).map (·.atMain .registerHandler)
  | .registerHandler => some ((state.registerHandler kMessageType3 .main).atMain .start)
  | .start =>
      (state.threadStep program (.start (some program.worker))).map (·.atMain .starting)
  | .starting => match state.thread.parent with
      | .waiting => state.threadStep program .wait
      | _ => (state.threadStep program .startReturns).map fun after =>
          after.atMain (match after.thread.threadId with
            | some workerThreadId => .send workerThreadId 0 .find
            | none => .failed)
  | .send workerThreadId index stage => match program.messages[index]? with
      | none => some (state.atMain .isDone)
      | some (handler, data) =>
          (state.sendStep program.main workerThreadId
            ⟨handler.messageType, some ⟨program.main, data⟩⟩ stage).map fun (after, stage') =>
              after.atMain (match stage' with
                | some stage' => .send workerThreadId index stage'
                | none => .send workerThreadId (index + 1) .find)
  | .isDone => some (state.atMain (if state.done then .join else .getQueue))
  | .getQueue =>
      if state.queueMutex ≠ none then none
      else if state.thread.messageQueues program.main then
        (state.queueStep program.main (.call .runOnce)).map (·.atMain .running)
      else some ({ state with assertFailed := true }.atMain .failed)
  | .running => (loopStep state program.main).map fun (after, looped) => match looped with
      | .goesOn => after
      | .handles message => after.atMain (.handle message)
      | .returns => after.atMain .isDone
  | .handle message => match state.handlers message.messageType with
      | none => some (state.atMain .handled)
      | some (.background _) => none
      | some .main => message.messageData.map fun testMessage =>
          { state with assertFailed := state.assertFailed || testMessage.data ≠ 600 }.atMain
            (.stop testMessage.sender)
  | .stop threadId =>
      if state.queueMutex ≠ none then none
      else if state.thread.messageQueues threadId then some (state.atMain (.stopPush threadId))
      else some ({ state with assertFailed := true }.atMain .failed)
  | .stopPush threadId =>
      (state.sendMessageStep threadId (.push program.main ⟨kAndroidLoopExit, none⟩)).map
        (·.atMain (.stopSignal threadId))
  | .stopSignal threadId =>
      (state.sendMessageStep threadId (.signal program.main)).map (·.atMain .setDone)
  | .setDone => some ({ state with done := true }.atMain .handled)
  | .handled => (state.queueStep program.main .handlerReturns).map (·.atMain .running)
  | .join => (state.threadStep program .join).map (·.atMain .joining)
  | .joining => match state.thread.parent with
      | .joining => (state.threadStep program .joinReturns).map (·.atMain .destroy)
      | _ => some (state.atMain .destroy)
  | .destroy => (state.threadStep program .destroy).map (·.atMain .finished)
  | .finished | .failed => none

def step : Action → Option (State T)
  | .main => mainStep program state
  | .worker => workerStep program state
  | .wakeStarted => state.threadStep program .spuriousWakeup
  | .wakeMain => state.queueStep program.main .spuriousWakeup
  | .wakeWorker => state.queueStep program.worker .spuriousWakeup

end Threads

def testMessages : List (Background × Int32) :=
  [(.handler1, 1), (.handler1, 2), (.handler1, 3), (.handler2, 100), (.handler2, 200),
    (.handler2, 300)]

end ThreadIpc.TestThreadMessageQueue
