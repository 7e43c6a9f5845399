import ThreadIpc.Ipc.QueueState
import ThreadIpc.Lib.OrderedMap

/-!
# `Win32IpcMessageQueue`: sending and reporting

Everything under one hold of `thread_sync_mutex_` is one step; the callbacks and the wait run
without it. Whether a queue opens, the process list and what a wait returns are inputs. `nextId`,
`accepted`, `written` and `reported` are history: a message's id is its identity, `accepted` holds
what `SendWithCompletion` took, `written` what reached each target's buffer, `reported` the messages
the worker has passed (with a call where the callback is set). `RemoveOutboundQueue` on a handle
still waited for cannot be seen from here, so a wait on a missing queue is an assertion that fails.
-/

namespace ThreadIpc.Ipc

open ProcessRegistry (IpcProcessId)
open Lib.OrderedMap (find put)

structure Report where
  message : ShareableIpcMessage
  result : Bool
  deriving DecidableEq

inductive WaitHandle
  | sendData
  | dataAvailable
  | outbound (processId : IpcProcessId) (handle : Handle)
  deriving DecidableEq

inductive Worker
  | building (resetSendDataEvent : Bool)
  | reporting (successful failed : List ShareableIpcMessage) (handles : List WaitHandle)
  deriving DecidableEq

structure Win32IpcMessageQueue where
  die : Bool
  outboundQueues : List QueueState
  successfulMessages : List ShareableIpcMessage
  failedMessages : List ShareableIpcMessage
  sendDataEvent : Bool
  worker : Worker
  nextId : Nat
  accepted : List ShareableIpcMessage
  written : List (IpcProcessId × Chunk)
  reported : List Report
  deriving DecidableEq

inductive SendMachine
  | running (state : Win32IpcMessageQueue)
  | exited
  | aborted (assertion : Assertion)
  deriving DecidableEq

inductive SendEvent
  | sendWithCompletion (destProcessId : IpcProcessId) (ipcMessageType : Int32)
      (data : Option SerializedData) (callback : Bool) (opens : Bool) (now : Int)
  | sendToAll (processes : List (IpcProcessId × Bool)) (ipcMessageType : Int32)
      (data : Option SerializedData) (includingSelf : Bool) (now : Int)
  | build (now : Int)
  | report
  | sendDataSignalled
  | dataAvailable (garbage : Bool)
  | waitComplete (processId : IpcProcessId) (handle : Handle) (abandoned : Bool) (now : Int)
      (spaces : Nat → Option Nat)
  | waitTimeout
  | waitFailed
  | exit

inductive Owner
  | pending (processId : IpcProcessId)
  | successful
  | failed
  | reporting (result : Bool)
  | reported (result : Bool)
  deriving DecidableEq

structure Built where
  queues : List QueueState
  handles : List WaitHandle
  failed : List ShareableIpcMessage
  deriving DecidableEq

def kMaxWaitHandles : Nat := 64

def QueueState.key (state : QueueState) : Nat := state.queue.processId.toNat

def QueueState.addMessageToQueue (state : QueueState) (message : ShareableIpcMessage) (now : Int) :
    QueueState :=
  { state with queue := state.queue.addMessageToQueue message now }

namespace Worker

def successful : Worker → List ShareableIpcMessage
  | .building _ => []
  | .reporting successful _ _ => successful

def failed : Worker → List ShareableIpcMessage
  | .building _ => []
  | .reporting _ failed _ => failed

def handles : Worker → List WaitHandle
  | .building _ => []
  | .reporting _ _ handles => handles

def waitsFor (worker : Worker) (handle : WaitHandle) : Bool :=
  match worker with
  | .reporting [] [] handles => handle ∈ handles.take kMaxWaitHandles
  | _ => false

def isWaiting : Worker → Bool
  | .reporting [] [] _ => true
  | _ => false

end Worker

def getOutboundQueue (queues : List QueueState) (processId : IpcProcessId) (opens : Bool) :
    Option QueueState :=
  match find QueueState.key processId.toNat queues with
  | some state => some state
  | none => if opens then some (.opened processId) else none

def addToQueues (message : ShareableIpcMessage) (now : Int) :
    List (IpcProcessId × Bool) → List QueueState → Bool × List QueueState
  | [], queues => (false, queues)
  | (processId, opens) :: rest, queues =>
      match getOutboundQueue queues processId opens with
      | none => addToQueues message now rest queues
      | some state =>
          let queues := put QueueState.key (state.addMessageToQueue message now) queues
          (true, (addToQueues message now rest queues).2)

def buildWaitHandles (now : Int) : List QueueState → Except Assertion Built
  | [] => .ok ⟨[], [], []⟩
  | state :: rest => do
      let asked ← state.askForHandles now
      let built ← buildWaitHandles now rest
      match asked with
      | some state => .ok { built with
          queues := state :: built.queues
          handles := state.reported.map (.outbound state.queue.processId) ++ built.handles }
      | none => .ok { built with failed := state.queue.pending ++ built.failed }

namespace Win32IpcMessageQueue

def init : Win32IpcMessageQueue where
  die := false
  outboundQueues := []
  successfulMessages := []
  failedMessages := []
  sendDataEvent := false
  worker := .building false
  nextId := 0
  accepted := []
  written := []
  reported := []

def sendWithCompletion (state : Win32IpcMessageQueue) (destProcessId : IpcProcessId)
    (ipcMessageType : Int32) (data : Option SerializedData) (callback opens : Bool) (now : Int) :
    Win32IpcMessageQueue :=
  let message : ShareableIpcMessage :=
    ⟨state.nextId, destProcessId, ipcMessageType, data, callback⟩
  let state := { state with
    nextId := state.nextId + 1, accepted := state.accepted ++ [message], sendDataEvent := true }
  match getOutboundQueue state.outboundQueues destProcessId opens with
  | some queue => { state with
      outboundQueues := put QueueState.key (queue.addMessageToQueue message now)
        state.outboundQueues }
  | none => { state with failedMessages := state.failedMessages ++ [message] }

def sendToAll (currentProcessId : IpcProcessId) (state : Win32IpcMessageQueue)
    (processes : List (IpcProcessId × Bool)) (ipcMessageType : Int32)
    (data : Option SerializedData) (includingSelf : Bool) (now : Int) : Win32IpcMessageQueue :=
  let message : ShareableIpcMessage := ⟨state.nextId, 0, ipcMessageType, data, false⟩
  let targets := processes.filter fun target => includingSelf || target.1 != currentProcessId
  let (added, queues) := addToQueues message now targets state.outboundQueues
  { state with
    nextId := state.nextId + 1
    outboundQueues := queues
    sendDataEvent := state.sendDataEvent || added }

def build (state : Win32IpcMessageQueue) (resetSendDataEvent : Bool) (now : Int) : SendMachine :=
  match buildWaitHandles now state.outboundQueues with
  | .error assertion => .aborted assertion
  | .ok built => .running { state with
      sendDataEvent := state.sendDataEvent && !resetSendDataEvent
      outboundQueues := built.queues
      successfulMessages := []
      failedMessages := []
      worker := .reporting state.successfulMessages (state.failedMessages ++ built.failed)
        (.sendData :: .dataAvailable :: built.handles) }

def report (state : Win32IpcMessageQueue) : Option Win32IpcMessageQueue :=
  match state.worker with
  | .reporting (message :: successful) failed handles => some { state with
      worker := .reporting successful failed handles
      reported := state.reported ++ [⟨message, true⟩] }
  | .reporting [] (message :: failed) handles => some { state with
      worker := .reporting [] failed handles
      reported := state.reported ++ [⟨message, false⟩] }
  | .reporting [] [] _ | .building _ => none

def waitComplete (currentProcessId : IpcProcessId) (state : Win32IpcMessageQueue)
    (processId : IpcProcessId) (handle : Handle) (now : Int) (spaces : Nat → Option Nat) :
    SendMachine :=
  match find QueueState.key processId.toNat state.outboundQueues with
  | none => .aborted .queueExists
  | some queue => match queue.completeWait currentProcessId handle now spaces with
      | .error assertion => .aborted assertion
      | .ok (queue, outcome) => .running { state with
          outboundQueues := put QueueState.key queue state.outboundQueues
          successfulMessages := state.successfulMessages ++ outcome.successful
          worker := .building false
          written := state.written ++ outcome.chunks.map (processId, ·) }

def owners (state : Win32IpcMessageQueue) (message : ShareableIpcMessage) : List Owner :=
  (state.outboundQueues.flatMap fun queue =>
    List.replicate (queue.queue.pending.count message) (.pending queue.queue.processId)) ++
  List.replicate (state.successfulMessages.count message) .successful ++
  List.replicate (state.failedMessages.count message) .failed ++
  List.replicate (state.worker.successful.count message) (.reporting true) ++
  List.replicate (state.worker.failed.count message) (.reporting false) ++
  (state.reported.filter (·.message = message)).map fun report => .reported report.result

def writtenTo (written : List (IpcProcessId × Chunk)) (processId : IpcProcessId) (message : Nat) :
    List UInt8 :=
  (written.filter fun chunk => chunk.1 = processId ∧ chunk.2.message = message).flatMap (·.2.bytes)

def callbacks (state : Win32IpcMessageQueue) (message : ShareableIpcMessage) : List Bool :=
  (state.reported.filter fun report => report.message = message ∧ message.callback).map (·.result)

end Win32IpcMessageQueue

def SendMachine.step (currentProcessId : IpcProcessId) :
    SendMachine → SendEvent → Option SendMachine
  | .running state, .sendWithCompletion destProcessId ipcMessageType data callback opens now =>
      if state.die then some (.running state)
      else some (.running
        (state.sendWithCompletion destProcessId ipcMessageType data callback opens now))
  | .running state, .sendToAll processes ipcMessageType data includingSelf now =>
      if state.die then some (.running state)
      else some (.running
        (state.sendToAll currentProcessId processes ipcMessageType data includingSelf now))
  | .running state, .build now => match state.worker with
      | .building resetSendDataEvent =>
          if state.die then none else some (state.build resetSendDataEvent now)
      | .reporting .. => none
  | .running state, .report => state.report.map .running
  | .running state, .sendDataSignalled =>
      if state.worker.waitsFor .sendData ∧ state.sendDataEvent then
        some (.running { state with worker := .building true })
      else none
  | .running state, .dataAvailable garbage =>
      if state.worker.waitsFor .dataAvailable then
        some (.running { state with worker := .building false, die := state.die || garbage })
      else none
  | .running state, .waitComplete processId handle _ now spaces =>
      if state.worker.waitsFor (.outbound processId handle) then
        some (state.waitComplete currentProcessId processId handle now spaces)
      else none
  | .running state, .waitTimeout =>
      if state.worker.isWaiting then some (.running { state with worker := .building false })
      else none
  | .running state, .waitFailed =>
      if state.worker.isWaiting then
        some (.running { state with worker := .building false, die := true })
      else none
  | .running state, .exit => match state.worker with
      | .building _ => if state.die then some .exited else none
      | .reporting .. => none
  | .exited, _ | .aborted _, _ => none

end ThreadIpc.Ipc
