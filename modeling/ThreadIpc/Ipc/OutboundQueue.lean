import ThreadIpc.ProcessRegistry.Model

/-!
# `OutboundQueue`

The Win32 code is 32-bit: `size_t` and `int` have 32 bits and wrap. A serialized message shares the
address space with the mapped buffer, so it leaves room for 8192 bytes and a packet header; it is
never empty, since an object starts with its class id. An assertion that fails stops the program.
The shared buffer is an oracle here, the space each packet finds, `none` when `Start` fails.
-/

namespace ThreadIpc.Ipc

open ProcessRegistry (IpcProcessId)

structure SerializedData where
  bytes : List UInt8
  nonempty : bytes ≠ []
  fits : bytes.length + 8212 ≤ 2 ^ 32
  deriving DecidableEq

structure ShareableIpcMessage where
  id : Nat
  destProcessId : IpcProcessId
  ipcMessageType : Int32
  serializedMessageData : Option SerializedData
  callback : Bool
  deriving DecidableEq

structure MessagePacketHeader where
  msgSource : IpcProcessId
  msgType : Int32
  sequenceNumber : Int32
  lastPacket : Bool
  packetSize : Int32
  deriving DecidableEq, Repr

def kCapacity : Nat := 8183

def sizeofHeader : Nat := 20

def kTimeoutMs : Int := 60000

inductive Assertion
  | hasWriteMutex
  | notWaitingForSpace
  | waitsForOne
  | hasProcessHandle
  | allowLargeMessage
  | inProgressIsMessage
  | noneInProgress
  | messageSerialized
  | mutexReleased
  | queueExists
  deriving DecidableEq, Repr

def check (condition : Bool) (assertion : Assertion) : Except Assertion Unit :=
  if condition then .ok () else .error assertion

inductive Handle
  | writeMutex
  | spaceAvailableEvent
  | process
  deriving DecidableEq, Repr

structure OutboundQueue where
  processId : IpcProcessId
  processHandle : Bool
  pending : List ShareableIpcMessage
  hasWriteMutex : Bool
  isWaitingForWriteMutex : Bool
  isWaitingForSpaceAvailable : Bool
  waitStartTime : Int
  lastActiveTime : Int
  inProgressMessage : Option ShareableIpcMessage
  inProgressWritten : Nat
  inProgressSequence : Int32
  deriving DecidableEq

structure Chunk where
  message : Nat
  bytes : List UInt8
  deriving DecidableEq, Repr

structure Written where
  numWritten : Nat
  queue : OutboundQueue
  successful : List ShareableIpcMessage
  chunks : List Chunk
  deriving DecidableEq

structure Outcome where
  queue : OutboundQueue
  released : Bool
  successful : List ShareableIpcMessage
  chunks : List Chunk
  deriving DecidableEq

namespace MessagePacketHeader

def spaceNeeded (header : MessagePacketHeader) : Nat :=
  (sizeofHeader + header.packetSize.toUInt32.toNat) % 2 ^ 32

def fit (header : MessagePacketHeader) (allowLargeMessage : Bool) :
    Option (MessagePacketHeader × Nat) :=
  if header.spaceNeeded > kCapacity then
    if allowLargeMessage then
      some ({ header with
        packetSize := Int32.ofNat (kCapacity - sizeofHeader), lastPacket := false }, kCapacity)
    else none
  else some (header, header.spaceNeeded)

def packetData (header : MessagePacketHeader) (msgData : List UInt8) : List UInt8 :=
  if header.packetSize > 0 then msgData.take header.packetSize.toUInt32.toNat else []

end MessagePacketHeader

namespace OutboundQueue

def opened (processId : IpcProcessId) : OutboundQueue where
  processId := processId
  processHandle := true
  pending := []
  hasWriteMutex := false
  isWaitingForWriteMutex := false
  isWaitingForSpaceAvailable := false
  waitStartTime := 0
  lastActiveTime := 0
  inProgressMessage := none
  inProgressWritten := 0
  inProgressSequence := 0

def maybeWaitForWriteMutex (queue : OutboundQueue) (now : Int) : OutboundQueue :=
  if !queue.hasWriteMutex && !queue.isWaitingForWriteMutex then
    { queue with isWaitingForWriteMutex := true, waitStartTime := now }
  else queue

def waitForSpaceAvailable (queue : OutboundQueue) (now : Int) :
    Except Assertion OutboundQueue := do
  check queue.hasWriteMutex .hasWriteMutex
  check (!queue.isWaitingForSpaceAvailable) .notWaitingForSpace
  .ok { queue with isWaitingForSpaceAvailable := true, waitStartTime := now }

def addMessageToQueue (queue : OutboundQueue) (message : ShareableIpcMessage) (now : Int) :
    OutboundQueue :=
  { queue with pending := queue.pending ++ [message] }.maybeWaitForWriteMutex now

def addWaitHandles (queue : OutboundQueue) (now : Int) : Except Assertion (Option (List Handle)) :=
  if !queue.processHandle then .ok none
  else if queue.pending ≠ [] then do
    check (queue.isWaitingForSpaceAvailable ^^ queue.isWaitingForWriteMutex) .waitsForOne
    if now - queue.waitStartTime > kTimeoutMs then .ok none
    else if queue.isWaitingForSpaceAvailable then .ok (some [.spaceAvailableEvent, .process])
    else if queue.isWaitingForWriteMutex then .ok (some [.writeMutex, .process])
    else .ok (some [.process])
  else if now - queue.lastActiveTime > kTimeoutMs then .ok none
  else .ok (some [.process])

section Write
variable (currentProcessId : IpcProcessId)

def nextPacket (queue : OutboundQueue) (message : ShareableIpcMessage)
    (allowLargeMessage : Bool) : Except Assertion (MessagePacketHeader × List UInt8) := do
  check queue.hasWriteMutex .hasWriteMutex
  match message.serializedMessageData with
  | none => .error .messageSerialized
  | some data =>
      let header : MessagePacketHeader :=
        ⟨currentProcessId, message.ipcMessageType, 0, true, Int32.ofNat data.bytes.length⟩
      match queue.inProgressMessage with
      | none => .ok (header, data.bytes)
      | some inProgress => do
          check allowLargeMessage .allowLargeMessage
          check (inProgress = message) .inProgressIsMessage
          .ok ({ header with
              packetSize := header.packetSize - Int32.ofNat queue.inProgressWritten
              sequenceNumber := queue.inProgressSequence + 1 },
            data.bytes.drop queue.inProgressWritten)

def packetWritten (queue : OutboundQueue) (message : ShareableIpcMessage)
    (header : MessagePacketHeader) : Except Assertion (Bool × OutboundQueue) :=
  if header.lastPacket then
    .ok (true,
      { queue with inProgressMessage := none, inProgressWritten := 0, inProgressSequence := 0 })
  else do
    check (queue.inProgressMessage = none ∨ queue.inProgressMessage = some message)
      .inProgressIsMessage
    .ok (false, { queue with
      inProgressMessage := some message
      inProgressWritten := (queue.inProgressWritten + header.packetSize.toUInt32.toNat) % 2 ^ 32
      inProgressSequence := header.sequenceNumber })

def writeOneMessage (space : Option Nat) (queue : OutboundQueue) (message : ShareableIpcMessage)
    (allowLargeMessage : Bool) : Except Assertion (Bool × OutboundQueue × List Chunk) := do
  let (header, msgData) ← queue.nextPacket currentProcessId message allowLargeMessage
  match space with
  | none => .ok (false, { queue with processHandle := false }, [])
  | some available => match header.fit allowLargeMessage with
      | none => .ok (false, queue, [])
      | some (header, spaceNeeded) =>
          if spaceNeeded > available then .ok (false, queue, [])
          else do
            let (done, queue) ← queue.packetWritten message header
            .ok (done, queue, [⟨message.id, header.packetData msgData⟩])

def writeMessages (spaces : Nat → Option Nat) (queue : OutboundQueue) (numWritten : Nat)
    (allowLargeMessage : Bool) : List ShareableIpcMessage → Except Assertion Written
  | [] => .ok ⟨numWritten, { queue with pending := [] }, [], []⟩
  | message :: rest => do
      match ← queue.writeOneMessage currentProcessId (spaces numWritten) message
          allowLargeMessage with
      | (true, queue, chunks) => do
          let written ← writeMessages spaces queue (numWritten + 1) false rest
          .ok { written with
            successful := message :: written.successful
            chunks := chunks ++ written.chunks }
      | (false, queue, chunks) =>
          .ok ⟨numWritten, { queue with pending := message :: rest }, [], chunks⟩

def stopWriting (queue : OutboundQueue) (numWritten : Nat) (now : Int) :
    Except Assertion (Bool × OutboundQueue) :=
  if numWritten = 0 ∧ queue.pending ≠ [] then do
    let queue ← queue.waitForSpaceAvailable now
    .ok (false, queue)
  else do
    check queue.inProgressMessage.isNone .noneInProgress
    let queue := { queue with hasWriteMutex := false }
    if queue.pending ≠ [] then
      .ok (true, { queue with isWaitingForWriteMutex := true, waitStartTime := now })
    else .ok (true, queue)

def writePendingMessages (queue : OutboundQueue) (now : Int) (spaces : Nat → Option Nat) :
    Except Assertion Outcome := do
  check queue.hasWriteMutex .hasWriteMutex
  let written ← queue.writeMessages currentProcessId spaces 0 true queue.pending
  let (released, queue) ← written.queue.stopWriting written.numWritten now
  .ok ⟨queue, released, written.successful, written.chunks⟩

def waitComplete (queue : OutboundQueue) (handle : Handle) (now : Int)
    (spaces : Nat → Option Nat) : Except Assertion Outcome := do
  check queue.processHandle .hasProcessHandle
  let queue := { queue with lastActiveTime := now }
  match handle with
  | .writeMutex =>
      let queue := { queue with isWaitingForWriteMutex := false, hasWriteMutex := true }
      queue.writePendingMessages currentProcessId now spaces
  | .spaceAvailableEvent => do
      check queue.hasWriteMutex .hasWriteMutex
      let queue := { queue with isWaitingForSpaceAvailable := false }
      queue.writePendingMessages currentProcessId now spaces
  | .process => .ok ⟨{ queue with processHandle := false }, false, [], []⟩

end Write

end OutboundQueue

end ThreadIpc.Ipc
