import ThreadIpc.CircularBuffer.Model
import ThreadIpc.Ipc.Packet
import ThreadIpc.Lib.Reachability

/-!
# One inbound queue and its writers

Any number of writer processes, each with its `OutboundQueue` to this queue, and the one reader.
A step is what one process does to the shared memory or the write mutex between two points where
others can be seen: a writer computes the stores of a packet, makes them one by one in any order and
publishes the tail; the reader takes head and tail, copies the header, copies the data and publishes
the head. The events only wake a wait and may do so at any time. A writer may die before any step
and may give up (`RemoveOutboundQueue`) while it waits; a mutex whose owner dies is free again.
`sent`, `published` and `completed` are history: the messages each writer queued, the packets whose
tail was stored, and the messages whose last packet was.
-/

namespace ThreadIpc.Ipc

open ProcessRegistry (IpcProcessId)

structure BufferFormat where
  head : Nat
  tail : Nat
  data : Nat → UInt8

inductive WriterStage (W : Type)
  | waiting
  | writing (numWritten : Nat) (allowLargeMessage : Bool)
  | copying (packet : Packet W) (stores : List (Nat × UInt8)) (tail : Nat) (numWritten : Nat)
      (allowLargeMessage : Bool)
  | published (packet : Packet W) (numWritten : Nat) (allowLargeMessage : Bool)
  deriving DecidableEq

structure Writer (W : Type) where
  queue : OutboundQueue
  stage : WriterStage W
  alive : Bool
  deriving DecidableEq

inductive ReaderStage
  | waiting
  | started (buf : CircularBuffer)
  | gotHeader (buf : CircularBuffer) (header : MessagePacketHeader)
  | gotPacket (buf : CircularBuffer) (header : MessagePacketHeader)
  deriving DecidableEq

structure Received where
  source : IpcProcessId
  messageType : Int32
  bytes : List UInt8
  deriving DecidableEq

structure Reader where
  stage : ReaderStage
  lastPacketHeader : MessagePacketHeader
  messageDataBuffer : List UInt8
  reassembled : List Received
  deriving DecidableEq

structure Channel (W : Type) where
  buffer : BufferFormat
  writeMutex : Option W
  writers : W → Writer W
  reader : Reader
  sent : W → List ShareableIpcMessage
  published : List (Packet W)
  completed : List (W × ShareableIpcMessage)

inductive ChannelFault
  | assertion (failed : Assertion)
  | buffer (fault : BufferFault)
  | garbage
  | fitsSpace
  | headerAvailable
  | messageOpen
  | sameSource
  | sameType
  | nextSequence
  deriving DecidableEq

inductive ChannelAction (W : Type)
  | send (writer : W) (message : ShareableIpcMessage) (now : Int)
  | acquire (writer : W) (asked now : Int)
  | wake (writer : W) (asked now : Int)
  | startPacket (writer : W) (mapped : Bool) (padding : Padding) (now : Int)
  | copy (writer : W) (store : Nat × UInt8)
  | publish (writer : W)
  | advance (writer : W) (now : Int)
  | giveUp (writer : W)
  | die (writer : W)
  | readerStart
  | readHeader
  | readPayload
  | readerCommit
  deriving DecidableEq

inductive ChannelMachine (W : Type)
  | running (state : Channel W)
  | aborted (fault : ChannelFault)

def require (condition : Bool) (fault : ChannelFault) : Except ChannelFault Unit :=
  if condition then .ok () else .error fault

namespace BufferFormat

def start (shared : BufferFormat) : Except ChannelFault CircularBuffer := do
  let buf ← (CircularBuffer.setBuffer true (kCapacity + 1)).mapError .buffer
  match buf.setHead shared.head with
  | none => .error .garbage
  | some buf => match buf.setTail shared.tail with
      | none => .error .garbage
      | some buf => .ok buf

end BufferFormat

def OutboundQueue.reports (queue : OutboundQueue) (handle : Handle) (now : Int) : Bool :=
  match queue.addWaitHandles now with
  | .ok (some handles) => handle ∈ handles
  | _ => false

def Packet.write {W : Type} (packet : Packet W) (buf : CircularBuffer) :
    Except ChannelFault (Nat × List (Nat × UInt8)) := do
  require (sizeofHeader ≤ buf.spaceAvailable) .fitsSpace
  let (buf, header) ← (buf.write (packet.header.encode packet.padding)).mapError .buffer
  if packet.header.packetSize > 0 then do
    require (packet.header.packetSize.toUInt32.toNat ≤ buf.spaceAvailable) .fitsSpace
    let (buf, data) ← (buf.write packet.data).mapError .buffer
    .ok (buf.tail, header ++ data)
  else .ok (buf.tail, header)

namespace Reader

def init : Reader where
  stage := .waiting
  lastPacketHeader := ⟨0, 0, 0, true, 0⟩
  messageDataBuffer := []
  reassembled := []

def start (reader : Reader) (shared : BufferFormat) : Except ChannelFault Reader := do
  let buf ← shared.start
  if buf.dataAvailable = 0 then .ok reader else .ok { reader with stage := .started buf }

def readHeader (reader : Reader) (shared : BufferFormat) (buf : CircularBuffer) :
    Except ChannelFault Reader := do
  require (sizeofHeader ≤ buf.dataAvailable) .headerAvailable
  let (buf, bytes) ← (buf.read shared.data sizeofHeader).mapError .buffer
  let header := MessagePacketHeader.decode bytes
  if header.sequenceNumber = 0 then
    .ok { reader with stage := .gotHeader buf header, messageDataBuffer := [] }
  else do
    require (!reader.lastPacketHeader.lastPacket) .messageOpen
    require (header.msgSource = reader.lastPacketHeader.msgSource) .sameSource
    require (header.msgType = reader.lastPacketHeader.msgType) .sameType
    require (header.sequenceNumber = reader.lastPacketHeader.sequenceNumber + 1) .nextSequence
    .ok { reader with stage := .gotHeader buf header }

def readPayload (reader : Reader) (shared : BufferFormat) (buf : CircularBuffer)
    (header : MessagePacketHeader) : Except ChannelFault Reader := do
  if header.packetSize > 0 then
    if buf.dataAvailable < header.packetSize.toUInt32.toNat then .error .garbage
    else do
      let (buf, bytes) ←
        (buf.read shared.data header.packetSize.toUInt32.toNat).mapError .buffer
      .ok { reader with
        stage := .gotPacket buf header
        messageDataBuffer := reader.messageDataBuffer ++ bytes }
  else .ok { reader with stage := .gotPacket buf header }

def commit (reader : Reader) (header : MessagePacketHeader) : Reader :=
  let reader := { reader with stage := .waiting, lastPacketHeader := header }
  if header.lastPacket then
    { reader with
      messageDataBuffer := []
      reassembled := reader.reassembled ++
        [⟨header.msgSource, header.msgType, reader.messageDataBuffer⟩] }
  else reader

end Reader

namespace Channel
variable {W : Type} [DecidableEq W] (processId : W → IpcProcessId)

def init (readerProcessId : IpcProcessId) (data : Nat → UInt8) : Channel W where
  buffer := ⟨0, 0, data⟩
  writeMutex := none
  writers := fun _ => ⟨.opened readerProcessId, .waiting, true⟩
  reader := .init
  sent := fun _ => []
  published := []
  completed := []

def setWriter (state : Channel W) (writer : W) (changed : Writer W) : Channel W :=
  { state with writers := Function.update state.writers writer changed }

def send (state : Channel W) (writer : W) (message : ShareableIpcMessage) (now : Int) : Channel W :=
  let own := state.writers writer
  { state with sent := Function.update state.sent writer (state.sent writer ++ [message]) }.setWriter
    writer { own with queue := own.queue.addMessageToQueue message now }

def acquire (state : Channel W) (writer : W) (now : Int) : Channel W :=
  let own := state.writers writer
  { state with writeMutex := some writer }.setWriter writer { own with
    queue := { own.queue with
      lastActiveTime := now, isWaitingForWriteMutex := false, hasWriteMutex := true }
    stage := .writing 0 true }

def wake (state : Channel W) (writer : W) (now : Int) : Except ChannelFault (Channel W) := do
  let own := state.writers writer
  require own.queue.hasWriteMutex (.assertion .hasWriteMutex)
  .ok (state.setWriter writer { own with
    queue := { own.queue with lastActiveTime := now, isWaitingForSpaceAvailable := false }
    stage := .writing 0 true })

def stop (state : Channel W) (writer : W) (queue : OutboundQueue) (numWritten : Nat) (now : Int) :
    Except ChannelFault (Channel W) := do
  let (released, queue) ← (queue.stopWriting numWritten now).mapError .assertion
  let state := state.setWriter writer { state.writers writer with queue, stage := .waiting }
  if released then do
    require (state.writeMutex = some writer) (.assertion .mutexReleased)
    .ok { state with writeMutex := none }
  else .ok state

def startPacket (state : Channel W) (writer : W) (numWritten : Nat) (allowLargeMessage : Bool)
    (mapped : Bool) (padding : Padding) (now : Int) : Except ChannelFault (Channel W) := do
  let queue := (state.writers writer).queue
  match queue.pending with
  | [] => state.stop writer queue numWritten now
  | message :: _ => do
      let (header, msgData) ←
        (queue.nextPacket (processId writer) message allowLargeMessage).mapError .assertion
      if !mapped then state.stop writer { queue with processHandle := false } numWritten now
      else do
        let buf ← state.buffer.start
        match header.fit allowLargeMessage with
        | none => state.stop writer queue numWritten now
        | some (header, spaceNeeded) =>
            if spaceNeeded > buf.spaceAvailable then state.stop writer queue numWritten now
            else do
              let packet : Packet W := ⟨writer, message, header, padding, header.packetData msgData⟩
              let (tail, stores) ← packet.write buf
              .ok (state.setWriter writer { state.writers writer with
                stage := .copying packet stores tail numWritten allowLargeMessage })

def copy (state : Channel W) (writer : W) (packet : Packet W) (stores : List (Nat × UInt8))
    (tail numWritten : Nat) (allowLargeMessage : Bool) (store : Nat × UInt8) : Channel W :=
  { state with
    buffer := { state.buffer with data := Lib.Ring.store state.buffer.data store } }.setWriter
    writer { state.writers writer with
      stage := .copying packet (stores.erase store) tail numWritten allowLargeMessage }

def publish (state : Channel W) (writer : W) (packet : Packet W) (tail numWritten : Nat)
    (allowLargeMessage : Bool) : Channel W :=
  { state with
    buffer := { state.buffer with tail := tail }
    published := state.published ++ [packet]
    completed := if packet.header.lastPacket then state.completed ++ [(writer, packet.message)]
      else state.completed }.setWriter
    writer { state.writers writer with stage := .published packet numWritten allowLargeMessage }

def advance (state : Channel W) (writer : W) (packet : Packet W) (numWritten : Nat) (now : Int) :
    Except ChannelFault (Channel W) := do
  let own := state.writers writer
  let (done, queue) ←
    (own.queue.packetWritten packet.message packet.header).mapError .assertion
  if done then
    .ok (state.setWriter writer { own with
      queue := { queue with pending := queue.pending.tail }
      stage := .writing (numWritten + 1) false })
  else state.stop writer queue numWritten now

def giveUp (state : Channel W) (writer : W) : Except ChannelFault (Channel W) := do
  let own := state.writers writer
  let opened := state.setWriter writer { own with queue := .opened own.queue.processId }
  if own.queue.hasWriteMutex then do
    require (state.writeMutex = some writer) (.assertion .mutexReleased)
    .ok { opened with writeMutex := none }
  else .ok opened

def die (state : Channel W) (writer : W) : Channel W :=
  { state with
    writeMutex := if state.writeMutex = some writer then none else state.writeMutex }.setWriter
    writer { state.writers writer with alive := false }

def readerStep (state : Channel W) : ChannelAction W → Option (Except ChannelFault (Channel W))
  | .readerStart => match state.reader.stage with
      | .waiting => some do
          let reader ← state.reader.start state.buffer
          .ok { state with reader := reader }
      | _ => none
  | .readHeader => match state.reader.stage with
      | .started buf => some do
          let reader ← state.reader.readHeader state.buffer buf
          .ok { state with reader := reader }
      | _ => none
  | .readPayload => match state.reader.stage with
      | .gotHeader buf header => some do
          let reader ← state.reader.readPayload state.buffer buf header
          .ok { state with reader := reader }
      | _ => none
  | .readerCommit => match state.reader.stage with
      | .gotPacket buf header => some (.ok { state with
          buffer := { state.buffer with head := buf.head }
          reader := state.reader.commit header })
      | _ => none
  | _ => none

def writerStep (state : Channel W) (writer : W) :
    ChannelAction W → Option (Except ChannelFault (Channel W))
  | .send _ message now => match (state.writers writer).stage with
      | .waiting =>
          if message.serializedMessageData.isSome then some (.ok (state.send writer message now))
          else none
      | _ => none
  | .acquire _ asked now => match (state.writers writer).stage with
      | .waiting =>
          if (state.writers writer).queue.reports .writeMutex asked ∧ state.writeMutex = none then
            some (.ok (state.acquire writer now))
          else none
      | _ => none
  | .wake _ asked now => match (state.writers writer).stage with
      | .waiting =>
          if (state.writers writer).queue.reports .spaceAvailableEvent asked then
            some (state.wake writer now)
          else none
      | _ => none
  | .startPacket _ mapped padding now => match (state.writers writer).stage with
      | .writing numWritten allowLargeMessage => some
          (state.startPacket processId writer numWritten allowLargeMessage mapped padding now)
      | _ => none
  | .copy _ store => match (state.writers writer).stage with
      | .copying packet stores tail numWritten allowLargeMessage =>
          if store ∈ stores then some
            (.ok (state.copy writer packet stores tail numWritten allowLargeMessage store))
          else none
      | _ => none
  | .publish _ => match (state.writers writer).stage with
      | .copying packet [] tail numWritten allowLargeMessage =>
          some (.ok (state.publish writer packet tail numWritten allowLargeMessage))
      | _ => none
  | .advance _ now => match (state.writers writer).stage with
      | .published packet numWritten _ => some (state.advance writer packet numWritten now)
      | _ => none
  | .giveUp _ => match (state.writers writer).stage with
      | .waiting => some (state.giveUp writer)
      | _ => none
  | .die _ => some (.ok (state.die writer))
  | .readerStart | .readHeader | .readPayload | .readerCommit => none

end Channel

namespace ChannelAction
variable {W : Type}

def writer : ChannelAction W → Option W
  | .send writer _ _ | .acquire writer _ _ | .wake writer _ _ | .startPacket writer _ _ _
  | .copy writer _ | .publish writer | .advance writer _ | .giveUp writer | .die writer =>
      some writer
  | .readerStart | .readHeader | .readPayload | .readerCommit => none

def isFailure : ChannelAction W → Bool
  | .giveUp _ | .die _ => true
  | _ => false

end ChannelAction

namespace ChannelMachine
variable {W : Type} [DecidableEq W] (processId : W → IpcProcessId)

def ofResult : Except ChannelFault (Channel W) → ChannelMachine W
  | .ok state => .running state
  | .error fault => .aborted fault

def step : ChannelMachine W → ChannelAction W → Option (ChannelMachine W)
  | .running state, action => match action.writer with
      | some writer =>
          if (state.writers writer).alive then
            (state.writerStep processId writer action).map ofResult
          else none
      | none => (state.readerStep action).map ofResult
  | .aborted _, _ => none

end ChannelMachine

end ThreadIpc.Ipc
