import ThreadIpc.CircularBuffer.Spec
import ThreadIpc.Ipc.Packet

/-!
# `InboundQueue` on a block that holds anything

The reader with its asserts compiled out, on a block of shared memory in which other processes may
have written any head, tail and data. `Create` has already mapped the block. A header is kept as the
bytes of the struct, because a read may come up short and leave some of them as they were. A loop
stops with `outOfFuel` when it has read as many packets as it was given fuel for. The classes and
the handlers are those that the process has registered; a handler may not return, one that returns
has left the block and the queue alone.
-/

namespace ThreadIpc.Ipc

open ProcessRegistry (IpcProcessId)
open Serialization

structure RawBuffer where
  head : Int32
  tail : Int32
  data : Nat → UInt8

structure InboundQueue where
  lastPacketHeader : MessagePacketHeader
  messageDataBuffer : List UInt8
  die : Bool
  deriving DecidableEq

/-- The arguments of `CallRegisteredHandler`. -/
structure HandlerCall where
  sourceProcessId : IpcProcessId
  messageType : Int32
  messageData : Value

structure Receiver where
  conversion : Conversion
  classes : Int32 → Option Program
  depth : Nat
  handlerReturns : HandlerCall → Bool

inductive ReadFault
  | buffer (fault : BufferFault)
  | deserializer (fault : Fault)
  | handler
  | outOfFuel
  deriving DecidableEq

structure PacketRead where
  success : Bool
  header : List UInt8
  queue : InboundQueue
  shared : RawBuffer

namespace RawBuffer

def start (arch : Arch) (shared : RawBuffer) : Option CircularBuffer := do
  let buf ← (CircularBuffer.setBuffer true (kCapacity + 1)).toOption
  let buf ← buf.setHead (arch.toSize shared.head)
  buf.setTail (arch.toSize shared.tail)

def readHeader (shared : RawBuffer) (buf : CircularBuffer) (header : List UInt8) :
    Except BufferFault (CircularBuffer × List UInt8) := do
  let (buf, bytes) ← buf.read shared.data sizeofHeader
  .ok (buf, bytes ++ header.drop bytes.length)

def publishHead (shared : RawBuffer) (buf : CircularBuffer) : RawBuffer :=
  { shared with head := Int32.ofNat buf.head }

end RawBuffer

/-- `CreateAndReadObject` on the bytes of a whole message. -/
def createMessage (arch : Arch) (asserts : Bool) (conversion : Conversion)
    (classes : Int32 → Option Program) (depth : Nat) (bytes : List UInt8) :
    Except Fault (Option Value) :=
  if bytes = [] then .ok none
  else if fits : bytes.length < 2 ^ (arch.sizeBits - 1) then
    (Deserializer.createAndReadObject asserts conversion classes (⟨bytes, fits⟩ : Memory arch) depth
      ⟨0, bytes.length, 0⟩).map (·.1)
  else .error .badAlloc

def handlerCall? (sourceProcessId : IpcProcessId) (messageType : Int32) :
    Option Value → Option HandlerCall
  | some (.object classId fields) => some ⟨sourceProcessId, messageType, .object classId fields⟩
  | _ => none

def Receiver.dispatch (receiver : Receiver) (sourceProcessId : IpcProcessId) (messageType : Int32)
    (message : Option Value) : Except ReadFault (List HandlerCall) :=
  match handlerCall? sourceProcessId messageType message with
  | none => .ok []
  | some call => if receiver.handlerReturns call then .ok [call] else .error .handler

namespace InboundQueue

def startMessage (queue : InboundQueue) (header : MessagePacketHeader) : InboundQueue :=
  if header.sequenceNumber = 0 then { queue with messageDataBuffer := [] } else queue

def readOnePacket (arch : Arch) (header : List UInt8) (queue : InboundQueue) (shared : RawBuffer) :
    Except BufferFault PacketRead :=
  match shared.start arch with
  | none => .ok ⟨false, header, { queue with die := true }, shared⟩
  | some buf => do
      if buf.dataAvailable = 0 then .ok ⟨false, header, queue, shared⟩
      else do
        let (buf, bytes) ← shared.readHeader buf header
        let header := MessagePacketHeader.decode bytes
        let queue := queue.startMessage header
        if header.packetSize > 0 then
          if buf.dataAvailable < arch.toSize header.packetSize then
            .ok ⟨false, bytes, { queue with die := true }, shared.publishHead buf⟩
          else do
            let (buf, data) ← buf.read shared.data (arch.toSize header.packetSize)
            .ok ⟨true, bytes, { queue with
              messageDataBuffer := queue.messageDataBuffer ++ data
              lastPacketHeader := header }, shared.publishHead buf⟩
        else
          .ok ⟨true, bytes, { queue with lastPacketHeader := header }, shared.publishHead buf⟩

def readToLastPacket (arch : Arch) : Nat → List UInt8 → InboundQueue → RawBuffer →
    Except ReadFault (Option MessagePacketHeader × InboundQueue × RawBuffer)
  | 0, _, _, _ => .error .outOfFuel
  | fuel + 1, header, queue, shared => do
      let packet ← (readOnePacket arch header queue shared).mapError .buffer
      if !packet.success then .ok (none, packet.queue, packet.shared)
      else
        let header := MessagePacketHeader.decode packet.header
        if !header.lastPacket then
          readToLastPacket arch fuel packet.header packet.queue packet.shared
        else .ok (some header, packet.queue, packet.shared)

def clearMessage (queue : InboundQueue) : InboundQueue :=
  { queue with messageDataBuffer := [] }

def readOneMessage (arch : Arch) (receiver : Receiver) (fuel : Nat) (header : List UInt8)
    (queue : InboundQueue) (shared : RawBuffer) :
    Except ReadFault (Option (MessagePacketHeader × Option Value) × InboundQueue × RawBuffer) := do
  let (last, queue, shared) ← readToLastPacket arch fuel header queue shared
  match last with
  | none => .ok (none, queue, shared)
  | some header =>
      let message ← (createMessage arch false receiver.conversion receiver.classes receiver.depth
        queue.messageDataBuffer).mapError .deserializer
      .ok (some (header, message), queue.clearMessage, shared)

def newHeader (padding : Padding) : List UInt8 :=
  MessagePacketHeader.encode ⟨0, 0, 0, true, 0⟩ padding

def readAndDispatchMessages (arch : Arch) (receiver : Receiver) (padding : Padding) :
    Nat → InboundQueue → RawBuffer → Except ReadFault (List HandlerCall × InboundQueue × RawBuffer)
  | 0, _, _ => .error .outOfFuel
  | fuel + 1, queue, shared => do
      let (found, queue, shared) ←
        readOneMessage arch receiver (fuel + 1) (newHeader padding) queue shared
      match found with
      | none => .ok ([], queue, shared)
      | some (header, message) =>
          let calls ← receiver.dispatch header.msgSource header.msgType message
          let (later, queue, shared) ←
            readAndDispatchMessages arch receiver padding fuel queue shared
          .ok (calls ++ later, queue, shared)

end InboundQueue

end ThreadIpc.Ipc
