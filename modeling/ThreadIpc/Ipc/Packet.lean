import ThreadIpc.Ipc.SentBytes
import ThreadIpc.Serialization.Encoding

namespace ThreadIpc.Ipc

open ProcessRegistry (IpcProcessId)
open Serialization (intBytes bytesInt)

/-- The three bytes that a compiler leaves after `last_packet`; their values are not set. -/
structure Padding where
  first : UInt8
  second : UInt8
  third : UInt8
  deriving DecidableEq

structure Packet (W : Type) where
  writer : W
  message : ShareableIpcMessage
  header : MessagePacketHeader
  padding : Padding
  data : List UInt8
  deriving DecidableEq

namespace MessagePacketHeader

def encode (header : MessagePacketHeader) (padding : Padding) : List UInt8 :=
  intBytes header.msgSource.toInt32 ++ intBytes header.msgType ++ intBytes header.sequenceNumber ++
    [if header.lastPacket then 1 else 0, padding.first, padding.second, padding.third] ++
    intBytes header.packetSize

def decode (bytes : List UInt8) : MessagePacketHeader where
  msgSource := (bytesInt (bytes.take 4)).toUInt32
  msgType := bytesInt ((bytes.drop 4).take 4)
  sequenceNumber := bytesInt ((bytes.drop 8).take 4)
  lastPacket := bytes[12]? ≠ some 0
  packetSize := bytesInt ((bytes.drop 16).take 4)

theorem length_encode (header : MessagePacketHeader) (padding : Padding) :
    (header.encode padding).length = sizeofHeader := by
  simp [encode, intBytes, sizeofHeader]

theorem decode_encode (header : MessagePacketHeader) (padding : Padding) :
    decode (header.encode padding) = header := by
  obtain ⟨msgSource, msgType, sequenceNumber, lastPacket, packetSize⟩ := header
  have length (data : Int32) : (intBytes data).length = 4 := by simp [intBytes]
  have dropped (data : Int32) {count : Nat} (past : 4 ≤ count) : (intBytes data).drop count = [] :=
    List.drop_eq_nil_of_le (length data ▸ past)
  have whole (data : Int32) : (intBytes data).take 4 = intBytes data :=
    List.take_of_length_le (length data).le
  have last : (encode ⟨msgSource, msgType, sequenceNumber, lastPacket, packetSize⟩ padding)[12]? =
      some (if lastPacket then 1 else 0) := by
    simp [encode, length]
  have flag : decide (some (if lastPacket = true then (1 : UInt8) else 0) ≠ some 0) = lastPacket := by
    cases lastPacket <;> decide
  rw [decode, last, flag]
  simp [encode, List.drop_append, length, dropped, whole, Serialization.bytesInt_intBytes]

end MessagePacketHeader

namespace Packet
variable {W : Type} {processId : W → IpcProcessId} {packet : Packet W}

def bytes (packet : Packet W) : List UInt8 :=
  packet.header.encode packet.padding ++ packet.data

def index (packet : Packet W) : Nat :=
  packet.header.sequenceNumber.toUInt32.toNat

/-- A packet carries the next piece of its message, and its header says which. -/
structure WellFormed (processId : W → IpcProcessId) (packet : Packet W) : Prop where
  source : packet.header.msgSource = processId packet.writer
  type : packet.header.msgType = packet.message.ipcMessageType
  fits : packet.message.bytes.length < 2 ^ 32
  inside : packet.index * maxPacketData < packet.message.bytes.length
  data : packet.data =
    (packet.message.bytes.drop (packet.index * maxPacketData)).take maxPacketData
  size : packet.header.packetSize = Int32.ofNat packet.data.length
  last : packet.header.lastPacket = true ↔
    packet.message.bytes.length ≤ (packet.index + 1) * maxPacketData

namespace WellFormed

theorem length_data (formed : packet.WellFormed processId) :
    packet.data.length =
      min maxPacketData (packet.message.bytes.length - packet.index * maxPacketData) := by
  rw [formed.data, List.length_take, List.length_drop]

theorem data_le (formed : packet.WellFormed processId) : packet.data.length ≤ maxPacketData :=
  formed.length_data ▸ min_le_left _ _

theorem data_pos (formed : packet.WellFormed processId) : 0 < packet.data.length := by
  have positive : 0 < maxPacketData := by decide
  have inside := formed.inside
  rw [formed.length_data]
  omega

theorem length_bytes (packet : Packet W) :
    packet.bytes.length = sizeofHeader + packet.data.length := by
  rw [bytes, List.length_append, MessagePacketHeader.length_encode]

theorem packetSize_pos (formed : packet.WellFormed processId) : packet.header.packetSize > 0 := by
  have positive := formed.data_pos
  have small := formed.data_le
  have bound : maxPacketData = 8163 := rfl
  rw [formed.size, gt_iff_lt, Int32.lt_iff_toInt_lt, Int32.toInt_ofNat_of_lt (by omega)]
  simpa using positive

theorem packetSize_eq (formed : packet.WellFormed processId) :
    packet.header.packetSize.toUInt32.toNat = packet.data.length := by
  have small := formed.data_le
  have bound : maxPacketData = 8163 := rfl
  rw [formed.size, toNat_ofNat_of_fits (by omega)]

theorem sequenceNumber_eq (packet : Packet W) :
    packet.header.sequenceNumber = Int32.ofNat packet.index := by
  rw [index, Int32.ofNat]
  simp

end WellFormed

theorem sequenceNumber_eq_zero : packet.header.sequenceNumber = 0 ↔ packet.index = 0 := by
  constructor
  · intro zero
    rw [index, zero]
    rfl
  · intro first
    rw [WellFormed.sequenceNumber_eq, first]
    rfl

theorem sequenceNumber_succ {next : Packet W} (follows : next.index = packet.index + 1) :
    next.header.sequenceNumber = packet.header.sequenceNumber + 1 := by
  rw [WellFormed.sequenceNumber_eq, WellFormed.sequenceNumber_eq packet, follows, Int32.ofNat_add]
  rfl

end Packet

namespace OutboundQueue
variable {queue : OutboundQueue} {message : ShareableIpcMessage} {data : SerializedData}
  {header : MessagePacketHeader} {allowLargeMessage : Bool} {sentPackets needed : Nat}

def Resumes (queue : OutboundQueue) (sentPackets : Nat) : Prop :=
  queue.inProgressWritten = sentPackets * maxPacketData ∧
    queue.nextSequence = Int32.ofNat sentPackets

theorem wellFormed_of_fit {W : Type} (processId : W → IpcProcessId) (writer : W)
    (padding : Padding) (resumes : queue.Resumes sentPackets)
    (serialized : message.serializedMessageData = some data)
    (inside : queue.inProgressWritten < data.bytes.length)
    (fit : (queue.nextHeader (processId writer) message data).fit allowLargeMessage =
      some (header, needed)) :
    let packet : Packet W := ⟨writer, message, header, padding,
      header.packetData (data.bytes.drop queue.inProgressWritten)⟩
    packet.WellFormed processId ∧ packet.index = sentPackets ∧ needed = packet.bytes.length ∧
      (header.lastPacket = false → allowLargeMessage = true ∧
        header.packetSize = Int32.ofNat maxPacketData ∧
          header.sequenceNumber = queue.nextSequence) := by
  obtain ⟨written, sequence⟩ := resumes
  have bytes : message.bytes = data.bytes := by simp only [ShareableIpcMessage.bytes, serialized]
  have fits := data.fits
  have bound : maxPacketData = 8163 := rfl
  have size : (queue.nextHeader (processId writer) message data).packetSize =
      Int32.ofNat (data.bytes.length - queue.inProgressWritten) := rfl
  have index : (Int32.ofNat sentPackets).toUInt32.toNat = sentPackets := by
    refine toNat_ofNat_of_fits ?_
    rw [bound] at written
    omega
  by_cases small : data.bytes.length - queue.inProgressWritten ≤ maxPacketData
  · rw [MessagePacketHeader.fit_small allowLargeMessage size small] at fit
    obtain ⟨rfl, rfl⟩ := Prod.mk.inj (Option.some.inj fit)
    have whole := MessagePacketHeader.packetData_eq size (by omega) small
      (data.bytes.drop queue.inProgressWritten)
    have enough : (data.bytes.drop queue.inProgressWritten).length ≤ maxPacketData := by
      rwa [List.length_drop]
    rw [List.take_of_length_le (List.length_drop ..).le] at whole
    simp only [whole]
    refine ⟨⟨rfl, rfl, ?_, ?_, ?_, ?_, ?_⟩, ?_, ?_, by intros; contradiction⟩
    all_goals simp only [Packet.index, nextHeader, sequence, index, bytes]
    · omega
    · rwa [← written]
    · rw [← written, List.take_of_length_le enough]
    · rw [List.length_drop]
    · simp only [true_iff]
      rw [Nat.add_mul, ← written]
      omega
    · rw [Packet.WellFormed.length_bytes, List.length_drop]
  · have large := not_le.mp small
    rw [MessagePacketHeader.fit_large allowLargeMessage size (by omega) large] at fit
    split at fit
    · rename_i allowed
      obtain ⟨rfl, rfl⟩ := Prod.mk.inj (Option.some.inj fit)
      have piece : MessagePacketHeader.packetData
          { queue.nextHeader (processId writer) message data with
            packetSize := Int32.ofNat maxPacketData, lastPacket := false }
          (data.bytes.drop queue.inProgressWritten) =
            (data.bytes.drop queue.inProgressWritten).take maxPacketData :=
        MessagePacketHeader.packetData_eq rfl (by decide) le_rfl _
      have length : ((data.bytes.drop queue.inProgressWritten).take maxPacketData).length =
          maxPacketData := by
        rw [List.length_take, List.length_drop]
        omega
      simp only [piece]
      refine ⟨⟨rfl, rfl, ?_, ?_, ?_, ?_, ?_⟩, ?_, ?_, fun _ => ⟨allowed, trivial, rfl⟩⟩
      all_goals simp only [Packet.index, nextHeader, sequence, index, bytes]
      · omega
      · rwa [← written]
      · rw [← written]
      · rw [length]
      · simp only [Bool.false_eq_true, false_iff]
        rw [Nat.add_mul, ← written]
        omega
      · rw [Packet.WellFormed.length_bytes, length]
        rfl
    · contradiction

end OutboundQueue

end ThreadIpc.Ipc
