import ThreadIpc.Ipc.OutboundQueue

namespace ThreadIpc.Ipc

open ProcessRegistry (IpcProcessId)

def maxPacketData : Nat := kCapacity - sizeofHeader

theorem toNat_ofNat_of_fits {size : Nat} (fits : size < 2 ^ 32) :
    (Int32.ofNat size).toUInt32.toNat = size := by
  rw [Int32.toUInt32_ofNat']
  exact UInt32.toNat_ofNat_of_lt' fits

theorem ofNat_sub_ofNat {size written : Nat} (le : written ≤ size) :
    Int32.ofNat size - Int32.ofNat written = Int32.ofNat (size - written) :=
  (Int32.ofNat_sub size written le).symm

namespace MessagePacketHeader
variable {header : MessagePacketHeader} {remaining : Nat}

theorem spaceNeeded_eq (size : header.packetSize = Int32.ofNat remaining)
    (fits : remaining + 8212 ≤ 2 ^ 32) : header.spaceNeeded = sizeofHeader + remaining := by
  rw [spaceNeeded, size, toNat_ofNat_of_fits (by omega)]
  exact Nat.mod_eq_of_lt (by unfold sizeofHeader; omega)

theorem fit_small (allowLargeMessage : Bool) (size : header.packetSize = Int32.ofNat remaining)
    (small : remaining ≤ maxPacketData) :
    header.fit allowLargeMessage = some (header, sizeofHeader + remaining) := by
  have bound : remaining ≤ 8163 := small
  have needed := spaceNeeded_eq size (by omega)
  have fits : ¬ sizeofHeader + remaining > kCapacity := by
    unfold sizeofHeader kCapacity
    omega
  rw [fit, needed, if_neg fits]

theorem fit_large (allowLargeMessage : Bool) (size : header.packetSize = Int32.ofNat remaining)
    (fits : remaining + 8212 ≤ 2 ^ 32) (large : maxPacketData < remaining) :
    header.fit allowLargeMessage = if allowLargeMessage then
      some ({ header with packetSize := Int32.ofNat maxPacketData, lastPacket := false }, kCapacity)
    else none := by
  have bound : 8163 < remaining := large
  have tooLarge : sizeofHeader + remaining > kCapacity := by
    unfold sizeofHeader kCapacity
    omega
  rw [fit, spaceNeeded_eq size fits, if_pos tooLarge]
  rfl

theorem packetData_eq (size : header.packetSize = Int32.ofNat remaining) (pos : 0 < remaining)
    (small : remaining ≤ maxPacketData) (msgData : List UInt8) :
    header.packetData msgData = msgData.take remaining := by
  have bound : remaining ≤ 8163 := small
  have positive : header.packetSize > 0 := by
    rw [size, gt_iff_lt, Int32.lt_iff_toInt_lt, Int32.toInt_ofNat_of_lt (by omega)]
    simpa using pos
  rw [packetData, if_pos positive, size, toNat_ofNat_of_fits (by omega)]

end MessagePacketHeader

namespace OutboundQueue

def InProgress (queue : OutboundQueue) (pending : List ShareableIpcMessage) : Prop :=
  match queue.inProgressMessage with
  | none => queue.inProgressWritten = 0 ∧ queue.inProgressSequence = 0
  | some message => pending.head? = some message ∧
      ∃ data, message.serializedMessageData = some data ∧
        0 < queue.inProgressWritten ∧ queue.inProgressWritten < data.bytes.length

def nextSequence (queue : OutboundQueue) : Int32 :=
  if queue.inProgressMessage.isSome then queue.inProgressSequence + 1 else 0

def nextHeader (queue : OutboundQueue) (currentProcessId : IpcProcessId)
    (message : ShareableIpcMessage) (data : SerializedData) : MessagePacketHeader :=
  ⟨currentProcessId, message.ipcMessageType, queue.nextSequence, true,
    Int32.ofNat (data.bytes.length - queue.inProgressWritten)⟩

def noneInProgress (queue : OutboundQueue) : OutboundQueue :=
  { queue with inProgressMessage := none, inProgressWritten := 0, inProgressSequence := 0 }

def moreInProgress (queue : OutboundQueue) (message : ShareableIpcMessage) : OutboundQueue :=
  { queue with
    inProgressMessage := some message
    inProgressWritten := queue.inProgressWritten + maxPacketData
    inProgressSequence := queue.nextSequence }

section Packet
variable {queue : OutboundQueue} {message : ShareableIpcMessage} {data : SerializedData}
  {rest : List ShareableIpcMessage} {allowLargeMessage : Bool}

theorem InProgress.written_lt (progress : queue.InProgress (message :: rest))
    (serialized : message.serializedMessageData = some data) :
    queue.inProgressWritten < data.bytes.length := by
  unfold InProgress at progress
  split at progress
  · rw [progress.1]
    exact List.length_pos_of_ne_nil data.nonempty
  · obtain ⟨front, data', serialized', _, lt⟩ := progress
    cases front
    cases serialized.symm.trans serialized'
    exact lt

theorem nextPacket_eq (currentProcessId : IpcProcessId) (held : queue.hasWriteMutex = true)
    (progress : queue.InProgress (message :: rest))
    (serialized : message.serializedMessageData = some data)
    (allowed : queue.inProgressMessage ≠ none → allowLargeMessage = true) :
    queue.nextPacket currentProcessId message allowLargeMessage =
      .ok (queue.nextHeader currentProcessId message data,
        data.bytes.drop queue.inProgressWritten) := by
  have lt := progress.written_lt serialized
  unfold InProgress at progress
  cases inProgress : queue.inProgressMessage with
  | none =>
      simp only [inProgress] at progress
      simp [nextPacket, check, held, serialized, inProgress, nextHeader, nextSequence, progress.1,
        bind, Except.bind]
  | some other =>
      simp only [inProgress] at progress
      obtain ⟨front, _⟩ := progress
      cases front
      have large := allowed (by simp [inProgress])
      simp [nextPacket, check, held, serialized, inProgress, nextHeader, nextSequence, large,
        bind, Except.bind, ofNat_sub_ofNat lt.le]

theorem packetWritten_last {header : MessagePacketHeader} (last : header.lastPacket = true) :
    queue.packetWritten message header = .ok (true, queue.noneInProgress) := by
  simp [packetWritten, last, noneInProgress]

theorem packetWritten_more (progress : queue.InProgress (message :: rest))
    (serialized : message.serializedMessageData = some data) {header : MessagePacketHeader}
    (more : header.lastPacket = false) (sequence : header.sequenceNumber = queue.nextSequence)
    (size : header.packetSize = Int32.ofNat maxPacketData) :
    queue.packetWritten message header = .ok (false, queue.moreInProgress message) := by
  have lt := progress.written_lt serialized
  have fits := data.fits
  have same : queue.inProgressMessage = none ∨ queue.inProgressMessage = some message := by
    unfold InProgress at progress
    split at progress
    · rename_i none
      exact .inl none
    · rename_i other inProgress
      cases progress.1
      exact .inr inProgress
  have advanced : (queue.inProgressWritten + header.packetSize.toUInt32.toNat) % 2 ^ 32 =
      queue.inProgressWritten + maxPacketData := by
    rw [size, toNat_ofNat_of_fits (by decide)]
    exact Nat.mod_eq_of_lt (by unfold maxPacketData kCapacity sizeofHeader; omega)
  rw [packetWritten, more, if_neg Bool.false_ne_true, advanced, sequence]
  simp [check, same, bind, Except.bind, moreInProgress]

end Packet

end OutboundQueue

end ThreadIpc.Ipc
