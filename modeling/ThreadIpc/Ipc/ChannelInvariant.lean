import ThreadIpc.CircularBuffer.Spec
import ThreadIpc.Ipc.PacketLog
import ThreadIpc.Ipc.QueueState

/-!
# What holds in every state of a channel

The published packets split into those the reader has consumed and those in flight, and the bytes
between head and tail are exactly the packets in flight. Whoever holds the write mutex is at a point
of its message that fits the last published packet, and the reader's buffer is what the consumed
packets leave open. `strict` says that no writer fails, and then a free mutex leaves no open message.
-/

namespace ThreadIpc.Ipc

open ProcessRegistry (IpcProcessId)
open Lib

def ringSize : Nat := kCapacity + 1

def wire {W : Type} (packets : List (Packet W)) : List UInt8 :=
  packets.flatMap (·.bytes)

section Definitions
variable {W : Type} [DecidableEq W]

structure BufferInv (inFlight : List (Packet W)) (shared : BufferFormat) : Prop where
  head : shared.head < ringSize
  fits : (wire inFlight).length ≤ kCapacity
  tail : shared.tail = (shared.head + (wire inFlight).length) % ringSize
  bytes : Ring.slice shared.data ringSize shared.head (wire inFlight).length = wire inFlight

structure Facing (buf : CircularBuffer) (position count : Nat) : Prop where
  valid : buf.Valid
  size : buf.bufSize = ringSize
  head : buf.head = position % ringSize
  available : count ≤ buf.dataAvailable

def ReaderStageInv (consumed inFlight : List (Packet W)) (head : Nat) (reader : Reader) : Prop :=
  match reader.stage with
  | .waiting => reader.messageDataBuffer = collected consumed
  | .started buf => reader.messageDataBuffer = collected consumed ∧
      ∃ packet rest, inFlight = packet :: rest ∧ Facing buf head packet.bytes.length
  | .gotHeader buf header => ∃ packet rest, inFlight = packet :: rest ∧ header = packet.header ∧
      Facing buf (head + sizeofHeader) packet.data.length ∧
      reader.messageDataBuffer = packet.message.bytes.take (packet.index * maxPacketData)
  | .gotPacket buf header => ∃ packet rest, inFlight = packet :: rest ∧ header = packet.header ∧
      Facing buf (head + packet.bytes.length) 0 ∧
      reader.messageDataBuffer = packet.message.bytes.take ((packet.index + 1) * maxPacketData)

def Link (strict : Prop) (published : List (Packet W)) (writer : W) (queue : OutboundQueue) :
    Prop :=
  match queue.inProgressMessage with
  | none => strict → openMessage published = none
  | some message => ∃ packet, openMessage published = some packet ∧ packet.writer = writer ∧
      packet.message = message ∧
      queue.inProgressWritten = (packet.index + 1) * maxPacketData ∧
      queue.inProgressSequence = Int32.ofNat packet.index

structure Working (queue : OutboundQueue) (numWritten : Nat) (allowLargeMessage : Bool) : Prop where
  held : queue.hasWriteMutex = true
  notWaiting : queue.isWaitingForWriteMutex = false ∧ queue.isWaitingForSpaceAvailable = false
  progress : queue.InProgress queue.pending
  first : queue.inProgressMessage ≠ none → numWritten = 0
  allow : allowLargeMessage = decide (numWritten = 0)

structure NextPacket (processId : W → IpcProcessId) (writer : W) (queue : OutboundQueue)
    (allowLargeMessage : Bool) (packet : Packet W) : Prop where
  formed : packet.WellFormed processId
  ownWriter : packet.writer = writer
  front : queue.pending.head? = some packet.message
  resumes : queue.Resumes packet.index
  more : packet.header.lastPacket = false → allowLargeMessage = true ∧
    packet.header.packetSize = Int32.ofNat maxPacketData ∧
      packet.header.sequenceNumber = queue.nextSequence

structure Copying (shared : BufferFormat) (used : Nat) (packet : Packet W)
    (stores : List (Nat × UInt8)) (tail : Nat) : Prop where
  tail : tail = (shared.tail + packet.bytes.length) % ringSize
  storing : Ring.Storing shared.data ringSize shared.tail packet.bytes stores
  fits : used + packet.bytes.length ≤ kCapacity

def WriterStageInv (strict : Prop) (processId : W → IpcProcessId) (published : List (Packet W))
    (shared : BufferFormat) (used : Nat) (writer : W) (own : Writer W) : Prop :=
  match own.stage with
  | .waiting => FlagsInv own.queue ∧
      (own.queue.hasWriteMutex = true → Link strict published writer own.queue)
  | .writing numWritten allowLargeMessage => Working own.queue numWritten allowLargeMessage ∧
      Link strict published writer own.queue
  | .copying packet stores tail numWritten allowLargeMessage =>
      Working own.queue numWritten allowLargeMessage ∧ Link strict published writer own.queue ∧
      NextPacket processId writer own.queue allowLargeMessage packet ∧
      Copying shared used packet stores tail
  | .published packet numWritten allowLargeMessage =>
      Working own.queue numWritten allowLargeMessage ∧
      NextPacket processId writer own.queue allowLargeMessage packet ∧
      openMessage published = if packet.header.lastPacket then none else some packet

def remaining (own : Writer W) : List ShareableIpcMessage :=
  match own.stage with
  | .published packet _ _ =>
      if packet.header.lastPacket then own.queue.pending.tail else own.queue.pending
  | _ => own.queue.pending

def completedBy (completed : List (W × ShareableIpcMessage)) (writer : W) :
    List ShareableIpcMessage :=
  (completed.filter (·.1 = writer)).map (·.2)

structure WriterInv (strict : Prop) (processId : W → IpcProcessId) (published : List (Packet W))
    (shared : BufferFormat) (used : Nat) (writer : W) (holds : Prop)
    (sent completed : List ShareableIpcMessage) (own : Writer W) : Prop where
  stage : WriterStageInv strict processId published shared used writer own
  holds : own.queue.hasWriteMutex = true ↔ holds
  queued : ∀ message ∈ own.queue.pending,
    message ∈ sent ∧ message.serializedMessageData.isSome = true
  order : strict → sent = completed ++ remaining own

structure ChannelInv (strict : Prop) (processId : W → IpcProcessId)
    (consumed inFlight : List (Packet W)) (state : Channel W) : Prop where
  log : state.published = consumed ++ inFlight
  grammar : PacketLog strict processId state.published
  buffer : BufferInv inFlight state.buffer
  lastPacketHeader : state.reader.lastPacketHeader = lastHeader consumed
  reassembled : state.reader.reassembled =
    (lastPackets consumed).map fun packet => received processId packet.completes
  reader : ReaderStageInv consumed inFlight state.buffer.head state.reader
  completed : state.completed = (lastPackets state.published).map (·.completes)
  sent : ∀ packet ∈ state.published, packet.message ∈ state.sent packet.writer
  writers : ∀ writer, (state.writers writer).alive = true →
    WriterInv strict processId state.published state.buffer (wire inFlight).length writer
      (state.writeMutex = some writer) (state.sent writer) (completedBy state.completed writer)
      (state.writers writer)
  owner : ∀ writer, state.writeMutex = some writer → (state.writers writer).alive = true
  alive : strict → ∀ writer, (state.writers writer).alive = true
  idle : strict → state.writeMutex = none → openMessage state.published = none

end Definitions

section Buffer
variable {W : Type} {inFlight : List (Packet W)} {shared : BufferFormat} {buf : CircularBuffer}

theorem BufferInv.tail_lt (inv : BufferInv inFlight shared) : shared.tail < ringSize :=
  inv.tail ▸ Nat.mod_lt _ (Nat.succ_pos _)

theorem BufferInv.valid (inv : BufferInv inFlight shared) :
    CircularBuffer.Valid ⟨shared.head, shared.tail, kCapacity, ringSize, true⟩ :=
  ⟨rfl, rfl, inv.head, inv.tail_lt⟩

theorem BufferInv.start (inv : BufferInv inFlight shared) :
    shared.start = .ok ⟨shared.head, shared.tail, kCapacity, ringSize, true⟩ := by
  obtain ⟨opened, valid⟩ := CircularBuffer.valid_setBuffer kCapacity
  have head := valid.setHead inv.head
  have valid' : CircularBuffer.Valid ⟨shared.head, 0, kCapacity, kCapacity + 1, true⟩ :=
    ⟨rfl, rfl, inv.head, Nat.succ_pos _⟩
  have tail := valid'.setTail inv.tail_lt
  simp only [BufferFormat.start, opened, Except.mapError, bind, Except.bind, head, tail]
  rfl

theorem BufferInv.dataAvailable (inv : BufferInv inFlight shared) :
    CircularBuffer.dataAvailable ⟨shared.head, shared.tail, kCapacity, ringSize, true⟩ =
      (wire inFlight).length :=
  CircularBuffer.dataAvailable_of_tail inv.valid (Nat.lt_succ_of_le inv.fits) inv.tail

theorem BufferInv.spaceAvailable (inv : BufferInv inFlight shared) :
    CircularBuffer.spaceAvailable ⟨shared.head, shared.tail, kCapacity, ringSize, true⟩ +
      (wire inFlight).length = kCapacity := by
  have total := inv.valid.available_add
  rw [inv.dataAvailable] at total
  simp only at total
  omega

theorem Facing.read {position count more : Nat} (facing : Facing buf position (count + more))
    (memory : Nat → UInt8) :
    ∃ buf', buf.read memory count = .ok (buf', Ring.slice memory ringSize position count) ∧
      Facing buf' (position + count) more := by
  have available := facing.available
  have small := facing.valid.dataAvailable_lt
  have inside : (buf.head + count) % buf.bufSize < buf.bufSize :=
    Nat.mod_lt _ (Nat.zero_lt_of_lt facing.valid.head)
  have valid : CircularBuffer.Valid { buf with head := (buf.head + count) % buf.bufSize } :=
    ⟨facing.valid.buffer, facing.valid.capacity, inside, facing.valid.tail⟩
  have tail : buf.tail =
      ((buf.head + count) % buf.bufSize + (buf.dataAvailable - count)) % buf.bufSize := by
    have together : buf.head + count + (buf.dataAvailable - count) =
        buf.head + buf.dataAvailable := by omega
    rw [Nat.mod_add_mod, together]
    exact facing.valid.tail_eq
  have rest := CircularBuffer.dataAvailable_of_tail valid
    (Nat.lt_of_le_of_lt (Nat.sub_le ..) small) tail
  have slice : Ring.slice memory buf.bufSize buf.head count =
      Ring.slice memory ringSize position count := by
    rw [facing.size, facing.head, Ring.slice_mod]
  have read : buf.read memory count = .ok ({ buf with head := (buf.head + count) % buf.bufSize },
      Ring.slice memory buf.bufSize buf.head count) :=
    facing.valid.read_eq (Nat.le_of_add_right_le available)
  rw [slice] at read
  refine ⟨_, read, valid, facing.size, ?_, ?_⟩
  · simp only [facing.size, facing.head, Nat.mod_add_mod]
  · rw [rest]
    omega

theorem wire_cons (packet : Packet W) (rest : List (Packet W)) :
    wire (packet :: rest) = packet.bytes ++ wire rest :=
  List.flatMap_cons

theorem Packet.write_eq {processId : W → IpcProcessId} {packet : Packet W}
    (formed : packet.WellFormed processId) (valid : buf.Valid)
    (fits : packet.bytes.length ≤ buf.spaceAvailable) :
    packet.write buf = .ok ((buf.tail + packet.bytes.length) % buf.bufSize,
      Ring.stores buf.bufSize buf.tail packet.bytes) := by
  have length := packet.header.length_encode packet.padding
  have total := Packet.WellFormed.length_bytes packet
  have header : (packet.header.encode packet.padding).length ≤ buf.spaceAvailable := by omega
  obtain ⟨valid', space⟩ := valid.after_write header
  have data : packet.data.length ≤ CircularBuffer.spaceAvailable { buf with
      tail := (buf.tail + (packet.header.encode packet.padding).length) % buf.bufSize } := by omega
  have first : require (sizeofHeader ≤ buf.spaceAvailable) .fitsSpace = .ok () := by
    simp only [require]
    rw [if_pos (by rw [decide_eq_true_eq]; omega)]
  have second : require (packet.header.packetSize.toUInt32.toNat ≤ CircularBuffer.spaceAvailable {
      buf with tail := (buf.tail + (packet.header.encode packet.padding).length) % buf.bufSize })
      .fitsSpace = .ok () := by
    simp only [require]
    rw [if_pos (by rw [decide_eq_true_eq, formed.packetSize_eq]; exact data)]
  simp only [Packet.write, first, valid.write_eq header, Except.mapError, bind, Except.bind,
    if_pos formed.packetSize_pos, second, valid'.write_eq data]
  rw [Nat.mod_add_mod, Ring.stores_mod, Packet.bytes, Ring.stores_append, List.length_append,
    Nat.add_assoc]

section Preserved
variable {packet : Packet W} {stores : List (Nat × UInt8)} {tail : Nat}

theorem BufferInv.store (inv : BufferInv inFlight shared)
    (copying : Copying shared (wire inFlight).length packet stores tail) {store : Nat × UInt8}
    (member : store ∈ stores) :
    BufferInv inFlight { shared with data := Ring.store shared.data store } := by
  have storing := copying.storing
  rw [inv.tail] at storing
  have fits := copying.fits
  have small : (wire inFlight).length + packet.bytes.length ≤ ringSize := by
    unfold ringSize
    omega
  exact ⟨inv.head, inv.fits, inv.tail, (storing.mod.slice_of_used small member).trans inv.bytes⟩

theorem BufferInv.publish (inv : BufferInv inFlight shared)
    (copying : Copying shared (wire inFlight).length packet [] tail) :
    BufferInv (inFlight ++ [packet]) { shared with tail := tail } := by
  have storing := copying.storing
  rw [inv.tail] at storing
  have whole : wire (inFlight ++ [packet]) = wire inFlight ++ packet.bytes := by
    simp [wire]
  refine ⟨inv.head, ?_, ?_, ?_⟩
  · rw [whole, List.length_append]
    exact copying.fits
  · rw [whole, List.length_append, ← Nat.add_assoc, ← Nat.mod_add_mod, ← inv.tail]
    exact copying.tail
  · simp only [whole, List.length_append, Ring.slice_add, inv.bytes, storing.mod.slice_eq]

theorem BufferInv.consume {rest : List (Packet W)} (inv : BufferInv (packet :: rest) shared) :
    BufferInv rest { shared with head := (shared.head + packet.bytes.length) % ringSize } := by
  obtain ⟨head, fits, tail, bytes⟩ := inv
  rw [wire_cons] at fits tail bytes
  rw [List.length_append] at fits tail
  have rest := (Ring.eq_of_slice_append bytes).2
  refine ⟨Nat.mod_lt _ (Nat.succ_pos _), by omega, ?_, ?_⟩
  · simp only [Nat.mod_add_mod, Nat.add_assoc, tail]
  · simp only [Ring.slice_mod, rest]

end Preserved

end Buffer

end ThreadIpc.Ipc
