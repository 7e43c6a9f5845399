import ThreadIpc.Ipc.InboundQueue
import ThreadIpc.Serialization.Reader

/-!
# What the reader tolerates

`ReadOnePacket` tolerates whatever the block holds. The messages that its packets complete are
deserialized as they come, so `ReadAndDispatchMessages` ends as far as that ends.
-/

namespace ThreadIpc.Ipc

open Serialization (Arch constructors)

namespace RawBuffer
variable {arch : Arch} {shared : RawBuffer} {buf buf' : CircularBuffer}

def InRange (position : Int32) : Prop :=
  0 ≤ position.toInt ∧ position.toInt < kCapacity + 1

instance (position : Int32) : Decidable (InRange position) :=
  inferInstanceAs (Decidable (_ ∧ _))

def available (arch : Arch) (shared : RawBuffer) : Nat :=
  match shared.start arch with
  | none => 0
  | some buf => buf.dataAvailable

theorem toSize_lt_iff (arch : Arch) (position : Int32) :
    arch.toSize position < kCapacity + 1 ↔ InRange position := by
  have low := position.le_toInt
  have high := position.toInt_lt
  unfold InRange Arch.toSize kCapacity
  cases arch <;> simp only [Arch.sizeBits] <;> omega

theorem start_eq (arch : Arch) (shared : RawBuffer) :
    shared.start arch = if InRange shared.head ∧ InRange shared.tail then
      some ⟨arch.toSize shared.head, arch.toSize shared.tail, kCapacity, kCapacity + 1, true⟩
    else none := by
  obtain ⟨opened, valid⟩ := CircularBuffer.valid_setBuffer kCapacity
  have head := toSize_lt_iff arch shared.head
  have tail := toSize_lt_iff arch shared.tail
  simp only [start, opened, Except.toOption, bind, Option.bind]
  by_cases headInside : InRange shared.head
  · have valid' : CircularBuffer.Valid
        ⟨arch.toSize shared.head, 0, kCapacity, kCapacity + 1, true⟩ :=
      ⟨rfl, rfl, head.mpr headInside, Nat.succ_pos _⟩
    rw [valid.setHead (head.mpr headInside)]
    by_cases tailInside : InRange shared.tail
    · rw [if_pos ⟨headInside, tailInside⟩]
      exact valid'.setTail (tail.mpr tailInside)
    · have outside : kCapacity + 1 ≤ arch.toSize shared.tail := not_lt.mp (tailInside ∘ tail.mp)
      rw [if_neg fun both => tailInside both.2]
      simp [CircularBuffer.setTail, outside]
  · have outside : kCapacity + 1 ≤ arch.toSize shared.head := not_lt.mp (headInside ∘ head.mp)
    rw [if_neg fun both => headInside both.1]
    simp [CircularBuffer.setHead, outside]

theorem start_none (outside : ¬ (InRange shared.head ∧ InRange shared.tail)) :
    shared.start arch = none := by
  rw [start_eq, if_neg outside]

theorem inRange_of_start (started : shared.start arch = some buf) :
    InRange shared.head ∧ InRange shared.tail := by
  by_contra outside
  rw [start_none outside] at started
  contradiction

theorem start_some (started : shared.start arch = some buf) :
    buf.Valid ∧ buf.bufSize = kCapacity + 1 ∧ buf.tail = arch.toSize shared.tail ∧
      InRange shared.tail := by
  rw [start_eq] at started
  split at started
  · rename_i inside
    cases started
    exact ⟨⟨rfl, rfl, (toSize_lt_iff arch _).mpr inside.1, (toSize_lt_iff arch _).mpr inside.2⟩,
      rfl, rfl, inside.2⟩
  · contradiction

theorem available_of_start (started : shared.start arch = some buf) :
    shared.available arch = buf.dataAvailable := by
  rw [available, started]

theorem available_publishHead (tailInside : InRange shared.tail) (valid : buf.Valid)
    (size : buf.bufSize = kCapacity + 1) (tail : buf.tail = arch.toSize shared.tail) :
    (shared.publishHead buf).available arch = buf.dataAvailable := by
  have head := valid.head
  rw [size] at head
  have back : arch.toSize (Int32.ofNat buf.head) = buf.head := by
    have nonneg : (Int32.ofNat buf.head).toInt = buf.head :=
      Int32.toInt_ofNat_of_lt (by unfold kCapacity at head; omega)
    rw [Arch.toSize_of_nonneg (by omega), nonneg, Int.toNat_natCast]
  have headInside : InRange (Int32.ofNat buf.head) := by
    rw [← toSize_lt_iff arch, back]
    exact head
  have started : (shared.publishHead buf).start arch =
      some ⟨buf.head, buf.tail, kCapacity, kCapacity + 1, true⟩ := by
    rw [start_eq, if_pos ⟨headInside, tailInside⟩, tail]
    simp only [publishHead, back]
  rw [available_of_start started]
  simp only [CircularBuffer.dataAvailable, size]

theorem read_min (shared : RawBuffer) (valid : buf.Valid) (size : Nat) :
    ∃ buf' data, buf.read shared.data size = .ok (buf', data) ∧
      data.length = min size buf.dataAvailable ∧ buf'.Valid ∧ buf'.bufSize = buf.bufSize ∧
      buf'.tail = buf.tail ∧ buf'.dataAvailable = buf.dataAvailable - min size buf.dataAvailable := by
  obtain ⟨valid', available⟩ := valid.after_read (min_le_right size buf.dataAvailable)
  exact ⟨_, _, valid.read_min size, Lib.Ring.length_slice, valid', rfl, rfl, available⟩

theorem readHeader_min (shared : RawBuffer) (header : List UInt8) (valid : buf.Valid) :
    ∃ afterHeader bytes, shared.readHeader buf header = .ok (afterHeader, bytes) ∧
      afterHeader.Valid ∧ afterHeader.bufSize = buf.bufSize ∧ afterHeader.tail = buf.tail ∧
      afterHeader.dataAvailable = buf.dataAvailable - min sizeofHeader buf.dataAvailable := by
  obtain ⟨afterHeader, data, ran, _, valid', size, tail, left⟩ :=
    read_min shared valid sizeofHeader
  refine ⟨afterHeader, data ++ header.drop data.length, ?_, valid', size, tail, left⟩
  simp only [readHeader, ran, bind, Except.bind]

end RawBuffer

namespace InboundQueue
variable {arch : Arch} {header : List UInt8} {queue : InboundQueue} {shared : RawBuffer}

/-- What a call of `ReadOnePacket` may do, whatever the block holds. -/
structure Tolerated (arch : Arch) (header : List UInt8) (queue : InboundQueue)
    (shared : RawBuffer) (read : PacketRead) : Prop where
  appended : ∃ data, data.length ≤ shared.available arch ∧
    (read.queue.messageDataBuffer = queue.messageDataBuffer ++ data ∨
      read.queue.messageDataBuffer = data)
  consumed : read.success = true → read.shared.available arch < shared.available arch
  badPosition : ¬ (RawBuffer.InRange shared.head ∧ RawBuffer.InRange shared.tail) →
    read.success = false ∧ read.queue = { queue with die := true }
  badSize : ∀ buf afterHeader bytes, shared.start arch = some buf → 0 < buf.dataAvailable →
    shared.readHeader buf header = .ok (afterHeader, bytes) →
    0 < (MessagePacketHeader.decode bytes).packetSize →
    afterHeader.dataAvailable < arch.toSize (MessagePacketHeader.decode bytes).packetSize →
    read.success = false ∧
      read.queue = { queue.startMessage (MessagePacketHeader.decode bytes) with die := true }

theorem startMessage_buffer (queue : InboundQueue) (header : MessagePacketHeader) :
    (queue.startMessage header).messageDataBuffer = queue.messageDataBuffer ∨
      (queue.startMessage header).messageDataBuffer = [] := by
  unfold startMessage
  split
  · exact .inr rfl
  · exact .inl rfl

theorem appended_startMessage (queue : InboundQueue) (header : MessagePacketHeader)
    (data : List UInt8) :
    (queue.startMessage header).messageDataBuffer ++ data = queue.messageDataBuffer ++ data ∨
      (queue.startMessage header).messageDataBuffer ++ data = data := by
  rcases queue.startMessage_buffer header with kept | cleared
  · exact .inl (by rw [kept])
  · exact .inr (by rw [cleared, List.nil_append])

theorem readOnePacket_tolerated (arch : Arch) (header : List UInt8) (queue : InboundQueue)
    (shared : RawBuffer) :
    ∃ read, readOnePacket arch header queue shared = .ok read ∧
      Tolerated arch header queue shared read := by
  cases started : shared.start arch with
  | none =>
      refine ⟨⟨false, header, { queue with die := true }, shared⟩, by rw [readOnePacket, started],
        ⟨[], Nat.zero_le _, .inl ?_⟩, nofun, fun _ => ⟨rfl, rfl⟩, fun _ _ _ impossible => ?_⟩
      · rw [List.append_nil]
      · rw [started] at impossible
        contradiction
  | some buf =>
      obtain ⟨valid, size, tail, tailInside⟩ := RawBuffer.start_some started
      have available := RawBuffer.available_of_start started
      have inside := RawBuffer.inRange_of_start started
      by_cases empty : buf.dataAvailable = 0
      · refine ⟨⟨false, header, queue, shared⟩, ?_, ⟨[], Nat.zero_le _, .inl ?_⟩, nofun,
          fun outside => absurd inside outside, fun _ _ _ same nonempty => ?_⟩
        · simp only [readOnePacket, started, empty, if_true]
        · rw [List.append_nil]
        · cases started.symm.trans same
          exact absurd empty nonempty.ne'
      · obtain ⟨afterHeader, bytes, readHeader, valid', size', tail', left⟩ :=
          RawBuffer.readHeader_min shared header valid
        have headerSize : sizeofHeader = 20 := rfl
        have afterAvailable := RawBuffer.available_publishHead tailInside valid'
          (size'.trans size) (tail'.trans tail)
        by_cases positive : (MessagePacketHeader.decode bytes).packetSize > 0
        · by_cases tooLarge : afterHeader.dataAvailable <
              arch.toSize (MessagePacketHeader.decode bytes).packetSize
          · refine ⟨⟨false, bytes, { queue.startMessage (.decode bytes) with die := true },
              shared.publishHead afterHeader⟩, ?_, ⟨[], Nat.zero_le _, ?_⟩, nofun,
              fun outside => absurd inside outside,
              fun buf' afterHeader' bytes' same _ read' _ _ => ?_⟩
            · simp only [readOnePacket, started, empty, if_false, readHeader, bind, Except.bind,
                positive, if_true, tooLarge]
            · simpa using queue.appended_startMessage (.decode bytes) []
            · cases started.symm.trans same
              cases readHeader.symm.trans read'
              exact ⟨rfl, rfl⟩
          · have enough : arch.toSize (MessagePacketHeader.decode bytes).packetSize ≤
                afterHeader.dataAvailable := not_lt.mp tooLarge
            obtain ⟨afterData, data, ran', length', valid'', size'', tail'', left'⟩ :=
              RawBuffer.read_min shared valid'
                (arch.toSize (MessagePacketHeader.decode bytes).packetSize)
            have finalAvailable := RawBuffer.available_publishHead tailInside valid''
              (size''.trans (size'.trans size)) (tail''.trans (tail'.trans tail))
            refine ⟨⟨true, bytes, { queue.startMessage (.decode bytes) with
              messageDataBuffer := (queue.startMessage (.decode bytes)).messageDataBuffer ++ data
              lastPacketHeader := .decode bytes }, shared.publishHead afterData⟩, ?_,
              ⟨data, ?_, queue.appended_startMessage (.decode bytes) data⟩, fun _ => ?_,
              fun outside => absurd inside outside,
              fun buf' afterHeader' bytes' same _ read' _ tooLarge' => ?_⟩
            · simp only [readOnePacket, started, empty, if_false, readHeader, bind, Except.bind,
                positive, if_true, tooLarge, ran']
            · omega
            · simp only [finalAvailable]
              omega
            · cases started.symm.trans same
              cases readHeader.symm.trans read'
              contradiction
        · refine ⟨⟨true, bytes, { queue.startMessage (.decode bytes) with
            lastPacketHeader := .decode bytes }, shared.publishHead afterHeader⟩, ?_,
            ⟨[], Nat.zero_le _, ?_⟩, fun _ => ?_, fun outside => absurd inside outside,
            fun buf' afterHeader' bytes' same _ read' positive' _ => ?_⟩
          · simp only [readOnePacket, started, empty, if_false, readHeader, bind, Except.bind,
              positive]
          · simpa using queue.appended_startMessage (.decode bytes) []
          · simp only [afterAvailable]
            omega
          · cases started.symm.trans same
            cases readHeader.symm.trans read'
            contradiction

theorem readToLastPacket_ends (arch : Arch) (fuel : Nat) (header : List UInt8)
    (queue : InboundQueue) (shared : RawBuffer) (enough : shared.available arch < fuel) :
    ∃ last queue' shared', readToLastPacket arch fuel header queue shared =
        .ok (last, queue', shared') ∧
      (last.isSome = true → shared'.available arch < shared.available arch) := by
  induction fuel generalizing header queue shared with
  | zero => omega
  | succ fuel ih =>
      obtain ⟨read, ran, tolerated⟩ := readOnePacket_tolerated arch header queue shared
      cases success : read.success with
      | false =>
          refine ⟨none, read.queue, read.shared, ?_, nofun⟩
          simp [readToLastPacket, ran, Except.mapError, bind, Except.bind, success]
      | true =>
          have less := tolerated.consumed success
          cases last : (MessagePacketHeader.decode read.header).lastPacket with
          | false =>
              obtain ⟨found, queue', shared', later, fewer⟩ :=
                ih read.header read.queue read.shared (by omega)
              refine ⟨found, queue', shared', ?_, fun isFound => (fewer isFound).trans less⟩
              simp [readToLastPacket, ran, Except.mapError, bind, Except.bind, success, last, later]
          | true =>
              simp only [readToLastPacket, ran, Except.mapError, bind, Except.bind, success, last,
                Bool.not_true, Bool.false_eq_true, if_false]
              exact ⟨_, read.queue, read.shared, rfl, fun _ => less⟩

/-- The messages that the packets in the block complete, whatever becomes of their bytes. -/
def completed (arch : Arch) (padding : Padding) :
    Nat → InboundQueue → RawBuffer → List (MessagePacketHeader × List UInt8)
  | 0, _, _ => []
  | fuel + 1, queue, shared =>
      match readToLastPacket arch (fuel + 1) (newHeader padding) queue shared with
      | .ok (some header, queue, shared) =>
          (header, queue.messageDataBuffer) :: completed arch padding fuel queue.clearMessage shared
      | _ => []

end InboundQueue

/-- `CreateAndReadObject` returns on the bytes, and the handler on the object if there is one. -/
def Receiver.Accepts (receiver : Receiver) (arch : Arch)
    (message : MessagePacketHeader × List UInt8) : Prop :=
  ∃ object, createMessage arch false receiver.conversion receiver.classes receiver.depth
      message.2 = .ok object ∧
    ∀ call, handlerCall? message.1.msgSource message.1.msgType object = some call →
      receiver.handlerReturns call = true

theorem Receiver.accepts_iff {receiver : Receiver} {arch : Arch} {header : MessagePacketHeader}
    {bytes : List UInt8} : receiver.Accepts arch (header, bytes) ↔
      ∃ object calls, createMessage arch false receiver.conversion receiver.classes receiver.depth
        bytes = .ok object ∧
      receiver.dispatch header.msgSource header.msgType object = .ok calls := by
  refine exists_congr fun object => ?_
  unfold dispatch
  cases handlerCall? header.msgSource header.msgType object with
  | none => simp
  | some call =>
      cases returns : receiver.handlerReturns call with
      | false => simp [returns]
      | true => simp [returns]

namespace InboundQueue
variable {arch : Arch} {receiver : Receiver} {padding : Padding}

theorem readAndDispatchMessages_ends_iff (fuel : Nat) (queue : InboundQueue) (shared : RawBuffer)
    (enough : shared.available arch < fuel) :
    (∃ result, readAndDispatchMessages arch receiver padding fuel queue shared = .ok result) ↔
      ∀ message ∈ completed arch padding fuel queue shared, receiver.Accepts arch message := by
  induction fuel generalizing queue shared with
  | zero => omega
  | succ fuel ih =>
      obtain ⟨last, queue', shared', ran, fewer⟩ :=
        readToLastPacket_ends arch (fuel + 1) (newHeader padding) queue shared enough
      cases last with
      | none =>
          simp [readAndDispatchMessages, readOneMessage, completed, ran, bind, Except.bind]
      | some header =>
          have less := fewer rfl
          have later := ih queue'.clearMessage shared' (by omega)
          simp only [completed, ran, List.forall_mem_cons, ← later, Receiver.accepts_iff]
          simp only [readAndDispatchMessages, readOneMessage, ran, bind, Except.bind]
          cases createMessage arch false receiver.conversion receiver.classes receiver.depth
              queue'.messageDataBuffer with
          | error fault => simp [Except.mapError]
          | ok object =>
              simp only [Except.mapError]
              cases dispatched : receiver.dispatch header.msgSource header.msgType object with
              | error fault => simp [dispatched]
              | ok calls =>
                  cases readAndDispatchMessages arch receiver padding fuel queue'.clearMessage
                      shared' with
                  | error fault => simp
                  | ok result => simp [dispatched]

theorem inboundQueue_tolerates_iff (arch : Arch) (receiver : Receiver) (padding : Padding)
    (queue : InboundQueue) (shared : RawBuffer) :
    (∀ header, ∃ read, readOnePacket arch header queue shared = .ok read ∧
      Tolerated arch header queue shared read) ∧
    ((∃ result, readAndDispatchMessages arch receiver padding (shared.available arch + 1) queue
        shared = .ok result) ↔
      ∀ message ∈ completed arch padding (shared.available arch + 1) queue shared,
        receiver.Accepts arch message) :=
  ⟨fun header => readOnePacket_tolerated arch header queue shared,
    readAndDispatchMessages_ends_iff _ queue shared (Nat.lt_succ_self _)⟩

def minusOneBlock : RawBuffer where
  head := 0
  tail := 32
  data i := [4, 0, 0, 0, 2, 0, 0, 0, 0, 0, 0, 0, 1, 0, 0, 0, 12, 0, 0, 0,
    3, 0, 0, 0, 4, 0, 0, 0, 255, 255, 255, 255].getD i 0

def emptyQueue : InboundQueue where
  lastPacketHeader := ⟨0, 0, 0, true, 0⟩
  messageDataBuffer := []
  die := false

def stringReceiver : Receiver where
  conversion := ⟨fun _ => none, fun _ => none⟩
  classes := constructors
  depth := 12
  handlerReturns _ := true

def fault? : Except ReadFault (List HandlerCall × InboundQueue × RawBuffer) → Option ReadFault
  | .error fault => some fault
  | .ok _ => none

theorem minusOneBlock_not_tolerated :
    fault? (readAndDispatchMessages .lp64 stringReceiver ⟨0, 0, 0⟩
      (minusOneBlock.available .lp64 + 1) emptyQueue minusOneBlock) =
        some (.deserializer .outOfBounds) ∧
    ¬ ∃ result, readAndDispatchMessages .lp64 stringReceiver ⟨0, 0, 0⟩
      (minusOneBlock.available .lp64 + 1) emptyQueue minusOneBlock = .ok result := by
  have faulty : fault? (readAndDispatchMessages .lp64 stringReceiver ⟨0, 0, 0⟩
      (minusOneBlock.available .lp64 + 1) emptyQueue minusOneBlock) =
        some (.deserializer .outOfBounds) := by decide +kernel
  refine ⟨faulty, ?_⟩
  rintro ⟨result, returned⟩
  rw [returned] at faulty
  contradiction

end InboundQueue

end ThreadIpc.Ipc
