import ThreadIpc.Ipc.Channel

namespace ThreadIpc.Ipc

open ProcessRegistry (IpcProcessId)

variable {W : Type} {processId : W → IpcProcessId} {strict : Prop}

def openMessage (log : List (Packet W)) : Option (Packet W) :=
  log.getLast?.filter fun packet => !packet.header.lastPacket

/-- The packets that writers publish one after the other. Where the order is strict, no message is
begun while another is open. -/
inductive PacketLog (strict : Prop) (processId : W → IpcProcessId) : List (Packet W) → Prop
  | empty : PacketLog strict processId []
  | first {log packet} : PacketLog strict processId log → packet.WellFormed processId →
      packet.index = 0 → (strict → openMessage log = none) →
      PacketLog strict processId (log ++ [packet])
  | next {log packet previous} : PacketLog strict processId log → packet.WellFormed processId →
      openMessage log = some previous → packet.writer = previous.writer →
      packet.message = previous.message → packet.index = previous.index + 1 →
      PacketLog strict processId (log ++ [packet])

def lastHeader (log : List (Packet W)) : MessagePacketHeader :=
  match log.getLast? with
  | some packet => packet.header
  | none => Reader.init.lastPacketHeader

def collected (log : List (Packet W)) : List UInt8 :=
  match openMessage log with
  | some packet => packet.message.bytes.take ((packet.index + 1) * maxPacketData)
  | none => []

def received (processId : W → IpcProcessId) (entry : W × ShareableIpcMessage) : Received :=
  ⟨processId entry.1, entry.2.ipcMessageType, entry.2.bytes⟩

def Packet.completes (packet : Packet W) : W × ShareableIpcMessage :=
  (packet.writer, packet.message)

def lastPackets (log : List (Packet W)) : List (Packet W) :=
  log.filter (·.header.lastPacket)

theorem openMessage_append (log : List (Packet W)) (packet : Packet W) :
    openMessage (log ++ [packet]) = if packet.header.lastPacket then none else some packet := by
  rw [openMessage, List.getLast?_concat]
  cases last : packet.header.lastPacket <;> simp [last]

theorem openMessage_some {log : List (Packet W)} {packet : Packet W}
    (opened : openMessage log = some packet) :
    ∃ before, log = before ++ [packet] ∧ packet.header.lastPacket = false := by
  rcases List.eq_nil_or_concat' log with rfl | ⟨before, last, rfl⟩
  · contradiction
  · rw [openMessage_append] at opened
    split at opened
    · contradiction
    · rename_i more
      cases opened
      exact ⟨before, rfl, by simpa using more⟩

theorem lastPackets_append (log more : List (Packet W)) :
    lastPackets (log ++ more) = lastPackets log ++ lastPackets more :=
  List.filter_append ..

namespace PacketLog
variable {log : List (Packet W)} {packet : Packet W}

theorem snoc (grammar : PacketLog strict processId (log ++ [packet])) :
    PacketLog strict processId log ∧ packet.WellFormed processId ∧
      (packet.index = 0 ∧ (strict → openMessage log = none) ∨
        ∃ previous, openMessage log = some previous ∧ packet.writer = previous.writer ∧
          packet.message = previous.message ∧ packet.index = previous.index + 1) := by
  generalize whole : log ++ [packet] = total at grammar
  cases grammar with
  | empty => simp at whole
  | first earlier formed index idle =>
      obtain ⟨rfl, same⟩ := List.append_inj' whole rfl
      cases same
      exact ⟨earlier, formed, .inl ⟨index, idle⟩⟩
  | next earlier formed opened writer message index =>
      obtain ⟨rfl, same⟩ := List.append_inj' whole rfl
      cases same
      exact ⟨earlier, formed, .inr ⟨_, opened, writer, message, index⟩⟩

theorem of_append {more : List (Packet W)} (grammar : PacketLog strict processId (log ++ more)) :
    PacketLog strict processId log := by
  induction more using List.reverseRecOn with
  | nil => simpa using grammar
  | append_singleton rest last ih =>
      rw [← List.append_assoc] at grammar
      exact ih grammar.snoc.1

theorem wellFormed (grammar : PacketLog strict processId log) (member : packet ∈ log) :
    packet.WellFormed processId := by
  obtain ⟨before, after, rfl⟩ := List.append_of_mem member
  rw [List.append_cons] at grammar
  exact grammar.of_append.snoc.2.1

theorem collected_before (grammar : PacketLog strict processId (log ++ [packet]))
    (later : packet.index ≠ 0) :
    collected log = packet.message.bytes.take (packet.index * maxPacketData) := by
  rcases grammar.snoc.2.2 with ⟨first, _⟩ | ⟨previous, opened, _, message, index⟩
  · exact absurd first later
  · simp only [collected, opened, message, index]

theorem data_next (formed : packet.WellFormed processId) :
    packet.message.bytes.take (packet.index * maxPacketData) ++ packet.data =
      packet.message.bytes.take ((packet.index + 1) * maxPacketData) := by
  rw [formed.data, Nat.add_mul, Nat.one_mul, List.take_add]

theorem take_of_last (formed : packet.WellFormed processId)
    (last : packet.header.lastPacket = true) :
    packet.message.bytes.take ((packet.index + 1) * maxPacketData) = packet.message.bytes :=
  List.take_of_length_le (formed.last.mp last)

theorem collected_append (packet : Packet W) (log : List (Packet W)) :
    collected (log ++ [packet]) = if packet.header.lastPacket then []
      else packet.message.bytes.take ((packet.index + 1) * maxPacketData) := by
  rw [collected, openMessage_append]
  cases packet.header.lastPacket <;> rfl

theorem block (grammar : PacketLog strict processId (log ++ [packet])) :
    ∃ before block, log ++ [packet] = before ++ block ∧
      (∀ piece ∈ block, piece.writer = packet.writer ∧ piece.message = packet.message) ∧
      block.flatMap (·.data) =
        packet.message.bytes.take ((packet.index + 1) * maxPacketData) := by
  induction log using List.reverseRecOn generalizing packet with
  | nil =>
      obtain ⟨_, formed, ⟨first, _⟩ | ⟨previous, opened, _⟩⟩ := grammar.snoc
      · refine ⟨[], [packet], rfl, ?_, ?_⟩
        · simp
        · have data := data_next formed
          rw [first, Nat.zero_mul, List.take_zero, List.nil_append] at data
          simpa [first] using data
      · contradiction
  | append_singleton log last ih =>
      obtain ⟨earlier, formed, ⟨first, _⟩ | ⟨previous, opened, writer, message, index⟩⟩ :=
        grammar.snoc
      · refine ⟨log ++ [last], [packet], rfl, ?_, ?_⟩
        · simp
        · have data := data_next formed
          rw [first, Nat.zero_mul, List.take_zero, List.nil_append] at data
          simpa [first] using data
      · rw [openMessage_append] at opened
        split at opened
        · contradiction
        · cases opened
          obtain ⟨before, block, split, same, data⟩ := ih earlier
          refine ⟨before, block ++ [packet], by rw [split, List.append_assoc], ?_, ?_⟩
          · intro piece member
            rcases List.mem_append.mp member with old | new
            · obtain ⟨samePiece, sameMessage⟩ := same piece old
              exact ⟨samePiece.trans writer.symm, sameMessage.trans message.symm⟩
            · cases List.mem_singleton.mp new
              exact ⟨rfl, rfl⟩
          · rw [List.flatMap_append, data, ← message, ← index]
            simpa using data_next formed

end PacketLog

end ThreadIpc.Ipc
