import ThreadIpc.Ipc.ChannelInvariant

namespace ThreadIpc.Ipc

open ProcessRegistry (IpcProcessId)
open Lib

variable {W : Type} [DecidableEq W] {processId : W → IpcProcessId} {strict : Prop}
  {consumed inFlight : List (Packet W)} {state : Channel W}

theorem require_ok {condition : Prop} [Decidable condition] (holds : condition)
    (fault : ChannelFault) : require condition fault = .ok () := by
  rw [require, if_pos (decide_eq_true holds)]

theorem ChannelInv.withReader (inv : ChannelInv strict processId consumed inFlight state)
    {reader : Reader} (stage : ReaderStageInv consumed inFlight state.buffer.head reader)
    (header : reader.lastPacketHeader = state.reader.lastPacketHeader)
    (reassembled : reader.reassembled = state.reader.reassembled) :
    ChannelInv strict processId consumed inFlight { state with reader := reader } where
  log := inv.log
  grammar := inv.grammar
  buffer := inv.buffer
  lastPacketHeader := header.trans inv.lastPacketHeader
  reassembled := reassembled.trans inv.reassembled
  reader := stage
  completed := inv.completed
  sent := inv.sent
  writers := inv.writers
  owner := inv.owner
  alive := inv.alive
  idle := inv.idle

theorem ChannelInv.front (inv : ChannelInv strict processId consumed inFlight state)
    {packet : Packet W} {rest : List (Packet W)} (split : inFlight = packet :: rest) :
    PacketLog strict processId (consumed ++ [packet]) ∧ packet.WellFormed processId := by
  have grammar := inv.grammar
  rw [inv.log, split, List.append_cons] at grammar
  have upTo := grammar.of_append
  exact ⟨upTo, upTo.snoc.2.1⟩

theorem ChannelInv.front_bytes (inv : ChannelInv strict processId consumed inFlight state)
    {packet : Packet W} {rest : List (Packet W)} (split : inFlight = packet :: rest) :
    Ring.slice state.buffer.data ringSize state.buffer.head sizeofHeader =
      packet.header.encode packet.padding ∧
    Ring.slice state.buffer.data ringSize (state.buffer.head + sizeofHeader) packet.data.length =
      packet.data := by
  have bytes := inv.buffer.bytes
  rw [split, wire_cons, Packet.bytes, List.append_assoc] at bytes
  obtain ⟨header, rest⟩ := Ring.eq_of_slice_append bytes
  rw [MessagePacketHeader.length_encode] at header rest
  exact ⟨header, (Ring.eq_of_slice_append rest).1⟩

theorem ChannelInv.readerStart (inv : ChannelInv strict processId consumed inFlight state)
    (stage : state.reader.stage = .waiting) :
    ∃ reader, state.reader.start state.buffer = .ok reader ∧
      ChannelInv strict processId consumed inFlight { state with reader := reader } := by
  have waiting := inv.reader
  simp only [ReaderStageInv, stage] at waiting
  simp only [Reader.start, inv.buffer.start, bind, Except.bind, inv.buffer.dataAvailable]
  split
  · exact ⟨_, rfl, inv⟩
  · rename_i some
    refine ⟨_, rfl, inv.withReader ?_ rfl rfl⟩
    refine ⟨waiting, ?_⟩
    cases inFlight with
    | nil => exact absurd rfl some
    | cons packet rest =>
        refine ⟨packet, rest, rfl, inv.buffer.valid, rfl, ?_, ?_⟩
        · exact (Nat.mod_eq_of_lt inv.buffer.head).symm
        · rw [inv.buffer.dataAvailable, wire_cons, List.length_append]
          exact Nat.le_add_right _ _

theorem ChannelInv.readHeader (inv : ChannelInv strict processId consumed inFlight state)
    {buf : CircularBuffer} (stage : state.reader.stage = .started buf) :
    ∃ reader, state.reader.readHeader state.buffer buf = .ok reader ∧
      ChannelInv strict processId consumed inFlight { state with reader := reader } := by
  have started := inv.reader
  simp only [ReaderStageInv, stage] at started
  obtain ⟨buffered, packet, rest, split, facing⟩ := started
  obtain ⟨grammar, formed⟩ := inv.front split
  rw [Packet.WellFormed.length_bytes] at facing
  have enough : sizeofHeader ≤ buf.dataAvailable := Nat.le_of_add_right_le facing.available
  obtain ⟨buf', read, facing'⟩ := facing.read state.buffer.data
  rw [(inv.front_bytes split).1] at read
  simp only [Reader.readHeader, require_ok enough, read, Except.mapError, bind, Except.bind,
    MessagePacketHeader.decode_encode, Packet.sequenceNumber_eq_zero]
  split
  · rename_i first
    refine ⟨_, rfl, inv.withReader ?_ rfl rfl⟩
    refine ⟨packet, rest, split, rfl, facing', ?_⟩
    rw [first, Nat.zero_mul, List.take_zero]
  · rename_i later
    rcases grammar.snoc.2.2 with ⟨first, _⟩ | ⟨previous, opened, writer, message, index⟩
    · contradiction
    · obtain ⟨before, shape, more⟩ := openMessage_some opened
      obtain ⟨earlier, formedPrevious, _⟩ := (shape ▸ grammar.of_append : PacketLog strict processId
        (before ++ [previous])).snoc
      have last : state.reader.lastPacketHeader = previous.header := by
        rw [inv.lastPacketHeader, lastHeader, shape, List.getLast?_concat]
      have source : packet.header.msgSource = previous.header.msgSource := by
        rw [formed.source, formedPrevious.source, writer]
      have type : packet.header.msgType = previous.header.msgType := by
        rw [formed.type, formedPrevious.type, message]
      have sequence := Packet.sequenceNumber_succ index
      simp only [last, more, source, type, sequence, require]
      refine ⟨_, rfl, inv.withReader ?_ last.symm rfl⟩
      refine ⟨packet, rest, split, rfl, facing', ?_⟩
      exact buffered.trans (grammar.collected_before later)

theorem ChannelInv.readPayload (inv : ChannelInv strict processId consumed inFlight state)
    {buf : CircularBuffer} {header : MessagePacketHeader}
    (stage : state.reader.stage = .gotHeader buf header) :
    ∃ reader, state.reader.readPayload state.buffer buf header = .ok reader ∧
      ChannelInv strict processId consumed inFlight { state with reader := reader } := by
  have gotHeader := inv.reader
  simp only [ReaderStageInv, stage] at gotHeader
  obtain ⟨packet, rest, split, rfl, facing, buffered⟩ := gotHeader
  obtain ⟨_, formed⟩ := inv.front split
  have whole : Facing buf (state.buffer.head + sizeofHeader) (packet.data.length + 0) := facing
  obtain ⟨buf', read, facing'⟩ := whole.read state.buffer.data
  rw [(inv.front_bytes split).2] at read
  have enough : ¬ buf.dataAvailable < packet.data.length := not_lt.mpr facing.available
  simp only [Reader.readPayload, if_pos formed.packetSize_pos, formed.packetSize_eq, if_neg enough,
    read, Except.mapError, bind, Except.bind]
  refine ⟨_, rfl, inv.withReader ?_ rfl rfl⟩
  refine ⟨packet, rest, split, rfl, ?_, ?_⟩
  · rw [Packet.WellFormed.length_bytes, ← Nat.add_assoc]
    exact facing'
  · simp only [buffered]
    exact PacketLog.data_next formed

omit [DecidableEq W] in
theorem WriterInv.consume {published : List (Packet W)} {shared : BufferFormat} {used : Nat}
    {writer : W} {holds : Prop} {sent completed : List ShareableIpcMessage} {own : Writer W}
    (inv : WriterInv strict processId published shared used writer holds sent completed own)
    {less : Nat} (fewer : less ≤ used) (head : Nat) :
    WriterInv strict processId published { shared with head := head } less writer holds sent
      completed own := by
  refine ⟨?_, inv.holds, inv.queued, inv.order⟩
  have stage := inv.stage
  unfold WriterStageInv at stage ⊢
  split
  case h_3 =>
      rename_i copying
      simp only [copying] at stage
      obtain ⟨working, link, next, tail, storing, fits⟩ := stage
      exact ⟨working, link, next, tail, storing, by omega⟩
  all_goals
    rename_i own_stage
    simpa only [own_stage] using stage

theorem commit_eq (reader : Reader) (header : MessagePacketHeader) :
    reader.commit header = { reader with
      stage := .waiting
      lastPacketHeader := header
      messageDataBuffer := if header.lastPacket then [] else reader.messageDataBuffer
      reassembled := reader.reassembled ++ if header.lastPacket then
        [⟨header.msgSource, header.msgType, reader.messageDataBuffer⟩] else [] } := by
  cases last : header.lastPacket <;> simp [Reader.commit, last]

theorem ChannelInv.readerCommit (inv : ChannelInv strict processId consumed inFlight state)
    {buf : CircularBuffer} {header : MessagePacketHeader}
    (stage : state.reader.stage = .gotPacket buf header) :
    ∃ consumed' inFlight', ChannelInv strict processId consumed' inFlight' { state with
      buffer := { state.buffer with head := buf.head }, reader := state.reader.commit header } := by
  have gotPacket := inv.reader
  simp only [ReaderStageInv, stage] at gotPacket
  obtain ⟨packet, rest, rfl, rfl, facing, buffered⟩ := gotPacket
  obtain ⟨_, formed⟩ := inv.front rfl
  refine ⟨consumed ++ [packet], rest, ?_, inv.grammar, ?_, ?_, ?_, ?_, inv.completed, inv.sent,
    fun writer alive => ?_, inv.owner, inv.alive, inv.idle⟩
  · rw [List.append_assoc]
    exact inv.log
  · simp only [facing.head]
    exact inv.buffer.consume
  · simp only [commit_eq, lastHeader, List.getLast?_concat]
  · simp only [commit_eq, inv.reassembled, lastPackets_append, List.map_append]
    cases last : packet.header.lastPacket with
    | false => simp [lastPackets, last]
    | true =>
        rw [buffered, PacketLog.take_of_last formed last, formed.source, formed.type]
        simp [lastPackets, last, received, Packet.completes]
  · simp only [commit_eq, ReaderStageInv, buffered, PacketLog.collected_append]
  · refine (inv.writers writer alive).consume ?_ _
    rw [wire_cons, List.length_append]
    exact Nat.le_add_left _ _

end ThreadIpc.Ipc
