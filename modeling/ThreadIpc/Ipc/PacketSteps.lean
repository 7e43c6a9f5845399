import ThreadIpc.Ipc.WriterSteps

namespace ThreadIpc.Ipc

open ProcessRegistry (IpcProcessId)
open Lib

variable {W : Type} [DecidableEq W] {processId : W → IpcProcessId} {strict : Prop}
  {consumed inFlight : List (Packet W)} {state : Channel W} {writer : W} {queue : OutboundQueue}
  {packet : Packet W} {numWritten tail : Nat} {allowLargeMessage : Bool}
  {stores : List (Nat × UInt8)}

section Next
variable {published : List (Packet W)}

omit [DecidableEq W] in
theorem Link.resumes (link : Link strict published writer queue)
    (progress : queue.InProgress queue.pending) : ∃ sentPackets, queue.Resumes sentPackets := by
  cases inProgress : queue.inProgressMessage with
  | none =>
      rw [OutboundQueue.InProgress, inProgress] at progress
      refine ⟨0, by rw [progress.1, Nat.zero_mul], ?_⟩
      rw [OutboundQueue.nextSequence, inProgress]
      rfl
  | some message =>
      rw [Link, inProgress] at link
      obtain ⟨previous, _, _, _, written, sequence⟩ := link
      refine ⟨previous.index + 1, written, ?_⟩
      rw [OutboundQueue.nextSequence, inProgress, sequence, Int32.ofNat_add]
      rfl

omit [DecidableEq W] in
theorem Link.next (link : Link strict published writer queue)
    (progress : queue.InProgress queue.pending)
    (next : NextPacket processId writer queue allowLargeMessage packet) :
    packet.index = 0 ∧ (strict → openMessage published = none) ∨
      ∃ previous, openMessage published = some previous ∧ packet.writer = previous.writer ∧
        packet.message = previous.message ∧ packet.index = previous.index + 1 := by
  have positive : 0 < maxPacketData := by decide
  obtain ⟨written, _⟩ := next.resumes
  cases inProgress : queue.inProgressMessage with
  | none =>
      rw [OutboundQueue.InProgress, inProgress] at progress
      rw [progress.1] at written
      refine .inl ⟨?_, link.idle inProgress⟩
      exact (Nat.mul_eq_zero.mp written.symm).resolve_right positive.ne'
  | some message =>
      rw [OutboundQueue.InProgress, inProgress] at progress
      rw [Link, inProgress] at link
      obtain ⟨previous, opened, sameWriter, sameMessage, before, _⟩ := link
      refine .inr ⟨previous, opened, next.ownWriter.trans sameWriter.symm, ?_, ?_⟩
      · rw [sameMessage]
        exact Option.some.inj (next.front.symm.trans progress.1)
      · exact Nat.eq_of_mul_eq_mul_right positive (written.symm.trans before)

end Next

def freeSpace (mapped : Bool) (inFlight : List (Packet W)) : Option Nat :=
  if mapped then some (kCapacity - (wire inFlight).length) else none

theorem ChannelInv.startPacket_attempt
    (inv : ChannelInv strict processId consumed inFlight state)
    (working : Working (state.writers writer).queue numWritten allowLargeMessage)
    (link : Link strict state.published writer (state.writers writer).queue)
    {message : ShareableIpcMessage} {rest : List ShareableIpcMessage}
    (pending : (state.writers writer).queue.pending = message :: rest)
    {data : SerializedData} (serialized : message.serializedMessageData = some data)
    (mapped : Bool) (padding : Padding) (now : Int) :
    (∃ queue',
      (state.writers writer).queue.writeOneMessage (processId writer) (freeSpace mapped inFlight)
        message allowLargeMessage = .ok (false, queue', []) ∧
      SameMessages (state.writers writer).queue queue' ∧
      Working queue' numWritten allowLargeMessage ∧
      state.startPacket processId writer numWritten allowLargeMessage mapped padding now =
        state.stop writer queue' numWritten now) ∨
    ∃ packet : Packet W, NextPacket processId writer (state.writers writer).queue allowLargeMessage
        packet ∧ packet.message = message ∧
      (state.writers writer).queue.writeOneMessage (processId writer) (freeSpace mapped inFlight)
        message allowLargeMessage = (do
          let (done, queue') ←
            (state.writers writer).queue.packetWritten packet.message packet.header
          .ok (done, queue', [⟨packet.message.id, packet.data⟩])) ∧
      (wire inFlight).length + packet.bytes.length ≤ kCapacity ∧
      state.startPacket processId writer numWritten allowLargeMessage mapped padding now =
        .ok (state.setWriter writer { state.writers writer with
          stage := .copying packet (Ring.stores ringSize state.buffer.tail packet.bytes)
            ((state.buffer.tail + packet.bytes.length) % ringSize) numWritten
            allowLargeMessage }) := by
  have progress := working.progress
  rw [pending] at progress
  have inside := progress.written_lt serialized
  have allowed : (state.writers writer).queue.inProgressMessage ≠ none →
      allowLargeMessage = true := fun some => by
    rw [working.allow, working.first some]
    rfl
  have next := OutboundQueue.nextPacket_eq (processId writer) working.held progress serialized
    allowed
  have space := inv.buffer.spaceAvailable
  have free : CircularBuffer.spaceAvailable
      ⟨state.buffer.head, state.buffer.tail, kCapacity, ringSize, true⟩ =
        kCapacity - (wire inFlight).length := by omega
  cases mapped with
  | false =>
      have working' : Working { (state.writers writer).queue with processHandle := false }
          numWritten allowLargeMessage :=
        ⟨working.held, working.notWaiting, working.progress, working.first, working.allow⟩
      refine .inl ⟨{ (state.writers writer).queue with processHandle := false }, ?_,
        ⟨rfl, rfl, rfl, rfl, rfl⟩, working', ?_⟩
      · simp only [OutboundQueue.writeOneMessage, next, bind, Except.bind, freeSpace,
          Bool.false_eq_true, if_false]
      · simp [Channel.startPacket, pending, next, Except.mapError, bind, Except.bind]
  | true =>
      cases fit : ((state.writers writer).queue.nextHeader (processId writer) message data).fit
        allowLargeMessage with
      | none =>
          refine .inl ⟨_, ?_, ⟨rfl, rfl, rfl, rfl, rfl⟩, working, ?_⟩
          · simp only [OutboundQueue.writeOneMessage, next, bind, Except.bind, freeSpace, if_true,
              fit]
          · simp [Channel.startPacket, pending, next, Except.mapError, bind, Except.bind, fit,
              inv.buffer.start]
      | some fitted =>
          obtain ⟨header, spaceNeeded⟩ := fitted
          obtain ⟨sentPackets, resumes⟩ := link.resumes working.progress
          obtain ⟨formed, index, needed, more⟩ := OutboundQueue.wellFormed_of_fit processId writer
            padding resumes serialized inside fit
          by_cases enough : spaceNeeded > kCapacity - (wire inFlight).length
          · refine .inl ⟨_, ?_, ⟨rfl, rfl, rfl, rfl, rfl⟩, working, ?_⟩
            · simp only [OutboundQueue.writeOneMessage, next, bind, Except.bind, freeSpace, if_true,
                fit, if_pos enough]
            · simp [Channel.startPacket, pending, next, Except.mapError, bind, Except.bind, fit,
                inv.buffer.start, free, enough]
          · have fits : (Packet.bytes (⟨writer, message, header, padding, header.packetData
                (data.bytes.drop (state.writers writer).queue.inProgressWritten)⟩ :
                  Packet W)).length ≤ kCapacity - (wire inFlight).length := by
              rw [← needed]
              exact not_lt.mp enough
            refine .inr ⟨_, ⟨formed, rfl, ?_, index ▸ resumes, more⟩, rfl, ?_, ?_, ?_⟩
            · rw [pending]
              rfl
            · simp only [OutboundQueue.writeOneMessage, next, bind, Except.bind, freeSpace, if_true,
                fit, if_neg enough]
            · omega
            · rw [← free] at enough fits
              simp [Channel.startPacket, pending, next, Except.mapError, bind, Except.bind, fit,
                inv.buffer.start, enough, Packet.write_eq formed inv.buffer.valid fits]

theorem ChannelInv.startPacket (inv : ChannelInv strict processId consumed inFlight state)
    (alive : (state.writers writer).alive = true)
    (stage : (state.writers writer).stage = .writing numWritten allowLargeMessage)
    (mapped : Bool) (padding : Padding) (now : Int) :
    ∃ state', state.startPacket processId writer numWritten allowLargeMessage mapped padding now =
      .ok state' ∧ ChannelInv strict processId consumed inFlight state' := by
  have own := inv.writers writer alive
  have writing := own.stage
  simp only [WriterStageInv, stage] at writing
  obtain ⟨working, link⟩ := writing
  have holds := own.holds.mp working.held
  have order := own.order
  simp only [remaining, stage] at order
  cases pending : (state.writers writer).queue.pending with
  | nil =>
      rw [Channel.startPacket]
      simpa only [pending] using inv.stop alive holds working link own.queued order now
  | cons message rest =>
      have isSome := (own.queued message (pending ▸ List.mem_cons_self)).2
      obtain ⟨data, serialized⟩ := Option.isSome_iff_exists.mp isSome
      rcases inv.startPacket_attempt working link pending serialized mapped padding now with
        ⟨queue', _, same, working', stopped⟩ | ⟨packet, next, _, _, fits, copying⟩
      · rw [stopped]
        exact inv.stop alive holds working' (link.of_same same) (same.pending ▸ own.queued)
          (same.pending ▸ order) now
      · refine ⟨_, copying, inv.withWriter writer _ state.writeMutex
          (fun _ => ⟨?_, own.holds, own.queued, ?_⟩) (fun _ _ => Iff.rfl) (fun _ => alive)
          (fun _ => alive) inv.idle⟩
        · exact ⟨working, link, next, rfl, Ring.storing_start, fits⟩
        · simpa only [remaining] using order

theorem ChannelInv.copy (inv : ChannelInv strict processId consumed inFlight state)
    (alive : (state.writers writer).alive = true)
    (stage : (state.writers writer).stage =
      .copying packet stores tail numWritten allowLargeMessage)
    {store : Nat × UInt8} (member : store ∈ stores) :
    ChannelInv strict processId consumed inFlight
      (state.copy writer packet stores tail numWritten allowLargeMessage store) := by
  have own := inv.writers writer alive
  have writing := own.stage
  simp only [WriterStageInv, stage] at writing
  obtain ⟨working, link, next, copying⟩ := writing
  have holds := own.holds.mp working.held
  have small : packet.bytes.length ≤ ringSize := by
    have fits := copying.fits
    unfold ringSize
    omega
  refine ⟨inv.log, inv.grammar, inv.buffer.store copying member, inv.lastPacketHeader,
    inv.reassembled, inv.reader, inv.completed, inv.sent, fun other otherAlive => ?_,
    fun other owns => ?_, fun isStrict other => ?_, inv.idle⟩
  · by_cases same : other = writer
    · cases same
      simp only [Channel.copy, Channel.setWriter, Function.update_self]
      refine ⟨⟨working, link, next, copying.tail, copying.storing.store small member,
        copying.fits⟩, own.holds, own.queued, ?_⟩
      simpa only [remaining, stage] using own.order
    · simp only [Channel.copy, Channel.setWriter, Function.update_of_ne same] at otherAlive ⊢
      have notHolds : ¬ state.writeMutex = some other := by simp [holds, Ne.symm same]
      have otherInv := inv.writers other otherAlive
      simp only [notHolds] at otherInv ⊢
      exact otherInv.without_mutex
  · exact (alive_update _ (by rfl) other).trans (inv.owner other owns)
  · exact (alive_update _ (by rfl) other).trans (inv.alive isStrict other)

theorem completedBy_append (completed : List (W × ShareableIpcMessage)) (last : Bool)
    (message : ShareableIpcMessage) (other : W) :
    completedBy (if last then completed ++ [(writer, message)] else completed) other =
      completedBy completed other ++ if last ∧ other = writer then [message] else [] := by
  cases last with
  | false => simp
  | true =>
      by_cases same : other = writer
      · simp [completedBy, same]
      · simp [completedBy, same, Ne.symm same]

theorem ChannelInv.publish (inv : ChannelInv strict processId consumed inFlight state)
    (alive : (state.writers writer).alive = true)
    (stage : (state.writers writer).stage =
      .copying packet [] tail numWritten allowLargeMessage) :
    ChannelInv strict processId consumed (inFlight ++ [packet])
      (state.publish writer packet tail numWritten allowLargeMessage) := by
  have own := inv.writers writer alive
  have writing := own.stage
  simp only [WriterStageInv, stage] at writing
  obtain ⟨working, link, next, copying⟩ := writing
  have holds := own.holds.mp working.held
  have opened := openMessage_append state.published packet
  have front := List.mem_of_mem_head? next.front
  refine ⟨?_, ?_, inv.buffer.publish copying, inv.lastPacketHeader, inv.reassembled, ?_, ?_, ?_,
    fun other otherAlive => ?_, fun other owns => ?_, fun isStrict other => ?_, ?_⟩
  · simp only [Channel.publish, Channel.setWriter, inv.log, List.append_assoc]
  · rcases link.next working.progress next with
      ⟨first, idle⟩ | ⟨previous, before, sameWriter, sameMessage, index⟩
    · exact .first inv.grammar next.formed first idle
    · exact .next inv.grammar next.formed before sameWriter sameMessage index
  · have reader := inv.reader
    unfold ReaderStageInv at reader ⊢
    simp only [Channel.publish, Channel.setWriter]
    split <;> rename_i readerStage <;> simp only [readerStage] at reader
    · exact reader
    · obtain ⟨buffered, packet, rest, rfl, facing⟩ := reader
      exact ⟨buffered, packet, _, rfl, facing⟩
    · obtain ⟨packet, rest, rfl, facing⟩ := reader
      exact ⟨packet, _, rfl, facing⟩
    · obtain ⟨packet, rest, rfl, facing⟩ := reader
      exact ⟨packet, _, rfl, facing⟩
  · simp only [Channel.publish, Channel.setWriter, lastPackets_append, List.map_append,
      inv.completed]
    cases last : packet.header.lastPacket <;> simp [lastPackets, last, Packet.completes, next.ownWriter]
  · intro other member
    rcases List.mem_append.mp member with old | new
    · exact inv.sent other old
    · cases List.mem_singleton.mp new
      rw [next.ownWriter]
      exact (own.queued _ front).1
  · by_cases same : other = writer
    · cases same
      simp only [Channel.publish, Channel.setWriter, Function.update_self]
      refine ⟨⟨working, next, opened⟩, own.holds, own.queued, fun isStrict => ?_⟩
      have order := own.order isStrict
      simp only [remaining, stage] at order
      rw [order, completedBy_append]
      simp only [remaining]
      cases last : packet.header.lastPacket with
      | false => simp
      | true =>
          obtain ⟨rest, pending⟩ := List.head?_eq_some_iff.mp next.front
          simp [pending]
    · simp only [Channel.publish, Channel.setWriter, Function.update_of_ne same] at otherAlive ⊢
      have notHolds : ¬ state.writeMutex = some other := by simp [holds, Ne.symm same]
      have otherInv := inv.writers other otherAlive
      have completed : completedBy (if packet.header.lastPacket then
          state.completed ++ [(writer, packet.message)] else state.completed) other =
            completedBy state.completed other := by
        rw [completedBy_append]
        simp [same]
      simp only [notHolds, completed] at otherInv ⊢
      exact otherInv.without_mutex
  · exact (alive_update _ (by rfl) other).trans (inv.owner other owns)
  · exact (alive_update _ (by rfl) other).trans (inv.alive isStrict other)
  · intro _ free
    have free : state.writeMutex = none := free
    rw [holds] at free
    contradiction

theorem ChannelInv.advance (inv : ChannelInv strict processId consumed inFlight state)
    (alive : (state.writers writer).alive = true)
    (stage : (state.writers writer).stage =
      .published packet numWritten allowLargeMessage) (now : Int) :
    ∃ state', state.advance writer packet numWritten now = .ok state' ∧
      ChannelInv strict processId consumed inFlight state' := by
  have own := inv.writers writer alive
  have published := own.stage
  simp only [WriterStageInv, stage] at published
  obtain ⟨working, next, opened⟩ := published
  have holds := own.holds.mp working.held
  obtain ⟨rest, pending⟩ := List.head?_eq_some_iff.mp next.front
  have progress := working.progress
  rw [pending] at progress
  have order := own.order
  simp only [remaining, stage] at order
  cases last : packet.header.lastPacket with
  | true =>
      simp only [last, if_true] at opened order
      have kept : ∀ message ∈ (state.writers writer).queue.pending.tail,
          message ∈ state.sent writer ∧ message.serializedMessageData.isSome = true :=
        fun message member => own.queued message (List.mem_of_mem_tail member)
      simp only [Channel.advance, OutboundQueue.packetWritten_last last, Except.mapError, bind,
        Except.bind]
      refine ⟨_, rfl, inv.withWriter writer _ state.writeMutex
        (fun _ => ⟨⟨⟨working.held, working.notWaiting, ?_, fun some => absurd rfl some, ?_⟩, ?_⟩,
          own.holds, kept, ?_⟩) (fun _ _ => Iff.rfl) (fun _ => alive) (fun _ => alive) inv.idle⟩
      · exact ⟨rfl, rfl⟩
      · simp
      · exact fun _ => opened
      · exact order
  | false =>
      simp only [last, Bool.false_eq_true, if_false] at opened order
      obtain ⟨allowed, size, sequence⟩ := next.more last
      have isSome := (own.queued packet.message (pending ▸ List.mem_cons_self)).2
      obtain ⟨data, serialized⟩ := Option.isSome_iff_exists.mp isSome
      have bytes : packet.message.bytes = data.bytes := by
        simp only [ShareableIpcMessage.bytes, serialized]
      obtain ⟨written, nextSequence⟩ := next.resumes
      have large : maxPacketData <
          data.bytes.length - (state.writers writer).queue.inProgressWritten := by
        have more : ¬ packet.message.bytes.length ≤ (packet.index + 1) * maxPacketData := by
          rw [← next.formed.last, last]
          exact Bool.false_ne_true
        rw [bytes, Nat.add_mul] at more
        omega
      have first : numWritten = 0 := by
        have allow := working.allow
        rw [allowed] at allow
        simpa using allow.symm
      have advanced := OutboundQueue.packetWritten_more progress serialized last sequence size
      simp only [Channel.advance, advanced, Except.mapError, bind, Except.bind]
      have progress' : ((state.writers writer).queue.moreInProgress packet.message).InProgress
          (state.writers writer).queue.pending := by
        rw [pending]
        exact OutboundQueue.moreInProgress_inProgress rest serialized large
      have working' : Working ((state.writers writer).queue.moreInProgress packet.message)
          numWritten allowLargeMessage :=
        ⟨working.held, working.notWaiting, progress', fun _ => first, working.allow⟩
      refine inv.stop alive holds working' ?_ own.queued order now
      refine ⟨packet, opened, next.ownWriter, rfl, ?_, nextSequence⟩
      simp only [OutboundQueue.moreInProgress, written, Nat.add_mul, Nat.one_mul]

theorem ChannelInv.init (strict : Prop) (processId : W → IpcProcessId)
    (readerProcessId : IpcProcessId) (data : Nat → UInt8) :
    ChannelInv strict processId [] [] (Channel.init readerProcessId data) where
  log := rfl
  grammar := .empty
  buffer := ⟨Nat.succ_pos _, Nat.zero_le _, rfl, rfl⟩
  lastPacketHeader := rfl
  reassembled := rfl
  reader := rfl
  completed := rfl
  sent := nofun
  writers := fun _ _ => ⟨⟨(queueInv_opened readerProcessId).toFlagsInv, nofun⟩,
    ⟨nofun, nofun⟩, nofun, fun _ => rfl⟩
  owner := nofun
  alive := fun _ _ => rfl
  idle := fun _ _ => rfl

end ThreadIpc.Ipc
