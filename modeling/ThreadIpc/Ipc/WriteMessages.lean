import ThreadIpc.Ipc.Packetize

namespace ThreadIpc.Ipc

open ProcessRegistry (IpcProcessId)

namespace OutboundQueue

inductive Attempted (queue : OutboundQueue) (message : ShareableIpcMessage)
    (data : SerializedData) (allowLargeMessage : Bool) :
    Bool × OutboundQueue × List Chunk → Prop
  | unmapped : Attempted queue message data allowLargeMessage
      (false, { queue with processHandle := false }, [])
  | refused : Attempted queue message data allowLargeMessage (false, queue, [])
  | last (small : data.bytes.length - queue.inProgressWritten ≤ maxPacketData) :
      Attempted queue message data allowLargeMessage
        (true, queue.noneInProgress, [⟨message.id, data.bytes.drop queue.inProgressWritten⟩])
  | more (allowed : allowLargeMessage = true)
      (large : maxPacketData < data.bytes.length - queue.inProgressWritten) :
      Attempted queue message data allowLargeMessage
        (false, queue.moreInProgress message,
          [⟨message.id, (data.bytes.drop queue.inProgressWritten).take maxPacketData⟩])

inductive Wrote : OutboundQueue → Bool → List ShareableIpcMessage → Nat → Written → Prop
  | empty {queue allowLargeMessage numWritten} :
      Wrote queue allowLargeMessage [] numWritten ⟨numWritten, { queue with pending := [] }, [], []⟩
  | stopped {queue allowLargeMessage message data rest numWritten queue' chunks}
      (serialized : message.serializedMessageData = some data)
      (attempted : Attempted queue message data allowLargeMessage (false, queue', chunks)) :
      Wrote queue allowLargeMessage (message :: rest) numWritten
        ⟨numWritten, { queue' with pending := message :: rest }, [], chunks⟩
  | wrote {queue allowLargeMessage message data rest numWritten queue' chunks written}
      (serialized : message.serializedMessageData = some data)
      (attempted : Attempted queue message data allowLargeMessage (true, queue', chunks))
      (later : Wrote queue' false rest (numWritten + 1) written) :
      Wrote queue allowLargeMessage (message :: rest) numWritten
        { written with
          successful := message :: written.successful
          chunks := chunks ++ written.chunks }

structure Writing (queue : OutboundQueue) (pending : List ShareableIpcMessage)
    (allowLargeMessage : Bool) : Prop where
  held : queue.hasWriteMutex = true
  progress : queue.InProgress pending
  allowed : queue.inProgressMessage ≠ none → allowLargeMessage = true

section Spec
variable {currentProcessId : IpcProcessId} {queue : OutboundQueue}
  {message : ShareableIpcMessage} {rest : List ShareableIpcMessage} {allowLargeMessage : Bool}

theorem noneInProgress_inProgress (queue : OutboundQueue) (pending : List ShareableIpcMessage) :
    queue.noneInProgress.InProgress pending :=
  ⟨rfl, rfl⟩

theorem writeOneMessage_attempted {data : SerializedData} (currentProcessId : IpcProcessId)
    (space : Option Nat)
    (writing : queue.Writing (message :: rest) allowLargeMessage)
    (serialized : message.serializedMessageData = some data) :
    ∃ result,
      queue.writeOneMessage currentProcessId space message allowLargeMessage = .ok result ∧
      Attempted queue message data allowLargeMessage result := by
  have lt := writing.progress.written_lt serialized
  have fits := data.fits
  have next := nextPacket_eq currentProcessId writing.held writing.progress serialized
    writing.allowed
  have size : (queue.nextHeader currentProcessId message data).packetSize =
      Int32.ofNat (data.bytes.length - queue.inProgressWritten) := rfl
  simp only [writeOneMessage, next, bind, Except.bind]
  cases space with
  | none => exact ⟨_, rfl, .unmapped⟩
  | some available =>
      by_cases small : data.bytes.length - queue.inProgressWritten ≤ maxPacketData
      · simp only [MessagePacketHeader.fit_small allowLargeMessage size small]
        split
        · exact ⟨_, rfl, .refused⟩
        · rw [packetWritten_last rfl, MessagePacketHeader.packetData_eq size (by omega) small,
            List.take_of_length_le (by simp)]
          exact ⟨_, rfl, .last small⟩
      · have large := not_le.mp small
        rw [MessagePacketHeader.fit_large allowLargeMessage size (by omega) large]
        cases allowed : allowLargeMessage with
        | false => exact ⟨_, rfl, .refused⟩
        | true =>
            simp only [if_true]
            split
            · exact ⟨_, rfl, .refused⟩
            · rw [packetWritten_more writing.progress serialized rfl rfl rfl,
                MessagePacketHeader.packetData_eq rfl (by decide) le_rfl]
              exact ⟨_, rfl, .more rfl large⟩

theorem writeOneMessage_unserialized (space : Option Nat) (held : queue.hasWriteMutex = true)
    (unserialized : message.serializedMessageData = none) :
    queue.writeOneMessage currentProcessId space message allowLargeMessage =
      .error .messageSerialized := by
  simp [writeOneMessage, nextPacket, check, held, unserialized, bind, Except.bind]

theorem writeMessages_wrote (currentProcessId : IpcProcessId) (spaces : Nat → Option Nat)
    {pending : List ShareableIpcMessage} (numWritten : Nat)
    (writing : queue.Writing pending allowLargeMessage) :
    (∃ written, queue.writeMessages currentProcessId spaces numWritten allowLargeMessage pending =
      .ok written ∧ Wrote queue allowLargeMessage pending numWritten written) ∨
    queue.writeMessages currentProcessId spaces numWritten allowLargeMessage pending =
      .error .messageSerialized := by
  induction pending generalizing queue numWritten allowLargeMessage with
  | nil => exact .inl ⟨_, rfl, .empty⟩
  | cons message rest ih =>
      cases serialized : message.serializedMessageData with
      | none =>
          right
          rw [writeMessages, writeOneMessage_unserialized _ writing.held serialized]
          rfl
      | some data =>
          obtain ⟨⟨done, queue', chunks⟩, ran, attempted⟩ :=
            writeOneMessage_attempted currentProcessId (spaces numWritten) writing serialized
          cases done with
          | false =>
              left
              refine ⟨_, ?_, .stopped serialized attempted⟩
              simp only [writeMessages, ran, bind, Except.bind]
          | true =>
              have writing' : queue'.Writing rest false := by
                cases attempted
                exact ⟨writing.held, noneInProgress_inProgress _ _, fun some => absurd rfl some⟩
              rcases ih (numWritten + 1) writing' with
                ⟨written, later, wrote⟩ | unserialized
              · left
                refine ⟨_, ?_, .wrote serialized attempted wrote⟩
                simp only [writeMessages, ran, bind, Except.bind, later]
              · right
                simp only [writeMessages, ran, bind, Except.bind, unserialized]

end Spec

theorem Wrote.split {queue : OutboundQueue} {allowLargeMessage : Bool}
    {pending : List ShareableIpcMessage} {numWritten : Nat} {written : Written}
    (wrote : Wrote queue allowLargeMessage pending numWritten written) :
    pending = written.successful ++ written.queue.pending ∧
      written.numWritten = numWritten + written.successful.length := by
  induction wrote with
  | empty => exact ⟨rfl, rfl⟩
  | stopped serialized attempted => exact ⟨rfl, rfl⟩
  | @wrote _ _ message _ _ _ _ _ written _ _ _ ih =>
      refine ⟨congrArg (message :: ·) ih.1, ih.2.trans ?_⟩
      simp only [List.length_cons]
      omega

structure SameFlags (queue queue' : OutboundQueue) : Prop where
  processId : queue'.processId = queue.processId
  hasWriteMutex : queue'.hasWriteMutex = queue.hasWriteMutex
  isWaitingForWriteMutex : queue'.isWaitingForWriteMutex = queue.isWaitingForWriteMutex
  isWaitingForSpaceAvailable :
    queue'.isWaitingForSpaceAvailable = queue.isWaitingForSpaceAvailable

theorem Attempted.sameFlags {queue queue' : OutboundQueue} {message : ShareableIpcMessage}
    {data : SerializedData} {allowLargeMessage done : Bool} {chunks : List Chunk}
    (attempted : Attempted queue message data allowLargeMessage (done, queue', chunks)) :
    SameFlags queue queue' := by
  cases attempted <;> exact ⟨rfl, rfl, rfl, rfl⟩

theorem Wrote.sameFlags {queue : OutboundQueue} {allowLargeMessage : Bool}
    {pending : List ShareableIpcMessage} {numWritten : Nat} {written : Written}
    (wrote : Wrote queue allowLargeMessage pending numWritten written) :
    SameFlags queue written.queue := by
  induction wrote with
  | empty => exact ⟨rfl, rfl, rfl, rfl⟩
  | stopped serialized attempted =>
      have same := attempted.sameFlags
      exact ⟨same.processId, same.hasWriteMutex, same.isWaitingForWriteMutex,
        same.isWaitingForSpaceAvailable⟩
  | wrote serialized attempted later ih =>
      have same := attempted.sameFlags
      exact ⟨ih.processId.trans same.processId, ih.hasWriteMutex.trans same.hasWriteMutex,
        ih.isWaitingForWriteMutex.trans same.isWaitingForWriteMutex,
        ih.isWaitingForSpaceAvailable.trans same.isWaitingForSpaceAvailable⟩

theorem moreInProgress_inProgress {queue : OutboundQueue} {message : ShareableIpcMessage}
    {data : SerializedData} (rest : List ShareableIpcMessage)
    (serialized : message.serializedMessageData = some data)
    (large : maxPacketData < data.bytes.length - queue.inProgressWritten) :
    (queue.moreInProgress message).InProgress (message :: rest) := by
  have positive : 0 < maxPacketData := by decide
  refine ⟨rfl, data, serialized, ?_, ?_⟩
  · simp only [moreInProgress]
    omega
  · simp only [moreInProgress]
    omega

theorem Wrote.progress {queue : OutboundQueue} {allowLargeMessage : Bool}
    {pending : List ShareableIpcMessage} {numWritten : Nat} {written : Written}
    (wrote : Wrote queue allowLargeMessage pending numWritten written)
    (writing : queue.Writing pending allowLargeMessage) :
    written.queue.InProgress written.queue.pending ∧
      (written.queue.inProgressMessage ≠ none → allowLargeMessage = true ∧
        written.numWritten = numWritten) := by
  induction wrote with
  | empty => exact ⟨writing.progress, fun some => ⟨writing.allowed some, rfl⟩⟩
  | stopped serialized attempted =>
      cases attempted with
      | unmapped => exact ⟨writing.progress, fun some => ⟨writing.allowed some, rfl⟩⟩
      | refused => exact ⟨writing.progress, fun some => ⟨writing.allowed some, rfl⟩⟩
      | more allowed large =>
          exact ⟨moreInProgress_inProgress _ serialized large, fun _ => ⟨allowed, rfl⟩⟩
  | wrote serialized attempted later ih =>
      cases attempted with
      | last small =>
          obtain ⟨progress, none⟩ := ih
            ⟨writing.held, noneInProgress_inProgress _ _, fun some => absurd rfl some⟩
          refine ⟨progress, fun some => ?_⟩
          have large := (none some).1
          contradiction

end OutboundQueue

end ThreadIpc.Ipc
