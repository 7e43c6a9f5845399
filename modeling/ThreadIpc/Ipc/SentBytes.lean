import ThreadIpc.Ipc.WriteMessages

namespace ThreadIpc.Ipc

def ShareableIpcMessage.bytes (message : ShareableIpcMessage) : List UInt8 :=
  match message.serializedMessageData with
  | some data => data.bytes
  | none => []

def chunkBytes (chunks : List Chunk) (message : Nat) : List UInt8 :=
  (chunks.filter (·.message = message)).flatMap (·.bytes)

def OutboundQueue.sentBytes (queue : OutboundQueue) (message : ShareableIpcMessage) : List UInt8 :=
  if queue.inProgressMessage = some message then message.bytes.take queue.inProgressWritten else []

theorem chunkBytes_append (first second : List Chunk) (message : Nat) :
    chunkBytes (first ++ second) message = chunkBytes first message ++ chunkBytes second message := by
  simp [chunkBytes]

theorem chunkBytes_singleton (message : Nat) (bytes : List UInt8) :
    chunkBytes [⟨message, bytes⟩] message = bytes := by
  simp [chunkBytes]

theorem chunkBytes_of_not_mem {chunks : List Chunk} {message : Nat}
    (absent : ∀ chunk ∈ chunks, chunk.message ≠ message) : chunkBytes chunks message = [] := by
  have none : chunks.filter (·.message = message) = [] := by
    simpa [List.filter_eq_nil_iff] using absent
  rw [chunkBytes, none, List.flatMap_nil]

namespace OutboundQueue
variable {queue : OutboundQueue} {message : ShareableIpcMessage} {data : SerializedData}
  {rest pending : List ShareableIpcMessage} {allowLargeMessage : Bool}

theorem InProgress.sentBytes_head (progress : queue.InProgress (message :: rest))
    (serialized : message.serializedMessageData = some data) :
    queue.sentBytes message = data.bytes.take queue.inProgressWritten := by
  have bytes : message.bytes = data.bytes := by simp only [ShareableIpcMessage.bytes, serialized]
  unfold InProgress at progress
  split at progress
  · rename_i none
    simp [sentBytes, none, progress.1]
  · rename_i other some
    cases progress.1
    rw [sentBytes, if_pos some, bytes]

theorem InProgress.sentBytes_later (progress : queue.InProgress (message :: rest))
    {later : ShareableIpcMessage} (different : later ≠ message) : queue.sentBytes later = [] := by
  refine if_neg fun some => different ?_
  rw [InProgress, some] at progress
  exact (Option.some.inj progress.1).symm

theorem Attempted.chunk_message {done : Bool} {queue' : OutboundQueue} {chunks : List Chunk}
    (attempted : Attempted queue message data allowLargeMessage (done, queue', chunks)) :
    ∀ chunk ∈ chunks, chunk.message = message.id := by
  cases attempted <;> simp

theorem Wrote.chunk_message {numWritten : Nat} {written : Written}
    (wrote : Wrote queue allowLargeMessage pending numWritten written) :
    ∀ chunk ∈ written.chunks, ∃ message ∈ pending, chunk.message = message.id := by
  induction wrote with
  | empty => exact nofun
  | stopped serialized attempted =>
      intro chunk member
      exact ⟨_, List.mem_cons_self, attempted.chunk_message chunk member⟩
  | wrote serialized attempted later ih =>
      intro chunk member
      rcases List.mem_append.mp member with now | afterwards
      · exact ⟨_, List.mem_cons_self, attempted.chunk_message chunk now⟩
      · obtain ⟨message, pending, same⟩ := ih chunk afterwards
        exact ⟨message, List.mem_cons_of_mem _ pending, same⟩

theorem Attempted.sentBytes {done : Bool} {queue' : OutboundQueue} {chunks : List Chunk}
    (attempted : Attempted queue message data allowLargeMessage (done, queue', chunks))
    (progress : queue.InProgress (message :: rest))
    (serialized : message.serializedMessageData = some data) :
    queue.sentBytes message ++ chunkBytes chunks message.id =
      if done then message.bytes else queue'.sentBytes message := by
  have bytes : message.bytes = data.bytes := by simp only [ShareableIpcMessage.bytes, serialized]
  have sent := progress.sentBytes_head serialized
  cases attempted with
  | unmapped => simp [chunkBytes, OutboundQueue.sentBytes]
  | refused => simp [chunkBytes]
  | last small =>
      rw [sent, chunkBytes_singleton, List.take_append_drop, if_pos rfl, bytes]
  | more allowed large =>
      have next : (queue.moreInProgress message).sentBytes message =
          data.bytes.take (queue.inProgressWritten + maxPacketData) := by
        simp only [OutboundQueue.sentBytes, moreInProgress, if_true, bytes]
      rw [sent, chunkBytes_singleton, if_neg Bool.false_ne_true, next, List.take_add]

theorem Attempted.sentBytes_other {queue' : OutboundQueue} {chunks : List Chunk} {done : Bool}
    (attempted : Attempted queue message data allowLargeMessage (done, queue', chunks))
    (progress : queue.InProgress (message :: rest)) {other : ShareableIpcMessage}
    (different : other ≠ message) : queue'.sentBytes other = [] := by
  cases attempted with
  | unmapped => exact progress.sentBytes_later different
  | refused => exact progress.sentBytes_later different
  | last small => exact if_neg nofun
  | more allowed large => exact if_neg fun some => different (Option.some.inj some).symm

theorem Wrote.sentBytes {numWritten : Nat} {written : Written} {sent : ShareableIpcMessage}
    (wrote : Wrote queue allowLargeMessage pending numWritten written)
    (writing : queue.Writing pending allowLargeMessage) (member : sent ∈ pending)
    (once : pending.count sent ≤ 1)
    (identified : ∀ other ∈ pending, other.id = sent.id → other = sent) :
    queue.sentBytes sent ++ chunkBytes written.chunks sent.id =
      if sent ∈ written.successful then sent.bytes else written.queue.sentBytes sent := by
  induction wrote with
  | empty => contradiction
  | @stopped queue _ message data rest numWritten queue' chunks serialized attempted =>
      have kept : ({ queue' with pending := message :: rest } : OutboundQueue).sentBytes sent =
          queue'.sentBytes sent := rfl
      rw [if_neg List.not_mem_nil, kept]
      by_cases first : sent = message
      · cases first
        exact attempted.sentBytes writing.progress serialized
      · have otherId : message.id ≠ sent.id := fun same =>
          first (identified message List.mem_cons_self same).symm
        have none : chunkBytes chunks sent.id = [] :=
          chunkBytes_of_not_mem fun chunk inChunks =>
            (attempted.chunk_message chunk inChunks).trans_ne otherId
        rw [none, writing.progress.sentBytes_later first,
          attempted.sentBytes_other writing.progress first]
        rfl
  | @wrote queue _ message data rest numWritten queue' chunks written serialized attempted later ih =>
      have finished : queue' = queue.noneInProgress := by
        cases attempted
        rfl
      have writing' : queue'.Writing rest false := by
        rw [finished]
        exact ⟨writing.held, noneInProgress_inProgress _ _, fun some => absurd rfl some⟩
      have clean : queue'.sentBytes sent = [] := by
        rw [finished]
        exact if_neg nofun
      rw [chunkBytes_append]
      by_cases first : sent = message
      · cases first
        have notLater : sent ∉ rest := by
          intro again
          have twice := List.count_pos_iff.mpr again
          rw [List.count_cons_self] at once
          omega
        have none : chunkBytes written.chunks sent.id = [] := by
          refine chunkBytes_of_not_mem fun chunk inChunks same => notLater ?_
          obtain ⟨message, inRest, ofMessage⟩ := later.chunk_message chunk inChunks
          rw [← identified message (List.mem_cons_of_mem _ inRest) (ofMessage.symm.trans same)]
          exact inRest
        rw [none, List.append_nil, if_pos List.mem_cons_self]
        exact attempted.sentBytes writing.progress serialized
      · have inRest : sent ∈ rest := (List.mem_cons.mp member).resolve_left first
        have otherId : message.id ≠ sent.id := fun same =>
          first (identified message List.mem_cons_self same).symm
        have none : chunkBytes chunks sent.id = [] :=
          chunkBytes_of_not_mem fun chunk inChunks =>
            (attempted.chunk_message chunk inChunks).trans_ne otherId
        have onceLater : rest.count sent ≤ 1 := by
          rwa [List.count_cons_of_ne (Ne.symm first)] at once
        have sentLater := ih writing' inRest onceLater fun other inOthers =>
          identified other (List.mem_cons_of_mem _ inOthers)
        rw [clean] at sentLater
        rw [none, writing.progress.sentBytes_later first, List.nil_append, sentLater]
        simp [first]

end OutboundQueue

end ThreadIpc.Ipc
