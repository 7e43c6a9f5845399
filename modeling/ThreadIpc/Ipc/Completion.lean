import ThreadIpc.Ipc.SendQueues

namespace ThreadIpc.Ipc

open ProcessRegistry (IpcProcessId)
open Lib.OrderedMap (find put Ordered)
open Win32IpcMessageQueue (writtenTo)

structure IdsInv (accepted : List ShareableIpcMessage) (nextId : Nat)
    (everywhere : List ShareableIpcMessage) : Prop where
  fresh : ∀ message ∈ everywhere, message.id < nextId
  once : ∀ message ∈ accepted, everywhere.count message = 1
  identified : ∀ message ∈ accepted, ∀ other ∈ everywhere, other.id = message.id → other = message

namespace IdsInv
variable {accepted everywhere everywhere' : List ShareableIpcMessage} {nextId : Nat}
  {message : ShareableIpcMessage}

theorem mem (inv : IdsInv accepted nextId everywhere) (isAccepted : message ∈ accepted) :
    message ∈ everywhere :=
  List.count_pos_iff.mp (by rw [inv.once message isAccepted]; exact Nat.one_pos)

theorem moved (inv : IdsInv accepted nextId everywhere)
    (same : ∀ message, everywhere'.count message = everywhere.count message) :
    IdsInv accepted nextId everywhere' := by
  have older : ∀ message ∈ everywhere', message ∈ everywhere := fun message member =>
    List.count_pos_iff.mp (same message ▸ List.count_pos_iff.mpr member)
  exact ⟨fun message member => inv.fresh message (older message member),
    fun message isAccepted => (same message).trans (inv.once message isAccepted),
    fun message isAccepted other member => inv.identified message isAccepted other (older other member)⟩

theorem older (counts : ∀ other ≠ message, everywhere'.count other = everywhere.count other)
    {other : ShareableIpcMessage} (member : other ∈ everywhere') (different : other ≠ message) :
    other ∈ everywhere :=
  List.count_pos_iff.mp (counts other different ▸ List.count_pos_iff.mpr member)

theorem broadcast (inv : IdsInv accepted nextId everywhere) (fresh : message.id = nextId)
    (counts : ∀ other ≠ message, everywhere'.count other = everywhere.count other) :
    IdsInv accepted (nextId + 1) everywhere' := by
  have different : ∀ other ∈ accepted, other ≠ message := by
    rintro other isAccepted rfl
    have old := inv.fresh other (inv.mem isAccepted)
    omega
  refine ⟨fun other member => ?_, fun other isAccepted => ?_, fun other isAccepted copy member same => ?_⟩
  · by_cases new : other = message
    · rw [new]
      omega
    · exact (inv.fresh other (older counts member new)).trans (Nat.lt_succ_self _)
  · rw [counts other (different other isAccepted), inv.once other isAccepted]
  · by_cases new : copy = message
    · have old := inv.fresh other (inv.mem isAccepted)
      rw [new] at same
      omega
    · exact inv.identified other isAccepted copy (older counts member new) same

theorem accept (inv : IdsInv accepted nextId everywhere) (fresh : message.id = nextId)
    (counts : ∀ other, everywhere'.count other = everywhere.count other + [message].count other) :
    IdsInv (accepted ++ [message]) (nextId + 1) everywhere' := by
  have others : ∀ other ≠ message, everywhere'.count other = everywhere.count other := by
    intro other different
    have none : [message].count other = 0 := List.count_eq_zero_of_not_mem (by simpa using different)
    rw [counts other, none, Nat.add_zero]
  have absent : message ∉ everywhere := fun member => by
    have old := inv.fresh message member
    omega
  have inv' := inv.broadcast fresh others
  refine ⟨inv'.fresh, fun other isAccepted => ?_, fun other isAccepted copy member same => ?_⟩
  · rcases List.mem_append.mp isAccepted with old | new
    · exact inv'.once other old
    · cases List.mem_singleton.mp new
      rw [counts, List.count_eq_zero_of_not_mem absent, List.count_singleton_self]
  · rcases List.mem_append.mp isAccepted with old | new
    · exact inv'.identified other old copy member same
    · cases List.mem_singleton.mp new
      by_contra different
      have old := inv.fresh copy (older others member different)
      omega

end IdsInv

namespace OutboundQueue

theorem Wrote.serialized {queue : OutboundQueue} {allowLargeMessage : Bool}
    {pending : List ShareableIpcMessage} {numWritten : Nat} {written : Written}
    (wrote : Wrote queue allowLargeMessage pending numWritten written) :
    ∀ message ∈ written.successful, ∃ data, message.serializedMessageData = some data := by
  induction wrote with
  | empty => exact nofun
  | stopped serialized attempted => exact nofun
  | wrote serialized attempted later ih =>
      intro message member
      rcases List.mem_cons.mp member with rfl | afterwards
      · exact ⟨_, serialized⟩
      · exact ih message afterwards

end OutboundQueue

namespace Completed
variable {queue : OutboundQueue} {outcome : Outcome} {sent : ShareableIpcMessage}

theorem processId (completed : Completed queue outcome) :
    outcome.queue.processId = queue.processId := by
  cases completed with
  | wrote start written same writing wrote stopped successful chunks =>
      exact stopped.processId.trans (wrote.sameFlags.processId.trans same.processId)
  | closed same successful chunks => exact same.processId

theorem split (completed : Completed queue outcome) :
    queue.pending = outcome.successful ++ outcome.queue.pending := by
  cases completed with
  | wrote start written same writing wrote stopped successful chunks =>
      rw [successful, stopped.pending]
      exact wrote.split.1
  | closed same successful chunks => rw [successful, same.pending, List.nil_append]

theorem serialized (completed : Completed queue outcome) :
    ∀ message ∈ outcome.successful, ∃ data, message.serializedMessageData = some data := by
  cases completed with
  | wrote start written same writing wrote stopped successful chunks =>
      rw [successful]
      exact wrote.serialized
  | closed same successful chunks =>
      rw [successful]
      exact nofun

theorem chunk_message (completed : Completed queue outcome) :
    ∀ chunk ∈ outcome.chunks, ∃ message ∈ queue.pending, chunk.message = message.id := by
  cases completed with
  | wrote start written same writing wrote stopped successful chunks =>
      rw [chunks]
      exact wrote.chunk_message
  | closed same successful chunks =>
      rw [chunks]
      exact nofun

theorem sentBytes (completed : Completed queue outcome) (member : sent ∈ queue.pending)
    (once : queue.pending.count sent ≤ 1)
    (identified : ∀ other ∈ queue.pending, other.id = sent.id → other = sent) :
    queue.sentBytes sent ++ chunkBytes outcome.chunks sent.id =
      if sent ∈ outcome.successful then sent.bytes else outcome.queue.sentBytes sent := by
  cases completed with
  | wrote start written same writing wrote stopped successful chunks =>
      have before : start.sentBytes sent = queue.sentBytes sent := by
        simp only [OutboundQueue.sentBytes, same.inProgressMessage, same.inProgressWritten]
      have after : outcome.queue.sentBytes sent = written.queue.sentBytes sent := by
        simp only [OutboundQueue.sentBytes, stopped.inProgressMessage, stopped.inProgressWritten]
      rw [successful, chunks, after, ← before]
      exact wrote.sentBytes writing member once identified
  | closed same successful chunks =>
      rw [successful, chunks, if_neg List.not_mem_nil]
      simp [OutboundQueue.sentBytes, same.inProgressMessage, same.inProgressWritten, chunkBytes]

end Completed

namespace Win32IpcMessageQueue

def outside (state : Win32IpcMessageQueue) : List ShareableIpcMessage :=
  state.successfulMessages ++ (state.failedMessages ++ (state.worker.successful ++
    (state.worker.failed ++ state.reported.map (·.message))))

def everywhere (state : Win32IpcMessageQueue) : List ShareableIpcMessage :=
  pendingMessages state.outboundQueues ++ state.outside

def succeeded (state : Win32IpcMessageQueue) : List ShareableIpcMessage :=
  state.successfulMessages ++ (state.worker.successful ++
    (state.reported.filter (·.result)).map (·.message))

end Win32IpcMessageQueue

structure SendInv (state : Win32IpcMessageQueue) : Prop extends
    QueuesInv state.accepted state.written state.outboundQueues,
    IdsInv state.accepted state.nextId state.everywhere where
  handles : ∀ processId handle, .outbound processId handle ∈ state.worker.handles →
    ∃ queue ∈ state.outboundQueues,
      queue.queue.processId = processId ∧ handle ∈ queue.reported
  chunkIds : ∀ chunk ∈ state.written, chunk.2.message < state.nextId
  delivered : ∀ message ∈ state.accepted, message ∈ state.succeeded →
    (∃ data, message.serializedMessageData = some data) ∧
    writtenTo state.written message.destProcessId message.id = message.bytes

section Steps
variable {state state' : Win32IpcMessageQueue}

theorem waitsFor_outbound {worker : Worker} {waitHandle : WaitHandle}
    (waits : worker.waitsFor waitHandle = true) :
    worker.isWaiting = true ∧ waitHandle ∈ worker.handles := by
  unfold Worker.waitsFor at waits
  split at waits
  · exact ⟨rfl, List.mem_of_mem_take (of_decide_eq_true waits)⟩
  · contradiction

theorem isWaiting_reporting {worker : Worker} (waiting : worker.isWaiting = true) :
    ∃ handles, worker = .reporting [] [] handles := by
  unfold Worker.isWaiting at waiting
  split at waiting
  · exact ⟨_, rfl⟩
  · contradiction

theorem sendInv_init : SendInv .init where
  ordered := List.Pairwise.nil
  each _ member := absurd member List.not_mem_nil
  sent _ member := absurd member List.not_mem_nil
  fresh _ member := absurd member List.not_mem_nil
  once _ member := absurd member List.not_mem_nil
  identified _ member := absurd member List.not_mem_nil
  handles _ _ member := absurd member List.not_mem_nil
  chunkIds _ member := absurd member List.not_mem_nil
  delivered _ member := absurd member List.not_mem_nil

theorem SendInv.moved (inv : SendInv state) (accepted : state'.accepted = state.accepted)
    (nextId : state'.nextId = state.nextId) (written : state'.written = state.written)
    (queues : QueuesInv state.accepted state.written state'.outboundQueues)
    (same : ∀ message, state'.everywhere.count message = state.everywhere.count message)
    (succeeded : ∀ message ∈ state'.succeeded, message ∈ state.succeeded)
    (handles : ∀ processId handle, .outbound processId handle ∈ state'.worker.handles →
      ∃ queue ∈ state'.outboundQueues,
        queue.queue.processId = processId ∧ handle ∈ queue.reported) :
    SendInv state' where
  toQueuesInv := by
    rw [accepted, written]
    exact queues
  toIdsInv := by
    rw [accepted, nextId]
    exact inv.toIdsInv.moved same
  handles := handles
  chunkIds := by
    rw [written, nextId]
    exact inv.chunkIds
  delivered := by
    rw [accepted, written]
    exact fun message isAccepted done => inv.delivered message isAccepted (succeeded message done)

theorem SendInv.stopWaiting (inv : SendInv state) (waiting : state.worker.isWaiting = true)
    (reset die : Bool) : SendInv { state with worker := .building reset, die := die } := by
  obtain ⟨handles, worker⟩ := isWaiting_reporting waiting
  refine inv.moved rfl rfl rfl inv.toQueuesInv ?_ ?_ nofun
  · simp [Win32IpcMessageQueue.everywhere, Win32IpcMessageQueue.outside, worker,
      Worker.successful, Worker.failed]
  · simp [Win32IpcMessageQueue.succeeded, worker, Worker.successful]

theorem SendInv.build (inv : SendInv state) {resetSendDataEvent : Bool}
    (worker : state.worker = .building resetSendDataEvent) (now : Int) :
    ∃ state', state.build resetSendDataEvent now = .running state' ∧ SendInv state' := by
  obtain ⟨built, ran, spec⟩ := buildWaitHandles_spec inv.each now
  refine ⟨_, by rw [Win32IpcMessageQueue.build, ran], ?_⟩
  refine inv.moved rfl rfl rfl (inv.toQueuesInv.build spec) (fun message => ?_) ?_ ?_
  · have counts := spec.moved message
    simp only [Win32IpcMessageQueue.everywhere, Win32IpcMessageQueue.outside, worker,
      Worker.successful, Worker.failed, List.count_append, List.count_nil]
    omega
  · simp [Win32IpcMessageQueue.succeeded, worker, Worker.successful]
  · intro processId handle member
    refine spec.handles processId handle ?_
    simpa [Worker.handles] using member

theorem SendInv.report (inv : SendInv state) (reported : state.report = some state') :
    SendInv state' := by
  unfold Win32IpcMessageQueue.report at reported
  split at reported
  · rename_i message successful failed handles worker
    cases reported
    have waits := inv.handles
    rw [worker] at waits
    refine inv.moved rfl rfl rfl inv.toQueuesInv (fun other => ?_) ?_ waits
    · simp only [Win32IpcMessageQueue.everywhere, Win32IpcMessageQueue.outside, worker,
        Worker.successful, Worker.failed, List.count_append, List.map_append, List.map_cons,
        List.map_nil, List.count_cons, List.count_nil]
      omega
    · intro other member
      simp only [Win32IpcMessageQueue.succeeded, worker, Worker.successful, List.mem_append,
        List.filter_append, List.map_append] at member ⊢
      simpa [or_comm, or_left_comm, or_assoc] using member
  · rename_i message failed handles worker
    cases reported
    have waits := inv.handles
    rw [worker] at waits
    refine inv.moved rfl rfl rfl inv.toQueuesInv (fun other => ?_) ?_ waits
    · simp only [Win32IpcMessageQueue.everywhere, Win32IpcMessageQueue.outside, worker,
        Worker.successful, Worker.failed, List.count_append, List.map_append, List.map_cons,
        List.map_nil, List.count_cons, List.count_nil]
      omega
    · intro other member
      simpa [Win32IpcMessageQueue.succeeded, worker, Worker.successful] using member
  · contradiction
  · contradiction

theorem succeeded_everywhere {message : ShareableIpcMessage} (member : message ∈ state.succeeded) :
    message ∈ state.everywhere := by
  simp only [Win32IpcMessageQueue.succeeded, Win32IpcMessageQueue.everywhere,
    Win32IpcMessageQueue.outside, List.mem_append, List.mem_map, List.mem_filter] at member ⊢
  rcases member with successful | successful | ⟨report, ⟨reported, _⟩, same⟩
  · exact .inr (.inl successful)
  · exact .inr (.inr (.inr (.inl successful)))
  · exact .inr (.inr (.inr (.inr (.inr ⟨report, reported, same⟩))))

theorem pending_everywhere {message : ShareableIpcMessage}
    (member : message ∈ pendingMessages state.outboundQueues) : message ∈ state.everywhere :=
  List.mem_append_left _ member

theorem QueuesInv.accept {accepted : List ShareableIpcMessage}
    {written : List (IpcProcessId × Chunk)} {queues : List QueueState}
    (inv : QueuesInv accepted written queues) {message : ShareableIpcMessage}
    (absent : message ∉ pendingMessages queues) :
    QueuesInv (accepted ++ [message]) written queues where
  ordered := inv.ordered
  each := inv.each
  sent := by
    intro queue inQueues other pending isAccepted
    refine inv.sent queue inQueues other pending ((List.mem_append.mp isAccepted).resolve_right ?_)
    intro new
    cases List.mem_singleton.mp new
    exact absent (List.mem_flatMap.mpr ⟨queue, inQueues, pending⟩)

theorem SendInv.accept (inv : SendInv state) {message : ShareableIpcMessage}
    (fresh : message.id = state.nextId) (accepted : state'.accepted = state.accepted ++ [message])
    (nextId : state'.nextId = state.nextId + 1) (written : state'.written = state.written)
    (queues : QueuesInv (state.accepted ++ [message]) state.written state'.outboundQueues)
    (counts : ∀ other, state'.everywhere.count other =
      state.everywhere.count other + [message].count other)
    (succeeded : state'.succeeded = state.succeeded)
    (handles : ∀ processId handle, .outbound processId handle ∈ state'.worker.handles →
      ∃ queue ∈ state'.outboundQueues,
        queue.queue.processId = processId ∧ handle ∈ queue.reported) :
    SendInv state' where
  toQueuesInv := by
    rw [accepted, written]
    exact queues
  toIdsInv := by
    rw [accepted, nextId]
    exact inv.toIdsInv.accept fresh counts
  handles := handles
  chunkIds := by
    rw [written, nextId]
    exact fun chunk member => (inv.chunkIds chunk member).trans (Nat.lt_succ_self _)
  delivered := by
    rw [accepted, written, succeeded]
    intro other isAccepted done
    refine inv.delivered other ((List.mem_append.mp isAccepted).resolve_right ?_) done
    intro new
    cases List.mem_singleton.mp new
    have old := inv.fresh _ (succeeded_everywhere done)
    omega

theorem SendInv.fresh_absent (inv : SendInv state) {message : ShareableIpcMessage}
    (fresh : message.id = state.nextId) : message ∉ state.everywhere := by
  intro member
  have old := inv.fresh message member
  omega

theorem SendInv.sendWithCompletion (inv : SendInv state) (destProcessId : IpcProcessId)
    (ipcMessageType : Int32) (data : Option SerializedData) (callback opens : Bool) (now : Int) :
    SendInv (state.sendWithCompletion destProcessId ipcMessageType data callback opens now) := by
  obtain ⟨message, new⟩ : ∃ message : ShareableIpcMessage,
      message = ⟨state.nextId, destProcessId, ipcMessageType, data, callback⟩ := ⟨_, rfl⟩
  have fresh : message.id = state.nextId := by rw [new]
  have dest : message.destProcessId = destProcessId := by rw [new]
  have notPending := fun member => inv.fresh_absent fresh (pending_everywhere member)
  have queues := inv.toQueuesInv.accept notPending
  simp only [Win32IpcMessageQueue.sendWithCompletion, ← new]
  cases got : getOutboundQueue state.outboundQueues destProcessId opens with
  | none =>
      refine inv.accept fresh rfl rfl rfl queues (fun other => ?_) rfl inv.handles
      simp only [Win32IpcMessageQueue.everywhere, Win32IpcMessageQueue.outside, List.count_append]
      omega
  | some queue =>
      refine inv.accept fresh rfl rfl rfl ?_ (fun other => ?_) rfl fun processId handle waits => ?_
      · refine queues.addMessage got now fun _ => ⟨dest, fun chunk member same => ?_, notPending⟩
        have old := inv.chunkIds chunk member
        omega
      · have counts := count_addMessage message inv.ordered got now other
        simp only [Win32IpcMessageQueue.everywhere, Win32IpcMessageQueue.outside,
          List.count_append] at counts ⊢
        omega
      · obtain ⟨old, member, sameId, reported⟩ := inv.handles processId handle waits
        obtain ⟨kept, inKept, keptId, keptReported⟩ :=
          keepsReported_addMessage message inv.ordered got now old member
        exact ⟨kept, inKept, keptId.trans sameId, keptReported ▸ reported⟩

theorem SendInv.sendToAll (inv : SendInv state) (currentProcessId : IpcProcessId)
    (processes : List (IpcProcessId × Bool)) (ipcMessageType : Int32)
    (data : Option SerializedData) (includingSelf : Bool) (now : Int) :
    SendInv (state.sendToAll currentProcessId processes ipcMessageType data includingSelf now) := by
  obtain ⟨message, new⟩ : ∃ message : ShareableIpcMessage,
      message = ⟨state.nextId, 0, ipcMessageType, data, false⟩ := ⟨_, rfl⟩
  have fresh : message.id = state.nextId := by rw [new]
  have notAccepted : message ∉ state.accepted := fun isAccepted =>
    inv.fresh_absent fresh (inv.toIdsInv.mem isAccepted)
  obtain ⟨queues, counts, kept⟩ := inv.toQueuesInv.addToQueues notAccepted now
    (processes.filter fun target => includingSelf || target.1 != currentProcessId)
  rw [Win32IpcMessageQueue.sendToAll, ← new]
  refine ⟨queues, inv.toIdsInv.broadcast fresh fun other different => ?_,
    fun processId handle waits => ?_,
    fun chunk member => (inv.chunkIds chunk member).trans (Nat.lt_succ_self _), inv.delivered⟩
  · have same := counts other different
    simp only [Win32IpcMessageQueue.everywhere, Win32IpcMessageQueue.outside,
      List.count_append] at same ⊢
    omega
  · obtain ⟨old, member, sameId, reported⟩ := inv.handles processId handle waits
    obtain ⟨queue, inQueues, keptId, keptReported⟩ := kept old member
    exact ⟨queue, inQueues, keptId.trans sameId, keptReported ▸ reported⟩

theorem SendInv.not_pending_of_succeeded (inv : SendInv state) {message : ShareableIpcMessage}
    (isAccepted : message ∈ state.accepted) (succeeded : message ∈ state.succeeded) :
    message ∉ pendingMessages state.outboundQueues := by
  intro pending
  have once := inv.once message isAccepted
  have inPending := List.count_pos_iff.mpr pending
  have outside : 0 < state.outside.count message := by
    refine List.count_pos_iff.mpr ?_
    simp only [Win32IpcMessageQueue.succeeded, Win32IpcMessageQueue.outside, List.mem_append,
      List.mem_map, List.mem_filter] at succeeded ⊢
    rcases succeeded with successful | successful | ⟨report, ⟨reported, _⟩, same⟩
    · exact .inl successful
    · exact .inr (.inr (.inl successful))
    · exact .inr (.inr (.inr (.inr ⟨report, reported, same⟩)))
  rw [Win32IpcMessageQueue.everywhere, List.count_append] at once
  omega

theorem SendInv.pending_once (inv : SendInv state) {queue : QueueState}
    (inQueues : queue ∈ state.outboundQueues) {message : ShareableIpcMessage}
    (isAccepted : message ∈ state.accepted) : queue.queue.pending.count message ≤ 1 := by
  obtain ⟨before, after, around⟩ := List.append_of_mem inQueues
  have total := inv.once message isAccepted
  simp only [Win32IpcMessageQueue.everywhere, pendingMessages, around, List.flatMap_append,
    List.flatMap_cons, List.count_append] at total
  omega

theorem SendInv.sent_of_completed (inv : SendInv state) {queue : QueueState} {outcome : Outcome}
    (inQueues : queue ∈ state.outboundQueues) (completed : Completed queue.queue outcome)
    {message : ShareableIpcMessage} (pending : message ∈ queue.queue.pending)
    (isAccepted : message ∈ state.accepted) :
    message.destProcessId = queue.queue.processId ∧
    writtenTo (state.written ++ outcome.chunks.map (queue.queue.processId, ·))
        queue.queue.processId message.id =
      if message ∈ outcome.successful then message.bytes else outcome.queue.sentBytes message := by
  obtain ⟨dest, written⟩ := inv.sent queue inQueues message pending isAccepted
  have everywhere : ∀ other ∈ queue.queue.pending, other ∈ state.everywhere := fun other member =>
    pending_everywhere (List.mem_flatMap.mpr ⟨queue, inQueues, member⟩)
  have once := inv.pending_once inQueues isAccepted
  have sent := completed.sentBytes pending once fun other member =>
    inv.identified message isAccepted other (everywhere other member)
  rw [writtenTo_append_chunks, if_pos rfl, written, sent]
  exact ⟨dest, rfl⟩

theorem SendInv.completed_queues (inv : SendInv state) {queue queue' : QueueState}
    {outcome : Outcome} (inQueues : queue ∈ state.outboundQueues) (queueInv : QueueInv queue')
    (same : queue'.queue = outcome.queue) (completed : Completed queue.queue outcome) :
    QueuesInv state.accepted
      (state.written ++ outcome.chunks.map (queue.queue.processId, ·))
      (put QueueState.key queue' state.outboundQueues) := by
  have split := completed.split
  have sameId : queue'.queue.processId = queue.queue.processId := same ▸ completed.processId
  refine inv.toQueuesInv.put queueInv ?_ ?_
  · intro message pending isAccepted
    rw [same] at pending ⊢
    have pendingBefore : message ∈ queue.queue.pending := by
      rw [split]
      exact List.mem_append_right _ pending
    obtain ⟨dest, written⟩ := inv.sent_of_completed inQueues completed pendingBefore isAccepted
    have notSuccessful : message ∉ outcome.successful := by
      intro successful
      have once := inv.pending_once inQueues isAccepted
      rw [split, List.count_append] at once
      have first := List.count_pos_iff.mpr successful
      have second := List.count_pos_iff.mpr pending
      omega
    rw [if_neg notSuccessful] at written
    rw [completed.processId]
    exact ⟨dest, written⟩
  · intro target different message
    rw [sameId] at different
    rw [writtenTo_append_chunks, if_neg (Ne.symm different), List.append_nil]

theorem SendInv.completed_delivered (inv : SendInv state) {queue : QueueState} {outcome : Outcome}
    (inQueues : queue ∈ state.outboundQueues) (completed : Completed queue.queue outcome)
    {message : ShareableIpcMessage} (isAccepted : message ∈ state.accepted)
    (succeeded : message ∈ outcome.successful ∨ message ∈ state.succeeded) :
    (∃ data, message.serializedMessageData = some data) ∧
      writtenTo (state.written ++ outcome.chunks.map (queue.queue.processId, ·))
        message.destProcessId message.id = message.bytes := by
  by_cases now : message ∈ outcome.successful
  · have pending : message ∈ queue.queue.pending := by
      rw [completed.split]
      exact List.mem_append_left _ now
    obtain ⟨dest, written⟩ := inv.sent_of_completed inQueues completed pending isAccepted
    rw [if_pos now] at written
    rw [dest]
    exact ⟨completed.serialized message now, written⟩
  · have before := succeeded.resolve_left now
    obtain ⟨serialized, written⟩ := inv.delivered message isAccepted before
    refine ⟨serialized, ?_⟩
    have none : chunkBytes outcome.chunks message.id = [] := by
      refine chunkBytes_of_not_mem fun chunk inChunks ofMessage => ?_
      obtain ⟨other, pending, ofOther⟩ := completed.chunk_message chunk inChunks
      have inPending : other ∈ pendingMessages state.outboundQueues :=
        List.mem_flatMap.mpr ⟨queue, inQueues, pending⟩
      rw [inv.identified message isAccepted other (pending_everywhere inPending)
        (ofOther.symm.trans ofMessage)] at inPending
      exact inv.not_pending_of_succeeded isAccepted before inPending
    rw [writtenTo_append_chunks, none, ite_self, List.append_nil, written]

theorem SendInv.waitComplete (inv : SendInv state) {currentProcessId processId : IpcProcessId}
    {handle : Handle} (waits : state.worker.waitsFor (.outbound processId handle) = true)
    (now : Int) (spaces : Nat → Option Nat) :
    (∃ state', state.waitComplete currentProcessId processId handle now spaces = .running state' ∧
      SendInv state') ∨
    state.waitComplete currentProcessId processId handle now spaces =
      .aborted .messageSerialized := by
  obtain ⟨waiting, waitedFor⟩ := waitsFor_outbound waits
  obtain ⟨handles, worker⟩ := isWaiting_reporting waiting
  obtain ⟨queue, inQueues, rfl, reported⟩ := inv.handles _ _ waitedFor
  have found : find QueueState.key queue.queue.processId.toNat state.outboundQueues = some queue :=
    inv.ordered.find_of_mem inQueues
  have got : getOutboundQueue state.outboundQueues queue.queue.processId false = some queue := by
    rw [getOutboundQueue, found]
  unfold Win32IpcMessageQueue.waitComplete
  simp only [found]
  rcases (inv.each queue inQueues).completeWait currentProcessId reported now spaces with
    ⟨queue', outcome, ran, queueInv, same, completed⟩ | unserialized
  · left
    simp only [ran]
    refine ⟨_, rfl, inv.completed_queues inQueues queueInv same completed,
      inv.toIdsInv.moved fun message => ?_, nofun, fun chunk member => ?_,
      fun message isAccepted succeeded => ?_⟩
    · have sameId : queue'.queue.processId = queue.queue.processId := same ▸ completed.processId
      have counts := put_got inv.ordered got sameId message
      rw [same, completed.split, List.count_append] at counts
      simp only [Win32IpcMessageQueue.everywhere, Win32IpcMessageQueue.outside, worker,
        Worker.successful, Worker.failed, List.count_append, List.count_nil] at counts ⊢
      omega
    · rcases List.mem_append.mp member with old | new
      · exact inv.chunkIds chunk old
      · obtain ⟨written, inChunks, rfl⟩ := List.mem_map.mp new
        obtain ⟨message, pending, ofMessage⟩ := completed.chunk_message written inChunks
        have inPending : message ∈ pendingMessages state.outboundQueues :=
          List.mem_flatMap.mpr ⟨queue, inQueues, pending⟩
        have id := inv.fresh message (pending_everywhere inPending)
        simpa only [ofMessage] using id
    · refine inv.completed_delivered inQueues completed isAccepted ?_
      by_cases now : message ∈ outcome.successful
      · exact .inl now
      · right
        simpa [Win32IpcMessageQueue.succeeded, worker, Worker.successful, now] using succeeded
  · right
    simp only [unserialized]

end Steps

def SendMachine.Inv : SendMachine → Prop
  | .running state => SendInv state
  | .exited => True
  | .aborted assertion => assertion = .messageSerialized

theorem SendMachine.Inv.step {currentProcessId : IpcProcessId} {machine machine' : SendMachine}
    (inv : machine.Inv) (event : SendEvent)
    (moved : machine.step currentProcessId event = some machine') : machine'.Inv := by
  cases machine with
  | exited => cases event <;> cases moved
  | aborted assertion => cases event <;> cases moved
  | running state =>
      have inv : SendInv state := inv
      cases event with
      | sendWithCompletion destProcessId ipcMessageType data callback opens now =>
          simp only [SendMachine.step] at moved
          split at moved <;> cases moved
          · exact inv
          · exact inv.sendWithCompletion destProcessId ipcMessageType data callback opens now
      | sendToAll processes ipcMessageType data includingSelf now =>
          simp only [SendMachine.step] at moved
          split at moved <;> cases moved
          · exact inv
          · exact inv.sendToAll currentProcessId processes ipcMessageType data includingSelf now
      | build now =>
          simp only [SendMachine.step] at moved
          split at moved
          · rename_i reset worker
            split at moved
            · contradiction
            · obtain ⟨state', built, inv'⟩ := inv.build worker now
              cases moved
              rw [built]
              exact inv'
          · contradiction
      | report =>
          obtain ⟨state', reported, rfl⟩ := Option.map_eq_some_iff.mp moved
          exact inv.report reported
      | sendDataSignalled =>
          simp only [SendMachine.step] at moved
          split at moved
          · rename_i waits
            cases moved
            exact inv.stopWaiting (waitsFor_outbound waits.1).1 true state.die
          · contradiction
      | dataAvailable garbage =>
          simp only [SendMachine.step] at moved
          split at moved
          · rename_i waits
            cases moved
            exact inv.stopWaiting (waitsFor_outbound waits).1 false (state.die || garbage)
          · contradiction
      | waitComplete processId handle abandoned now spaces =>
          simp only [SendMachine.step] at moved
          split at moved
          · rename_i waits
            cases moved
            rcases inv.waitComplete waits now spaces with ⟨state', ran, inv'⟩ | unserialized
            · rw [ran]
              exact inv'
            · rw [unserialized]
              rfl
          · contradiction
      | waitTimeout =>
          simp only [SendMachine.step] at moved
          split at moved
          · rename_i waiting
            cases moved
            exact inv.stopWaiting waiting false state.die
          · contradiction
      | waitFailed =>
          simp only [SendMachine.step] at moved
          split at moved
          · rename_i waiting
            cases moved
            exact inv.stopWaiting waiting false true
          · contradiction
      | exit =>
          simp only [SendMachine.step] at moved
          split at moved
          · split at moved <;> cases moved
            trivial
          · contradiction

theorem length_owners (state : Win32IpcMessageQueue) (message : ShareableIpcMessage) :
    (state.owners message).length = state.everywhere.count message := by
  have pending (queues : List QueueState) : (queues.flatMap fun queue =>
      List.replicate (queue.queue.pending.count message)
        (Owner.pending queue.queue.processId)).length = (pendingMessages queues).count message := by
    induction queues with
    | nil => rfl
    | cons queue rest ih =>
        simp only [pendingMessages, List.flatMap_cons, List.length_append, List.length_replicate,
          List.count_append] at ih ⊢
        rw [ih]
  have reported (reports : List Report) : (reports.filter (·.message = message)).length =
      (reports.map (·.message)).count message := by
    induction reports with
    | nil => rfl
    | cons report rest ih =>
        by_cases same : report.message = message
        · simp [same, ih]
        · simp [same, ih]
  simp only [Win32IpcMessageQueue.owners, Win32IpcMessageQueue.everywhere,
    Win32IpcMessageQueue.outside, List.length_append, List.length_replicate, List.length_map,
    List.count_append, pending, reported]
  omega

theorem length_callbacks (state : Win32IpcMessageQueue) (message : ShareableIpcMessage) :
    (state.callbacks message).length ≤ (state.owners message).length := by
  simp only [Win32IpcMessageQueue.callbacks, Win32IpcMessageQueue.owners, List.length_append,
    List.length_map]
  have fewer : (state.reported.filter fun report => report.message = message ∧ message.callback).length ≤
      (state.reported.filter (·.message = message)).length :=
    (List.monotone_filter_right state.reported fun report => by
      simp only [decide_eq_true_eq]
      exact And.left).length_le
  omega

def SendMachine.Conserves : SendMachine → Prop
  | .running state => state.die = false → ∀ message ∈ state.accepted,
      (∃ owner, state.owners message = [owner]) ∧
      (state.callbacks message).length ≤ 1 ∧
      (.reported true ∈ state.owners message → ∃ data,
        message.serializedMessageData = some data ∧
        writtenTo state.written message.destProcessId message.id = data.bytes)
  | .exited => True
  | .aborted assertion => assertion = .messageSerialized

theorem accepted_message_has_one_owner {currentProcessId : IpcProcessId} {machine : SendMachine}
    (reach : Lib.Reachable (SendMachine.step currentProcessId) Lib.anyAction (.running .init)
      machine) :
    machine.Conserves := by
  have start : SendMachine.Inv (.running .init) := sendInv_init
  have inv := reach.invariant start fun _ event _ inv _ moved =>
    SendMachine.Inv.step inv event moved
  cases machine with
  | exited => trivial
  | aborted assertion => exact inv
  | running state =>
      have inv : SendInv state := inv
      intro notDying message isAccepted
      have once : (state.owners message).length = 1 := by
        rw [length_owners]
        exact inv.once message isAccepted
      refine ⟨List.length_eq_one_iff.mp once, once ▸ length_callbacks state message, fun owner => ?_⟩
      have succeeded : message ∈ state.succeeded := by
        simp only [Win32IpcMessageQueue.owners, List.mem_append, List.mem_flatMap,
          List.mem_replicate, List.mem_map, List.mem_filter, reduceCtorEq, and_false, exists_false,
          or_false, false_or, decide_eq_true_eq] at owner
        obtain ⟨report, ⟨reported, same⟩, result⟩ := owner
        have result : report.result = true := Owner.reported.inj result
        refine List.mem_append_right _ (List.mem_append_right _ (List.mem_map.mpr ⟨report, ?_, same⟩))
        exact List.mem_filter.mpr ⟨reported, result⟩
      obtain ⟨⟨data, serialized⟩, written⟩ := inv.delivered message isAccepted succeeded
      refine ⟨data, serialized, written.trans ?_⟩
      simp only [ShareableIpcMessage.bytes, serialized]

def sentAndTimedOut : List SendEvent :=
  [.sendWithCompletion 7 1 (some ⟨[1, 2], by decide, by decide⟩) true true 0,
    .sendWithCompletion 9 1 (some ⟨[3], by decide, by decide⟩) true true 0, .build 0,
    .waitComplete 7 .writeMutex false 1 fun _ => some kCapacity, .build 70000, .report, .report]

theorem sentAndTimedOut_conserved :
    (Lib.final (SendMachine.step 4) Lib.anyAction (.running .init) sentAndTimedOut
      (by decide +kernel)).Conserves := by
  have reach : Lib.Reachable (SendMachine.step 4) Lib.anyAction (.running .init)
      (Lib.final (SendMachine.step 4) Lib.anyAction (.running .init) sentAndTimedOut
        (by decide +kernel)) := Lib.reachable_final sentAndTimedOut (by decide +kernel)
  exact accepted_message_has_one_owner reach

end ThreadIpc.Ipc
