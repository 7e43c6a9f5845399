import ThreadIpc.Ipc.MessageQueue
import ThreadIpc.Ipc.SentBytes

namespace ThreadIpc.Ipc

open ProcessRegistry (IpcProcessId)
open Lib.OrderedMap (find put Ordered)
open Win32IpcMessageQueue (writtenTo)

def pendingMessages (queues : List QueueState) : List ShareableIpcMessage :=
  queues.flatMap (·.queue.pending)

/-- The queues are well formed, and of every accepted message they hold exactly the bytes of the
packets written so far are in the target's buffer. -/
structure QueuesInv (accepted : List ShareableIpcMessage) (written : List (IpcProcessId × Chunk))
    (queues : List QueueState) : Prop where
  ordered : Ordered QueueState.key queues
  each : ∀ queue ∈ queues, QueueInv queue
  sent : ∀ queue ∈ queues, ∀ message ∈ queue.queue.pending, message ∈ accepted →
    message.destProcessId = queue.queue.processId ∧
    writtenTo written queue.queue.processId message.id = queue.queue.sentBytes message

def KeepsReported (queues queues' : List QueueState) : Prop :=
  ∀ queue ∈ queues, ∃ queue' ∈ queues',
    queue'.queue.processId = queue.queue.processId ∧ queue'.reported = queue.reported

theorem writtenTo_of_fresh {written : List (IpcProcessId × Chunk)} {message : Nat}
    (fresh : ∀ chunk ∈ written, chunk.2.message ≠ message) (processId : IpcProcessId) :
    writtenTo written processId message = [] := by
  have none : (written.filter fun chunk => chunk.1 = processId ∧ chunk.2.message = message) = [] := by
    simp only [List.filter_eq_nil_iff, decide_eq_true_eq, not_and]
    exact fun chunk member _ => fresh chunk member
  rw [writtenTo, none, List.flatMap_nil]

theorem writtenTo_append_chunks (written : List (IpcProcessId × Chunk))
    (processId target : IpcProcessId) (chunks : List Chunk) (message : Nat) :
    writtenTo (written ++ chunks.map (processId, ·)) target message =
      writtenTo written target message ++
        if processId = target then chunkBytes chunks message else [] := by
  simp only [writtenTo, List.filter_append, List.flatMap_append, List.filter_map, Function.comp_def,
    List.flatMap_map, chunkBytes]
  by_cases same : processId = target <;> simp [same]

section Queues
variable {accepted : List ShareableIpcMessage} {written : List (IpcProcessId × Chunk)}
  {queues : List QueueState} {state : QueueState} {processId : IpcProcessId} {opens : Bool}
  {message : ShareableIpcMessage}

theorem QueueState.addMessageToQueue_eq (state : QueueState) (message : ShareableIpcMessage)
    (now : Int) :
    (state.addMessageToQueue message now).queue.pending = state.queue.pending ++ [message] ∧
    (state.addMessageToQueue message now).queue.processId = state.queue.processId ∧
    (state.addMessageToQueue message now).reported = state.reported ∧
    ∀ sent, (state.addMessageToQueue message now).queue.sentBytes sent =
      state.queue.sentBytes sent := by
  obtain ⟨waitStartTime, added⟩ := state.queue.addMessageToQueue_eq message now
  rw [QueueState.addMessageToQueue, added]
  exact ⟨rfl, rfl, rfl, fun _ => rfl⟩

theorem QueuesInv.eq_of_processId (ordered : Ordered QueueState.key queues) {first second : QueueState}
    (firstIn : first ∈ queues) (secondIn : second ∈ queues)
    (same : first.queue.processId = second.queue.processId) : first = second := by
  have foundFirst := ordered.find_of_mem firstIn
  have foundSecond := ordered.find_of_mem secondIn
  simp only [QueueState.key, same] at foundFirst foundSecond
  exact Option.some.inj (foundFirst.symm.trans foundSecond)

theorem getOutboundQueue_some (got : getOutboundQueue queues processId opens = some state) :
    state.queue.processId = processId ∧
    (find QueueState.key processId.toNat queues = some state ∨
      find QueueState.key processId.toNat queues = none ∧ state = .opened processId) := by
  unfold getOutboundQueue at got
  split at got
  · rename_i found
    cases got
    obtain ⟨_, keyed⟩ := Lib.OrderedMap.mem_of_find found
    exact ⟨UInt32.toNat_inj.mp keyed, .inl found⟩
  · rename_i missing
    split at got
    · cases got
      exact ⟨rfl, .inr ⟨missing, rfl⟩⟩
    · contradiction

theorem put_got (ordered : Ordered QueueState.key queues)
    (got : getOutboundQueue queues processId opens = some state) {state' : QueueState}
    (same : state'.queue.processId = processId) (sent : ShareableIpcMessage) :
    (pendingMessages (put QueueState.key state' queues)).count sent +
        state.queue.pending.count sent =
      (pendingMessages queues).count sent + state'.queue.pending.count sent := by
  have keyed : state'.key = processId.toNat := congrArg UInt32.toNat same
  rcases (getOutboundQueue_some got).2 with found | ⟨missing, opened⟩
  · have present : find QueueState.key state'.key queues = some state := keyed ▸ found
    obtain ⟨before, after, split, updated⟩ := ordered.put_of_find present
    rw [updated, split]
    simp only [pendingMessages, List.flatMap_append, List.flatMap_cons, List.count_append]
    omega
  · have absent : find QueueState.key state'.key queues = none := keyed ▸ missing
    obtain ⟨before, after, split, updated⟩ := Lib.OrderedMap.put_of_not_find absent
    rw [updated, split, opened]
    simp only [pendingMessages, List.flatMap_append, List.flatMap_cons, List.count_append,
      QueueState.opened, OutboundQueue.opened, List.count_nil]
    omega

theorem QueuesInv.got (inv : QueuesInv accepted written queues)
    (got : getOutboundQueue queues processId opens = some state) :
    QueueInv state ∧ (∀ message ∈ state.queue.pending, message ∈ pendingMessages queues) ∧
    ∀ message ∈ state.queue.pending, message ∈ accepted →
      message.destProcessId = processId ∧
      writtenTo written processId message.id = state.queue.sentBytes message := by
  obtain ⟨keyed, found | ⟨missing, opened⟩⟩ := getOutboundQueue_some got
  · obtain ⟨member, _⟩ := Lib.OrderedMap.mem_of_find found
    refine ⟨inv.each state member, fun message pending => ?_, ?_⟩
    · exact List.mem_flatMap.mpr ⟨state, member, pending⟩
    · rw [← keyed]
      exact inv.sent state member
  · rw [opened]
    exact ⟨queueInv_opened processId, fun _ member => absurd member List.not_mem_nil,
      fun _ member => absurd member List.not_mem_nil⟩

theorem QueuesInv.put (inv : QueuesInv accepted written queues) {written' : List (IpcProcessId × Chunk)}
    (queueInv : QueueInv state)
    (sent : ∀ message ∈ state.queue.pending, message ∈ accepted →
      message.destProcessId = state.queue.processId ∧
      writtenTo written' state.queue.processId message.id = state.queue.sentBytes message)
    (others : ∀ target, target ≠ state.queue.processId → ∀ message,
      writtenTo written' target message = writtenTo written target message) :
    QueuesInv accepted written' (put QueueState.key state queues) := by
  have ordered := inv.ordered.put state
  have inserted : state ∈ Lib.OrderedMap.put QueueState.key state queues :=
    (Lib.OrderedMap.mem_of_find (Lib.OrderedMap.find_put_self state)).1
  refine ⟨ordered, fun queue member => ?_, fun queue member => ?_⟩
  · rcases Lib.OrderedMap.mem_put member with rfl | old
    · exact queueInv
    · exact inv.each queue old
  · by_cases same : queue.queue.processId = state.queue.processId
    · rw [QueuesInv.eq_of_processId ordered member inserted same]
      exact sent
    · rcases Lib.OrderedMap.mem_put member with rfl | old
      · exact absurd rfl same
      · intro message pending isAccepted
        rw [others _ same]
        exact inv.sent queue old message pending isAccepted

theorem OutboundQueue.sentBytes_of_not_pending {queue : OutboundQueue}
    (progress : queue.InProgress queue.pending) (absent : message ∉ queue.pending) :
    queue.sentBytes message = [] := by
  refine if_neg fun some => absent ?_
  rw [InProgress, some] at progress
  exact List.mem_of_mem_head? progress.1

theorem QueuesInv.addMessage (inv : QueuesInv accepted written queues)
    (got : getOutboundQueue queues processId opens = some state) (now : Int)
    (fresh : message ∈ accepted → message.destProcessId = processId ∧
      (∀ chunk ∈ written, chunk.2.message ≠ message.id) ∧ message ∉ pendingMessages queues) :
    QueuesInv accepted written
      (Lib.OrderedMap.put QueueState.key (state.addMessageToQueue message now) queues) := by
  obtain ⟨keyed, _⟩ := getOutboundQueue_some got
  obtain ⟨queueInv, pendingIn, sent⟩ := inv.got got
  obtain ⟨pending, sameId, _, sameBytes⟩ := state.addMessageToQueue_eq message now
  refine inv.put (queueInv.addMessageToQueue message now) (fun added member isAccepted => ?_)
    fun _ _ _ => rfl
  rw [sameId, keyed, sameBytes]
  rw [pending] at member
  rcases List.mem_append.mp member with old | new
  · exact sent added old isAccepted
  · cases List.mem_singleton.mp new
    obtain ⟨dest, noChunks, notPending⟩ := fresh isAccepted
    refine ⟨dest, ?_⟩
    rw [writtenTo_of_fresh noChunks, OutboundQueue.sentBytes_of_not_pending queueInv.progress
      fun member => notPending (pendingIn _ member)]

theorem count_addMessage (message : ShareableIpcMessage) (ordered : Ordered QueueState.key queues)
    (got : getOutboundQueue queues processId opens = some state) (now : Int)
    (sent : ShareableIpcMessage) :
    (pendingMessages (put QueueState.key (state.addMessageToQueue message now) queues)).count sent =
      (pendingMessages queues).count sent + [message].count sent := by
  obtain ⟨keyed, _⟩ := getOutboundQueue_some got
  obtain ⟨pending, sameId, _⟩ := state.addMessageToQueue_eq message now
  have counts := put_got ordered got (sameId.trans keyed) sent
  rw [pending, List.count_append] at counts
  omega

theorem keepsReported_addMessage (message : ShareableIpcMessage) (ordered : Ordered QueueState.key queues)
    (got : getOutboundQueue queues processId opens = some state) (now : Int) :
    KeepsReported queues
      (put QueueState.key (state.addMessageToQueue message now) queues) := by
  obtain ⟨keyed, found⟩ := getOutboundQueue_some got
  obtain ⟨_, sameId, sameReported, _⟩ := state.addMessageToQueue_eq message now
  intro queue member
  by_cases same : queue.queue.processId = processId
  · have foundQueue := ordered.find_of_mem member
    simp only [QueueState.key, same] at foundQueue
    rcases found with foundState | ⟨missing, _⟩
    · cases foundState.symm.trans foundQueue
      refine ⟨_, (Lib.OrderedMap.mem_of_find (Lib.OrderedMap.find_put_self _)).1, sameId, sameReported⟩
    · rw [missing] at foundQueue
      contradiction
  · have different : (state.addMessageToQueue message now).key ≠ queue.key := by
      simp only [QueueState.key, sameId, keyed]
      exact fun equal => same (UInt32.toNat_inj.mp equal).symm
    have foundQueue := ordered.find_of_mem member
    rw [← Lib.OrderedMap.find_put_of_ne different] at foundQueue
    exact ⟨queue, (Lib.OrderedMap.mem_of_find foundQueue).1, rfl, rfl⟩

theorem QueuesInv.addToQueues (inv : QueuesInv accepted written queues)
    (notAccepted : message ∉ accepted) (now : Int) (targets : List (IpcProcessId × Bool)) :
    QueuesInv accepted written (addToQueues message now targets queues).2 ∧
    (∀ sent ≠ message,
      (pendingMessages (ThreadIpc.Ipc.addToQueues message now targets queues).2).count sent =
        (pendingMessages queues).count sent) ∧
    KeepsReported queues (ThreadIpc.Ipc.addToQueues message now targets queues).2 := by
  induction targets generalizing queues with
  | nil => exact ⟨inv, fun _ _ => rfl, fun queue member => ⟨queue, member, rfl, rfl⟩⟩
  | cons target rest ih =>
      obtain ⟨processId, opens⟩ := target
      simp only [ThreadIpc.Ipc.addToQueues]
      cases got : getOutboundQueue queues processId opens with
      | none => exact ih inv
      | some state =>
          obtain ⟨inv', counts, kept⟩ := ih (inv.addMessage got now fun isAccepted =>
            absurd isAccepted notAccepted)
          refine ⟨inv', fun sent different => ?_, fun queue member => ?_⟩
          · have none : [message].count sent = 0 :=
              List.count_eq_zero_of_not_mem (by simpa using different)
            rw [counts sent different, count_addMessage message inv.ordered got, none, Nat.add_zero]
          · obtain ⟨added, inAdded, sameId, sameReported⟩ :=
              keepsReported_addMessage message inv.ordered got now queue member
            obtain ⟨queue', member', sameId', sameReported'⟩ := kept added inAdded
            exact ⟨queue', member', sameId'.trans sameId, sameReported'.trans sameReported⟩

structure BuiltSpec (queues : List QueueState) (built : Built) : Prop where
  each : ∀ queue ∈ built.queues, QueueInv queue ∧
    ∃ old ∈ queues, queue = { old with reported := queue.reported }
  keys : (built.queues.map QueueState.key).Sublist (queues.map QueueState.key)
  moved : ∀ sent, (pendingMessages built.queues).count sent + built.failed.count sent =
    (pendingMessages queues).count sent
  handles : ∀ processId handle, .outbound processId handle ∈ built.handles →
    ∃ queue ∈ built.queues, queue.queue.processId = processId ∧ handle ∈ queue.reported

theorem buildWaitHandles_spec (each : ∀ queue ∈ queues, QueueInv queue) (now : Int) :
    ∃ built, buildWaitHandles now queues = .ok built ∧ BuiltSpec queues built := by
  induction queues with
  | nil =>
      refine ⟨⟨[], [], []⟩, rfl, ?_, List.Sublist.refl _, fun _ => rfl, ?_⟩
      · exact fun _ member => absurd member List.not_mem_nil
      · exact fun _ _ member => absurd member List.not_mem_nil
  | cons state rest ih =>
      obtain ⟨built, ran, spec⟩ := ih fun queue member => each queue (List.mem_cons_of_mem _ member)
      have older : ∀ queue ∈ built.queues, QueueInv queue ∧
          ∃ old ∈ state :: rest, queue = { old with reported := queue.reported } := by
        intro queue member
        obtain ⟨inv, old, inRest, same⟩ := spec.each queue member
        exact ⟨inv, old, List.mem_cons_of_mem _ inRest, same⟩
      rcases (each state List.mem_cons_self).askForHandles now with removed | ⟨handles, kept, inv⟩
      · refine ⟨{ built with failed := state.queue.pending ++ built.failed }, ?_, older,
          spec.keys.trans (List.sublist_cons_self _ _), fun sent => ?_, spec.handles⟩
        · simp only [buildWaitHandles, removed, ran, bind, Except.bind]
        · have counts := spec.moved sent
          simp only [pendingMessages, List.flatMap_cons, List.count_append] at counts ⊢
          omega
      · refine ⟨⟨{ state with reported := handles } :: built.queues,
          handles.map (.outbound state.queue.processId) ++ built.handles, built.failed⟩,
          ?_, ?_, spec.keys.cons_cons _, fun sent => ?_, ?_⟩
        · simp only [buildWaitHandles, kept, ran, bind, Except.bind]
        · intro queue member
          rcases List.mem_cons.mp member with rfl | later
          · exact ⟨inv, state, List.mem_cons_self, rfl⟩
          · exact older queue later
        · have counts := spec.moved sent
          simp only [pendingMessages, List.flatMap_cons, List.count_append] at counts ⊢
          omega
        · intro processId handle member
          rcases List.mem_append.mp member with now | later
          · obtain ⟨_, reported, same⟩ := List.mem_map.mp now
            cases same
            exact ⟨_, List.mem_cons_self, rfl, reported⟩
          · obtain ⟨queue, inQueues, spec⟩ := spec.handles processId handle later
            exact ⟨queue, List.mem_cons_of_mem _ inQueues, spec⟩

theorem QueuesInv.build (inv : QueuesInv accepted written queues) {built : Built}
    (spec : BuiltSpec queues built) : QueuesInv accepted written built.queues where
  ordered := by
    have ordered := List.pairwise_map.mpr inv.ordered
    exact List.pairwise_map.mp (ordered.sublist spec.keys)
  each := fun queue member => (spec.each queue member).1
  sent := by
    intro queue member
    obtain ⟨_, old, inQueues, same⟩ := spec.each queue member
    rw [same]
    exact inv.sent old inQueues

end Queues

end ThreadIpc.Ipc
