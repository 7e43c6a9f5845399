import ThreadIpc.Ipc.ReaderSteps

namespace ThreadIpc.Ipc

open ProcessRegistry (IpcProcessId)
open Lib

variable {W : Type} [DecidableEq W] {processId : W → IpcProcessId} {strict : Prop}
  {consumed inFlight : List (Packet W)} {state : Channel W} {writer : W} {queue : OutboundQueue}

section Frame
variable {published published' : List (Packet W)} {shared shared' : BufferFormat}
  {used used' numWritten : Nat} {sent completed : List ShareableIpcMessage} {own : Writer W}
  {allowLargeMessage : Bool}

omit [DecidableEq W] in
theorem WriterInv.without_mutex
    (inv : WriterInv strict processId published shared used writer False sent completed own) :
    WriterInv strict processId published' shared' used' writer False sent completed own := by
  have notHeld : own.queue.hasWriteMutex ≠ true := inv.holds.mp
  refine ⟨?_, inv.holds, inv.queued, inv.order⟩
  have stage := inv.stage
  unfold WriterStageInv at stage ⊢
  split
  · rename_i waiting
    simp only [waiting] at stage
    exact ⟨stage.1, fun held => absurd held notHeld⟩
  all_goals
    rename_i ownStage
    simp only [ownStage] at stage
    exact absurd stage.1.held notHeld

omit [DecidableEq W] in
theorem Link.of_same {queue' : OutboundQueue} (link : Link strict published writer queue)
    (same : SameMessages queue queue') : Link strict published writer queue' := by
  simpa only [Link, same.inProgressMessage, same.inProgressWritten, same.inProgressSequence]
    using link

omit [DecidableEq W] in
theorem Link.idle (link : Link strict published writer queue)
    (none : queue.inProgressMessage = none) (isStrict : strict) :
    openMessage published = .none := by
  rw [Link, none] at link
  exact link isStrict

theorem Working.stopWriting (working : Working queue numWritten allowLargeMessage) (now : Int) :
    ∃ released queue', queue.stopWriting numWritten now = .ok (released, queue') ∧
      FlagsInv queue' ∧ queue'.hasWriteMutex = (!released) ∧ SameMessages queue queue' :=
  OutboundQueue.stopWriting_flags now working.held working.notWaiting working.progress working.first

end Frame

theorem alive_update {changed : Writer W} (writers : W → Writer W)
    (same : changed.alive = (writers writer).alive) (other : W) :
    (Function.update writers writer changed other).alive = (writers other).alive := by
  by_cases own : other = writer
  · cases own
    rw [Function.update_self, same]
  · rw [Function.update_of_ne own]

theorem ChannelInv.withWriter (inv : ChannelInv strict processId consumed inFlight state)
    (writer : W) (changed : Writer W) (mutex : Option W)
    (own : changed.alive = true → WriterInv strict processId state.published state.buffer
      (wire inFlight).length writer (mutex = some writer) (state.sent writer)
      (completedBy state.completed writer) changed)
    (others : ∀ other ≠ writer, mutex = some other ↔ state.writeMutex = some other)
    (owner : mutex = some writer → changed.alive = true) (alive : strict → changed.alive = true)
    (idle : strict → mutex = none → openMessage state.published = none) :
    ChannelInv strict processId consumed inFlight
      { state with
        writeMutex := mutex, writers := Function.update state.writers writer changed } where
  log := inv.log
  grammar := inv.grammar
  buffer := inv.buffer
  lastPacketHeader := inv.lastPacketHeader
  reassembled := inv.reassembled
  reader := inv.reader
  completed := inv.completed
  sent := inv.sent
  writers := by
    intro other
    by_cases same : other = writer
    · cases same
      simpa only [Function.update_self] using own
    · simp only [Function.update_of_ne same, others other same]
      exact inv.writers other
  owner := by
    intro other
    by_cases same : other = writer
    · cases same
      simpa only [Function.update_self] using owner
    · simp only [Function.update_of_ne same, others other same]
      exact inv.owner other
  alive := by
    intro isStrict other
    by_cases same : other = writer
    · cases same
      simpa only [Function.update_self] using alive isStrict
    · simpa only [Function.update_of_ne same] using inv.alive isStrict other
  idle := idle

theorem ChannelInv.stop (inv : ChannelInv strict processId consumed inFlight state)
    {numWritten : Nat} {allowLargeMessage : Bool}
    (alive : (state.writers writer).alive = true) (holds : state.writeMutex = some writer)
    (working : Working queue numWritten allowLargeMessage)
    (link : Link strict state.published writer queue)
    (queued : ∀ message ∈ queue.pending,
      message ∈ state.sent writer ∧ message.serializedMessageData.isSome = true)
    (order : strict → state.sent writer = completedBy state.completed writer ++ queue.pending)
    (now : Int) :
    ∃ state', state.stop writer queue numWritten now = .ok state' ∧
      ChannelInv strict processId consumed inFlight state' := by
  obtain ⟨released, queue', stopped, flags, held, same⟩ := working.stopWriting now
  have queued' : ∀ message ∈ queue'.pending,
      message ∈ state.sent writer ∧ message.serializedMessageData.isSome = true :=
    same.pending ▸ queued
  have order' : strict → state.sent writer =
      completedBy state.completed writer ++ queue'.pending := same.pending ▸ order
  cases released with
  | false =>
      refine ⟨_, ?_, inv.withWriter writer
        { state.writers writer with queue := queue', stage := .waiting } state.writeMutex
        (fun _ => ⟨⟨flags, fun _ => link.of_same same⟩, by simp [held, holds], queued', order'⟩)
        (fun _ _ => Iff.rfl) (fun _ => alive) (fun _ => alive) inv.idle⟩
      simp only [Channel.stop, stopped, Except.mapError, bind, Except.bind]
      rfl
  | true =>
      have none : queue.inProgressMessage = none := by
        by_contra some
        have again := flags.inProgress (same.inProgressMessage ▸ some)
        rw [held] at again
        contradiction
      refine ⟨_, ?_, inv.withWriter writer
        { state.writers writer with queue := queue', stage := .waiting } .none
        (fun _ => ⟨⟨flags, fun _ => link.of_same same⟩, by simp [held], queued', order'⟩) ?_ nofun
        (fun _ => alive) (fun isStrict _ => link.idle none isStrict)⟩
      · simp [Channel.stop, stopped, Except.mapError, bind, Except.bind, Channel.setWriter, require,
          holds]
      · intro other different
        simp [holds, Ne.symm different]

theorem ChannelInv.send (inv : ChannelInv strict processId consumed inFlight state)
    (alive : (state.writers writer).alive = true)
    (stage : (state.writers writer).stage = .waiting) {message : ShareableIpcMessage}
    (serialized : message.serializedMessageData.isSome = true) (now : Int) :
    ChannelInv strict processId consumed inFlight (state.send writer message now) where
  log := inv.log
  grammar := inv.grammar
  buffer := inv.buffer
  lastPacketHeader := inv.lastPacketHeader
  reassembled := inv.reassembled
  reader := inv.reader
  completed := inv.completed
  sent := by
    intro packet member
    by_cases same : packet.writer = writer
    · simp only [Channel.send, Channel.setWriter, same, Function.update_self]
      exact List.mem_append_left _ (same ▸ inv.sent packet member)
    · simpa only [Channel.send, Channel.setWriter, Function.update_of_ne same]
        using inv.sent packet member
  writers := by
    intro other
    by_cases same : other = writer
    · cases same
      intro _
      have own := inv.writers writer alive
      have flags := own.stage
      simp only [WriterStageInv, stage] at flags
      have flags' := OutboundQueue.addMessageToQueue_flags flags.1 message now
      obtain ⟨waitStartTime, added⟩ :=
        (state.writers writer).queue.addMessageToQueue_eq message now
      simp only [Channel.send, Channel.setWriter, Function.update_self]
      rw [added] at flags' ⊢
      refine ⟨?_, own.holds, fun queued member => ?_, fun isStrict => ?_⟩
      · simp only [WriterStageInv, stage]
        exact ⟨flags', flags.2⟩
      · rcases List.mem_append.mp member with old | new
        · exact ⟨List.mem_append_left _ (own.queued queued old).1, (own.queued queued old).2⟩
        · cases List.mem_singleton.mp new
          exact ⟨List.mem_append_right _ new, serialized⟩
      · have order := own.order isStrict
        simp only [remaining, stage] at order ⊢
        rw [order, List.append_assoc]
    · simpa only [Channel.send, Channel.setWriter, Function.update_of_ne same]
        using inv.writers other
  owner := fun other owns => (alive_update _ (by rfl) other).trans (inv.owner other owns)
  alive := fun isStrict other => (alive_update _ (by rfl) other).trans (inv.alive isStrict other)
  idle := inv.idle

theorem reports_handles (flags : FlagsInv queue) {handle : Handle} {asked : Int}
    (reported : queue.reports handle asked = true) :
    (handle = .writeMutex → queue.isWaitingForWriteMutex = true ∧
      queue.isWaitingForSpaceAvailable = false) ∧
    (handle = .spaceAvailableEvent → queue.isWaitingForSpaceAvailable = true ∧
      queue.isWaitingForWriteMutex = false) := by
  rcases OutboundQueue.addWaitHandles_ok flags asked with none | ⟨handles, some, _, mutex, space⟩
  · simp [OutboundQueue.reports, none] at reported
  · simp only [OutboundQueue.reports, some, decide_eq_true_eq] at reported
    exact ⟨fun same => mutex (same ▸ reported), fun same => space (same ▸ reported)⟩

theorem ChannelInv.acquire (inv : ChannelInv strict processId consumed inFlight state)
    (alive : (state.writers writer).alive = true)
    (stage : (state.writers writer).stage = .waiting) {asked : Int}
    (reported : (state.writers writer).queue.reports .writeMutex asked = true)
    (free : state.writeMutex = none) (now : Int) :
    ChannelInv strict processId consumed inFlight (state.acquire writer now) := by
  have own := inv.writers writer alive
  have flags := own.stage
  simp only [WriterStageInv, stage] at flags
  obtain ⟨flags, _⟩ := flags
  obtain ⟨_, notSpace⟩ := (reports_handles flags reported).1 rfl
  have notHeld := flags.held.trans notSpace
  have none : (state.writers writer).queue.inProgressMessage = none := by
    by_contra some
    have held := flags.inProgress some
    rw [notHeld] at held
    contradiction
  refine inv.withWriter writer _ (some writer) (fun _ => ⟨?_, by simp, own.queued, ?_⟩) ?_
    (fun _ => alive) (fun _ => alive) nofun
  · refine ⟨⟨rfl, ⟨rfl, notSpace⟩, flags.progress, fun _ => rfl, rfl⟩, ?_⟩
    rw [Link, none]
    exact fun isStrict => inv.idle isStrict free
  · simpa only [remaining, stage] using own.order
  · intro other different
    simp [free, Ne.symm different]

theorem ChannelInv.wake (inv : ChannelInv strict processId consumed inFlight state)
    (alive : (state.writers writer).alive = true)
    (stage : (state.writers writer).stage = .waiting) {asked : Int}
    (reported : (state.writers writer).queue.reports .spaceAvailableEvent asked = true)
    (now : Int) :
    ∃ state', state.wake writer now = .ok state' ∧
      ChannelInv strict processId consumed inFlight state' := by
  have own := inv.writers writer alive
  have flags := own.stage
  simp only [WriterStageInv, stage] at flags
  obtain ⟨flags, link⟩ := flags
  obtain ⟨space, notMutex⟩ := (reports_handles flags reported).2 rfl
  have held := flags.held.trans space
  refine ⟨_, ?_, inv.withWriter writer { state.writers writer with
    queue := { (state.writers writer).queue with
      lastActiveTime := now, isWaitingForSpaceAvailable := false }
    stage := .writing 0 true } state.writeMutex
    (fun _ => ⟨?_, own.holds, own.queued, ?_⟩) (fun _ _ => Iff.rfl) (fun _ => alive)
    (fun _ => alive) inv.idle⟩
  · simp only [Channel.wake, held, require, bind, Except.bind]
    rfl
  · exact ⟨⟨held, ⟨notMutex, rfl⟩, flags.progress, fun _ => rfl, rfl⟩, link held⟩
  · simpa only [remaining, stage] using own.order

theorem ChannelInv.giveUp (inv : ChannelInv strict processId consumed inFlight state)
    (fails : ¬ strict) (alive : (state.writers writer).alive = true)
    (stage : (state.writers writer).stage = .waiting) :
    ∃ state', state.giveUp writer = .ok state' ∧
      ChannelInv strict processId consumed inFlight state' := by
  have own := inv.writers writer alive
  have opened (mutex : Option W) (notOwner : mutex ≠ some writer) :
      WriterInv strict processId state.published state.buffer (wire inFlight).length writer
        (mutex = some writer) (state.sent writer) (completedBy state.completed writer)
        { state.writers writer with
          queue := .opened (state.writers writer).queue.processId } := by
    refine ⟨?_, ?_, ?_, fun isStrict => absurd isStrict fails⟩
    · simp only [WriterStageInv, stage]
      exact ⟨(queueInv_opened _).toFlagsInv, by intros; contradiction⟩
    · simp [OutboundQueue.opened, notOwner]
    · intros
      contradiction
  cases held : (state.writers writer).queue.hasWriteMutex with
  | false =>
      have notOwner : state.writeMutex ≠ some writer := fun holds => by
        rw [own.holds.mpr holds] at held
        contradiction
      refine ⟨_, ?_, inv.withWriter writer _ state.writeMutex (fun _ => opened _ notOwner)
        (fun _ _ => Iff.rfl) (fun _ => alive) (fun _ => alive) inv.idle⟩
      simp only [Channel.giveUp, held]
      rfl
  | true =>
      have holds := own.holds.mp held
      refine ⟨_, ?_, inv.withWriter writer _ none (fun _ => opened _ (Option.some_ne_none _).symm) ?_ ?_
        (fun _ => alive) (fun isStrict => absurd isStrict fails)⟩
      · simp [Channel.giveUp, Channel.setWriter, held, holds, require, bind, Except.bind]
      · intro other different
        simp [holds, Ne.symm different]
      · intros
        contradiction

theorem ChannelInv.die (inv : ChannelInv strict processId consumed inFlight state)
    (fails : ¬ strict) :
    ChannelInv strict processId consumed inFlight (state.die writer) := by
  refine inv.withWriter writer _ _ nofun ?_ ?_ (fun isStrict => absurd isStrict fails)
    (fun isStrict => absurd isStrict fails)
  · intro other different
    split
    · rename_i holds
      simp [holds, Ne.symm different]
    · rfl
  · split
    · nofun
    · rename_i notHolds
      exact fun holds => absurd holds notHolds

end ThreadIpc.Ipc
