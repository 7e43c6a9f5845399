import ThreadIpc.Ipc.PacketSteps

namespace ThreadIpc.Ipc

open ProcessRegistry (IpcProcessId)
open Lib

section Run
variable {W : Type} [DecidableEq W] {processId : W → IpcProcessId} {strict : Prop}
  {consumed inFlight : List (Packet W)} {state : Channel W}

def ChannelMachine.Inv (strict : Prop) (processId : W → IpcProcessId) : ChannelMachine W → Prop
  | .running state => ∃ consumed inFlight, ChannelInv strict processId consumed inFlight state
  | .aborted _ => False

theorem inv_ofResult {result : Except ChannelFault (Channel W)}
    (kept : ∃ state', result = .ok state' ∧ ChannelInv strict processId consumed inFlight state') :
    (ChannelMachine.ofResult result).Inv strict processId := by
  obtain ⟨state', rfl, inv⟩ := kept
  exact ⟨consumed, inFlight, inv⟩

theorem inv_ofReader {result : Except ChannelFault Reader}
    (kept : ∃ reader, result = .ok reader ∧
      ChannelInv strict processId consumed inFlight { state with reader := reader }) :
    (ChannelMachine.ofResult (do
      let reader ← result
      .ok { state with reader := reader })).Inv strict processId := by
  obtain ⟨reader, rfl, inv⟩ := kept
  exact ⟨consumed, inFlight, inv⟩

theorem readerStep_inv (inv : ChannelInv strict processId consumed inFlight state)
    {action : ChannelAction W} {result : Except ChannelFault (Channel W)}
    (moved : state.readerStep action = some result) :
    (ChannelMachine.ofResult result).Inv strict processId := by
  cases action with
  | readerStart =>
      simp only [Channel.readerStep] at moved
      split at moved <;> cases moved
      rename_i stage
      exact inv_ofReader (inv.readerStart stage)
  | readHeader =>
      simp only [Channel.readerStep] at moved
      split at moved <;> cases moved
      rename_i buf stage
      exact inv_ofReader (inv.readHeader stage)
  | readPayload =>
      simp only [Channel.readerStep] at moved
      split at moved <;> cases moved
      rename_i buf header stage
      exact inv_ofReader (inv.readPayload stage)
  | readerCommit =>
      simp only [Channel.readerStep] at moved
      split at moved <;> cases moved
      rename_i buf header stage
      exact inv.readerCommit stage
  | _ => cases moved

theorem writerStep_inv (inv : ChannelInv strict processId consumed inFlight state) {writer : W}
    (alive : (state.writers writer).alive = true) {action : ChannelAction W}
    (allowed : strict → action.isFailure = false) {result : Except ChannelFault (Channel W)}
    (moved : state.writerStep processId writer action = some result) :
    (ChannelMachine.ofResult result).Inv strict processId := by
  cases action with
  | send _ message now =>
      simp only [Channel.writerStep] at moved
      split at moved
      · rename_i stage
        split at moved <;> cases moved
        rename_i serialized
        exact ⟨_, _, inv.send alive stage serialized now⟩
      · contradiction
  | acquire _ asked now =>
      simp only [Channel.writerStep] at moved
      split at moved
      · rename_i stage
        split at moved <;> cases moved
        rename_i ready
        exact ⟨_, _, inv.acquire alive stage ready.1 ready.2 now⟩
      · contradiction
  | wake _ asked now =>
      simp only [Channel.writerStep] at moved
      split at moved
      · rename_i stage
        split at moved <;> cases moved
        rename_i reported
        exact inv_ofResult (inv.wake alive stage reported now)
      · contradiction
  | startPacket _ mapped padding now =>
      simp only [Channel.writerStep] at moved
      split at moved <;> cases moved
      rename_i numWritten allowLargeMessage stage
      exact inv_ofResult (inv.startPacket alive stage mapped padding now)
  | copy _ store =>
      simp only [Channel.writerStep] at moved
      split at moved
      · rename_i packet stores tail numWritten allowLargeMessage stage
        split at moved <;> cases moved
        rename_i member
        exact ⟨_, _, inv.copy alive stage member⟩
      · contradiction
  | publish _ =>
      simp only [Channel.writerStep] at moved
      split at moved <;> cases moved
      rename_i packet tail numWritten allowLargeMessage stage
      exact ⟨_, _, inv.publish alive stage⟩
  | advance _ now =>
      simp only [Channel.writerStep] at moved
      split at moved <;> cases moved
      rename_i packet numWritten allowLargeMessage stage
      exact inv_ofResult (inv.advance alive stage now)
  | giveUp _ =>
      have fails : ¬ strict := fun isStrict => absurd (allowed isStrict) nofun
      simp only [Channel.writerStep] at moved
      split at moved <;> cases moved
      rename_i stage
      exact inv_ofResult (inv.giveUp fails alive stage)
  | die _ =>
      have fails : ¬ strict := fun isStrict => absurd (allowed isStrict) nofun
      cases moved
      exact ⟨_, _, inv.die fails⟩
  | _ => cases moved

theorem ChannelMachine.Inv.step {machine machine' : ChannelMachine W}
    (inv : machine.Inv strict processId) (action : ChannelAction W)
    (allowed : strict → action.isFailure = false)
    (moved : machine.step processId action = some machine') :
    machine'.Inv strict processId := by
  cases machine with
  | aborted fault => cases moved
  | running state =>
      obtain ⟨consumed, inFlight, inv⟩ := inv
      simp only [ChannelMachine.step] at moved
      split at moved
      · rename_i writer _
        split at moved
        · rename_i alive
          obtain ⟨result, stepped, rfl⟩ := Option.map_eq_some_iff.mp moved
          exact writerStep_inv inv alive allowed stepped
        · contradiction
      · obtain ⟨result, stepped, rfl⟩ := Option.map_eq_some_iff.mp moved
        exact readerStep_inv inv stepped

theorem ChannelInv.drained (inv : ChannelInv strict processId consumed inFlight state)
    (empty : state.buffer.head = state.buffer.tail) : inFlight = [] := by
  have used : (wire inFlight).length = 0 := by
    have small := inv.buffer.fits
    have tail := inv.buffer.tail
    rw [← empty] at tail
    have same : (state.buffer.head + (wire inFlight).length) % ringSize =
        (state.buffer.head + 0) % ringSize := by
      rw [← tail, Nat.add_zero, Nat.mod_eq_of_lt inv.buffer.head]
    exact Ring.add_mod_inj (Nat.lt_succ_of_le small) (Nat.succ_pos _) same
  cases inFlight with
  | nil => rfl
  | cons packet rest =>
      rw [wire_cons, List.length_append, Packet.WellFormed.length_bytes] at used
      unfold sizeofHeader at used
      omega

theorem completedBy_prefix_mono {first whole : List (W × ShareableIpcMessage)} (before : first <+: whole)
    (writer : W) : completedBy first writer <+: completedBy whole writer :=
  (before.filter _).map _

def ChannelMachine.Reassembles (processId : W → IpcProcessId) : ChannelMachine W → Prop
  | .running state => ∃ delivered undelivered,
      state.completed = delivered ++ undelivered ∧
      state.reader.reassembled = delivered.map (received processId) ∧
      (∀ writer, completedBy delivered writer <+: state.sent writer) ∧
      ((∀ writer, (state.writers writer).queue.pending = []) →
        state.buffer.head = state.buffer.tail →
        undelivered = [] ∧ ∀ writer, completedBy delivered writer = state.sent writer)
  | .aborted _ => False

theorem reachable_inv {readerProcessId : IpcProcessId} {data : Nat → UInt8} {machine : ChannelMachine W}
    (reach : Reachable (ChannelMachine.step processId) (fun _ action => action.isFailure = false)
      (.running (.init readerProcessId data)) machine) :
    machine.Inv True processId := by
  have start : ChannelMachine.Inv True processId (.running (.init readerProcessId data)) :=
    ⟨[], [], .init True processId readerProcessId data⟩
  exact reach.invariant start fun _ action _ inv allowed moved =>
    ChannelMachine.Inv.step inv action (fun _ => allowed) moved

theorem reassembled_in_completion_order {processId : W → IpcProcessId}
    {readerProcessId : IpcProcessId} {data : Nat → UInt8} {machine : ChannelMachine W}
    (reach : Reachable (ChannelMachine.step processId) (fun _ action => action.isFailure = false)
      (.running (.init readerProcessId data)) machine) :
    machine.Reassembles processId := by
  have inv := reachable_inv reach
  cases machine with
  | aborted fault => exact inv
  | running state =>
      obtain ⟨consumed, inFlight, inv⟩ := inv
      have split : state.completed = (lastPackets consumed).map (·.completes) ++
          (lastPackets inFlight).map (·.completes) := by
        rw [inv.completed, inv.log, lastPackets_append, List.map_append]
      have order : ∀ writer, state.sent writer =
          completedBy state.completed writer ++ remaining (state.writers writer) := fun writer =>
        (inv.writers writer (inv.alive trivial writer)).order trivial
      refine ⟨_, _, split, ?_, fun writer => ?_, fun nothingPending empty => ?_⟩
      · rw [inv.reassembled, List.map_map]
        rfl
      · rw [order writer]
        exact (completedBy_prefix_mono ⟨_, split.symm⟩ writer).trans (List.prefix_append _ _)
      · rw [inv.drained empty] at split ⊢
        refine ⟨rfl, fun writer => ?_⟩
        have nothing : remaining (state.writers writer) = [] := by
          unfold remaining
          split
          · split
            · rw [nothingPending writer]
              rfl
            · exact nothingPending writer
          · exact nothingPending writer
        rw [order writer, nothing, List.append_nil, split]
        simp [lastPackets]

def twoProcesses (writer : Bool) : IpcProcessId :=
  if writer then 4 else 5

def pingPacket (writer : Bool) : Packet Bool where
  writer := writer
  message := pingMessage
  header := ⟨twoProcesses writer, 1, 0, true, 1⟩
  padding := ⟨0, 0, 0⟩
  data := [1]

def beginPing (writer : Bool) : List (ChannelAction Bool) :=
  [.send writer pingMessage 0, .acquire writer 0 0, .startPacket writer true ⟨0, 0, 0⟩ 0]

def finishPing (writer : Bool) : List (ChannelAction Bool) :=
  (Ring.stores ringSize 0 (pingPacket writer).bytes).map (.copy writer) ++
    [.publish writer, .advance writer 0, .startPacket writer true ⟨0, 0, 0⟩ 0,
      .readerStart, .readHeader, .readPayload, .readerCommit]

/-- All stores of the packet that the writer is copying have been made. -/
def Channel.copyAll (state : Channel W) (writer : W) : Channel W :=
  match (state.writers writer).stage with
  | .copying packet _ tail numWritten allowLargeMessage =>
      { state with
        buffer := { state.buffer with
          data := Ring.overwrite state.buffer.data ringSize state.buffer.tail packet.bytes } }.setWriter
        writer { state.writers writer with
          stage := .copying packet [] tail numWritten allowLargeMessage }
  | _ => state

theorem reachable_stores {init : ChannelMachine W} {packet : Packet W} {stores : List (Nat × UInt8)}
    {tail numWritten : Nat} {allowLargeMessage : Bool} {writer : W}
    (alive : (state.writers writer).alive = true)
    (stage : (state.writers writer).stage = .copying packet stores tail numWritten allowLargeMessage)
    (reach : Reachable (ChannelMachine.step processId) (fun _ action => action.isFailure = false) init
      (.running state)) :
    Reachable (ChannelMachine.step processId) (fun _ action => action.isFailure = false) init
      (.running ({ state with
        buffer := { state.buffer with data := Ring.storeAll state.buffer.data stores } }.setWriter
        writer { state.writers writer with
          stage := .copying packet [] tail numWritten allowLargeMessage })) := by
  induction stores generalizing state with
  | nil =>
      rw [← stage]
      simp only [Channel.setWriter, Function.update_eq_self]
      exact reach
  | cons store rest ih =>
      have moved : ChannelMachine.step processId (.running state) (.copy writer store) =
          some (.running
            (state.copy writer packet (store :: rest) tail numWritten allowLargeMessage store)) := by
        simp [ChannelMachine.step, ChannelAction.writer, alive, Channel.writerStep, stage,
          ChannelMachine.ofResult]
      have later := ih ?_ ?_ (reach.next rfl moved)
      · simpa [Channel.copy, Channel.setWriter, Ring.storeAll] using later
      · simp [Channel.copy, Channel.setWriter, alive]
      · simp [Channel.copy, Channel.setWriter]

theorem reachable_copyAll {readerProcessId : IpcProcessId} {data : Nat → UInt8} {writer : W}
    (alive : (state.writers writer).alive = true)
    (reach : Reachable (ChannelMachine.step processId) (fun _ action => action.isFailure = false)
      (.running (.init readerProcessId data)) (.running state)) :
    Reachable (ChannelMachine.step processId) (fun _ action => action.isFailure = false)
      (.running (.init readerProcessId data)) (.running (state.copyAll writer)) := by
  cases stage : (state.writers writer).stage with
  | copying packet stores tail numWritten allowLargeMessage =>
      obtain ⟨consumed, inFlight, inv⟩ := reachable_inv reach
      have writing := (inv.writers writer alive).stage
      simp only [WriterStageInv, stage] at writing
      obtain ⟨-, -, -, copying⟩ := writing
      have small : packet.bytes.length ≤ ringSize := by
        have fits := copying.fits
        unfold ringSize
        omega
      have later := reachable_stores alive stage reach
      rw [copying.storing.storeAll_eq small] at later
      simpa only [Channel.copyAll, stage] using later
  | _ => simpa only [Channel.copyAll, stage] using reach

/-- `startPacket` without a look at whether the message in progress is the first one, which it is. -/
def Channel.resumePacket (processId : W → IpcProcessId) (state : Channel W) (writer : W)
    (numWritten : Nat) (allowLargeMessage : Bool) : Except ChannelFault (Channel W) := do
  let queue := (state.writers writer).queue
  match queue.pending with
  | [] => state.stop writer queue numWritten 0
  | message :: _ =>
      match message.serializedMessageData with
      | none => .error (.assertion .messageSerialized)
      | some data => do
          let buf ← state.buffer.start
          match (queue.nextHeader (processId writer) message data).fit allowLargeMessage with
          | none => state.stop writer queue numWritten 0
          | some (header, spaceNeeded) =>
              if spaceNeeded > buf.spaceAvailable then state.stop writer queue numWritten 0
              else do
                let packet : Packet W := ⟨writer, message, header, ⟨0, 0, 0⟩,
                  header.packetData (data.bytes.drop queue.inProgressWritten)⟩
                let (tail, stores) ← packet.write buf
                .ok (state.setWriter writer { state.writers writer with
                  stage := .copying packet stores tail numWritten allowLargeMessage })

theorem ChannelInv.resumePacket_eq (inv : ChannelInv strict processId consumed inFlight state) {writer : W}
    {numWritten : Nat} {allowLargeMessage : Bool} (alive : (state.writers writer).alive = true)
    (stage : (state.writers writer).stage = .writing numWritten allowLargeMessage) :
    state.startPacket processId writer numWritten allowLargeMessage true ⟨0, 0, 0⟩ 0 =
      state.resumePacket processId writer numWritten allowLargeMessage := by
  have own := inv.writers writer alive
  have writing := own.stage
  simp only [WriterStageInv, stage] at writing
  have working := writing.1
  rw [Channel.startPacket, Channel.resumePacket]
  cases pending : (state.writers writer).queue.pending with
  | nil => rfl
  | cons message rest =>
      have isSome := (own.queued message (pending ▸ List.mem_cons_self)).2
      obtain ⟨data, serialized⟩ := Option.isSome_iff_exists.mp isSome
      have progress := working.progress
      rw [pending] at progress
      have allowed : (state.writers writer).queue.inProgressMessage ≠ none →
          allowLargeMessage = true := fun some_ => by
        rw [working.allow, working.first some_]
        rfl
      have next := OutboundQueue.nextPacket_eq (processId writer) working.held progress serialized allowed
      simp only [next, serialized, Except.mapError, bind, Except.bind]
      rfl

/-- A step, the start of a packet, or all its stores. -/
inductive Move (W : Type)
  | step (action : ChannelAction W)
  | startPacket (writer : W)
  | copyAll (writer : W)

def Move.perform (processId : W → IpcProcessId) :
    Move W → ChannelMachine W → Option (ChannelMachine W)
  | .step action, machine => if action.isFailure then none else machine.step processId action
  | .startPacket writer, .running state =>
      if (state.writers writer).alive then
        match (state.writers writer).stage with
        | .writing numWritten allowLargeMessage => some
            (.ofResult (state.resumePacket processId writer numWritten allowLargeMessage))
        | _ => none
      else none
  | .copyAll writer, .running state =>
      if (state.writers writer).alive then some (.running (state.copyAll writer)) else none
  | .startPacket _, .aborted _ | .copyAll _, .aborted _ => none

def performAll (processId : W → IpcProcessId) (machine : ChannelMachine W) (moves : List (Move W)) :
    Option (ChannelMachine W) :=
  moves.foldlM (fun machine move => move.perform processId machine) machine

theorem reachable_perform {readerProcessId : IpcProcessId} {data : Nat → UInt8}
    {machine after : ChannelMachine W} {move : Move W}
    (reach : Reachable (ChannelMachine.step processId) (fun _ action => action.isFailure = false)
      (.running (.init readerProcessId data)) machine)
    (performed : move.perform processId machine = some after) :
    Reachable (ChannelMachine.step processId) (fun _ action => action.isFailure = false)
      (.running (.init readerProcessId data)) after := by
  cases move with
  | step action =>
      simp only [Move.perform] at performed
      split at performed
      · cases performed
      · rename_i noFailure
        exact reach.next (Bool.eq_false_iff.mpr noFailure) performed
  | startPacket writer =>
      cases machine with
      | aborted fault => cases performed
      | running state =>
          simp only [Move.perform] at performed
          split at performed
          · rename_i alive
            split at performed
            · rename_i numWritten allowLargeMessage stage
              cases performed
              obtain ⟨consumed, inFlight, inv⟩ := reachable_inv reach
              rw [← inv.resumePacket_eq alive stage]
              have notFailure : (ChannelAction.startPacket writer true ⟨0, 0, 0⟩ 0).isFailure = false := rfl
              refine reach.next notFailure ?_
              simp [ChannelMachine.step, ChannelAction.writer, alive, Channel.writerStep, stage]
            · cases performed
          · cases performed
  | copyAll writer =>
      cases machine with
      | aborted fault => cases performed
      | running state =>
          simp only [Move.perform] at performed
          split at performed
          · rename_i alive
            cases performed
            exact reachable_copyAll alive reach
          · cases performed

theorem reachable_performAll {readerProcessId : IpcProcessId} {data : Nat → UInt8}
    {machine after : ChannelMachine W} {moves : List (Move W)}
    (reach : Reachable (ChannelMachine.step processId) (fun _ action => action.isFailure = false)
      (.running (.init readerProcessId data)) machine)
    (performed : performAll processId machine moves = some after) :
    Reachable (ChannelMachine.step processId) (fun _ action => action.isFailure = false)
      (.running (.init readerProcessId data)) after := by
  induction moves generalizing machine with
  | nil =>
      cases performed
      exact reach
  | cons move rest ih =>
      obtain ⟨middle, first, later⟩ := Option.bind_eq_some_iff.mp performed
      exact ih (reachable_perform reach first) later

def longMessage : ShareableIpcMessage where
  id := 0
  destProcessId := 7
  ipcMessageType := 2
  serializedMessageData := some ⟨List.replicate 8200 1, by decide +kernel, by decide +kernel⟩
  callback := false

def sendPacket (writer : Bool) : List (Move Bool) :=
  [.startPacket writer, .copyAll writer, .step (.publish writer), .step (.advance writer 0)]

def readPacket : List (Move Bool) :=
  [.step .readerStart, .step .readHeader, .step .readPayload, .step .readerCommit]

/-- The long message of one writer, and a ping of the other one that waits for the mutex. -/
def twoWriters : List (Move Bool) :=
  [.step (.send true longMessage 0), .step (.send false pingMessage 0), .step (.acquire true 0 0)] ++
    sendPacket true ++ readPacket ++ [.step (.wake true 0 0)] ++ sendPacket true ++
    [.startPacket true, .step (.acquire false 0 0)] ++ sendPacket false ++ readPacket ++ readPacket

def ChannelMachine.writersOf : ChannelMachine W → List W
  | .running state => state.published.map (·.writer)
  | .aborted _ => []

theorem twoWriters_reassembled : ∃ machine : ChannelMachine Bool,
    performAll twoProcesses (.running (.init 7 fun _ => 0)) twoWriters = some machine ∧
    machine.writersOf = [true, true, false] ∧ machine.Reassembles twoProcesses := by
  have performed : (performAll twoProcesses (.running (.init 7 fun _ => 0)) twoWriters).map
      ChannelMachine.writersOf = some [true, true, false] := by
    decide +kernel
  obtain ⟨machine, performed, packets⟩ := Option.map_eq_some_iff.mp performed
  exact ⟨machine, performed, packets,
    reassembled_in_completion_order (reachable_performAll .start performed)⟩

def ChannelMachine.Intact (processId : W → IpcProcessId) : ChannelMachine W → Prop
  | .running state => ∀ message ∈ state.reader.reassembled, ∃ writer original before block after,
      message = received processId (writer, original) ∧ original ∈ state.sent writer ∧
      state.published = before ++ block ++ after ∧
      (∀ packet ∈ block, packet.writer = writer ∧ packet.message = original) ∧
      block.flatMap (·.data) = original.bytes
  | .aborted _ => False

theorem reassembled_intact {processId : W → IpcProcessId} {readerProcessId : IpcProcessId}
    {data : Nat → UInt8} {machine : ChannelMachine W}
    (reach : Reachable (ChannelMachine.step processId) anyAction
      (.running (.init readerProcessId data)) machine) :
    machine.Intact processId := by
  have start : ChannelMachine.Inv False processId (.running (.init readerProcessId data)) :=
    ⟨[], [], .init False processId readerProcessId data⟩
  have inv := reach.invariant start fun _ action _ inv _ moved =>
    ChannelMachine.Inv.step inv action nofun moved
  cases machine with
  | aborted fault => exact inv
  | running state =>
      obtain ⟨consumed, inFlight, inv⟩ := inv
      intro message member
      rw [inv.reassembled] at member
      obtain ⟨packet, inLast, rfl⟩ := List.mem_map.mp member
      obtain ⟨inConsumed, last⟩ := List.mem_filter.mp inLast
      have inPublished : packet ∈ state.published := by
        rw [inv.log]
        exact List.mem_append_left _ inConsumed
      obtain ⟨upTo, after, split⟩ := List.append_of_mem inPublished
      have grammar := inv.grammar
      rw [split, List.append_cons] at grammar
      obtain ⟨before, block, shape, same, bytes⟩ := grammar.of_append.block
      refine ⟨packet.writer, packet.message, before, block, after, rfl,
        inv.sent packet inPublished, ?_, same, ?_⟩
      · rw [split, List.append_cons, shape]
      · rw [bytes, PacketLog.take_of_last (inv.grammar.wellFormed inPublished) last]

def diedCopying : List (ChannelAction Bool) :=
  beginPing true ++ [.copy true (0, 4), .die true] ++ beginPing false ++ finishPing false

theorem diedCopying_intact :
    (Lib.final (ChannelMachine.step twoProcesses) anyAction (.running (.init 7 fun _ => 0))
      diedCopying (by decide +kernel)).Intact twoProcesses :=
  reassembled_intact (Lib.reachable_final _ _)

end Run

end ThreadIpc.Ipc
