import ThreadIpc.Ipc.Completion
import ThreadIpc.Serialization.Atomicity

/-!
# Messages that cannot be serialized

`SendWithCompletion` and `SendToAll` queue a message whatever its data; it is serialized only when
`WriteOneMessage` comes to it.
-/

namespace ThreadIpc.Ipc

open ProcessRegistry (IpcProcessId)
open Lib.OrderedMap (find)
open Serialization (Conversion Serialize Serializable Serializer.writeSerializable)

section Serialized
variable (conversion : Conversion)

/-- What `ShareableIpcMessage::serialized_message_data` returns for a message with this data. -/
def serializedMessageData (data : Serializable) : Option (List UInt8) :=
  let written := Serializer.writeSerializable conversion [] (some data)
  if written.1 then some written.2 else none

theorem serializedMessageData_eq_none_iff (data : Serializable) :
    serializedMessageData conversion data = none ↔ ¬ Serializable.Succeeds (some data) := by
  rw [← @Serializable.writeSerializable_succeeds_iff conversion [], serializedMessageData]
  cases (Serializer.writeSerializable conversion [] (some data)).1 <;> simp

end Serialized

structure NotificationMessage where
  shared : Option (List UInt16 × Option Serializable)

def NotificationMessage.serialize (message : NotificationMessage) : Serialize :=
  match message.shared with
  | none => .returns false
  | some (topic, none) => .writeString topic (.writeNull (.returns true))
  | some (topic, some data) =>
      .writeString topic (.writeObject data.classId data.serialize (.returns true))

def NotificationMessage.serializable (message : NotificationMessage) : Serializable where
  classId := Serialization.SERIALIZABLE_NOTIFICATION
  serialize := message.serialize

theorem notification_succeeds_iff (message : NotificationMessage) :
    Serializable.Succeeds (some message.serializable) ↔
      ∃ topic data, message.shared = some (topic, data) ∧ Serializable.Succeeds data := by
  have notNull : Serialization.SERIALIZABLE_NOTIFICATION ≠ Serialization.SERIALIZABLE_NULL := by
    decide
  obtain ⟨shared⟩ := message
  cases shared with
  | none =>
      refine iff_of_false ?_ ?_
      · rintro ⟨-, fails⟩
        cases fails
      · rintro ⟨topic, data, shared, -⟩
        cases shared
  | some shared =>
      obtain ⟨topic, data⟩ := shared
      constructor
      · rintro ⟨-, succeeds⟩
        refine ⟨topic, data, rfl, ?_⟩
        cases data with
        | none => trivial
        | some data => exact ⟨succeeds.1, succeeds.2.1⟩
      · rintro ⟨_, _, same, succeeds⟩
        cases same
        refine ⟨notNull, ?_⟩
        cases data with
        | none => rfl
        | some data => exact ⟨succeeds.1, succeeds.2, rfl⟩

def WritesWhole (written : Nat) (data : SerializedData) : Option Nat → Prop
  | none => False
  | some available => data.bytes.length - written ≤ maxPacketData ∧
      sizeofHeader + (data.bytes.length - written) ≤ available

/-- Some message cannot be serialized and all in front of it are written to their ends, when
`written` bytes of the first have been sent before. -/
def MeetsUnserialized (spaces : Nat → Option Nat) : Nat → Nat → List ShareableIpcMessage → Prop
  | _, _, [] => False
  | written, numWritten, message :: rest => match message.serializedMessageData with
      | none => True
      | some data => WritesWhole written data (spaces numWritten) ∧
          MeetsUnserialized spaces 0 (numWritten + 1) rest

def SendMachine.MeetsUnserialized (machine : SendMachine) (event : SendEvent) : Prop :=
  match machine, event with
  | .running state, .waitComplete processId handle _ _ spaces =>
      match find QueueState.key processId.toNat state.outboundQueues with
      | none => False
      | some queue => handle ≠ .process ∧
          Ipc.MeetsUnserialized spaces queue.queue.inProgressWritten 0 queue.queue.pending
  | _, _ => False

theorem error_of_bind {α β : Type} {first : Except Assertion α} {next : α → Except Assertion β}
    {assertion : Assertion} (failed : first >>= next = .error assertion) :
    first = .error assertion ∨ ∃ result, first = .ok result ∧ next result = .error assertion := by
  cases first with
  | error other => exact .inl (congrArg Except.error (Except.error.inj failed))
  | ok result => exact .inr ⟨result, rfl, failed⟩

theorem check_ne {condition : Bool} {assertion other : Assertion} (different : assertion ≠ other) :
    check condition assertion ≠ .error other := by
  intro failed
  cases condition with
  | true => cases failed
  | false => exact different (Except.error.inj failed)

namespace OutboundQueue
variable {currentProcessId : IpcProcessId} {queue : OutboundQueue} {spaces : Nat → Option Nat}

theorem writeOneMessage_whole_iff {message : ShareableIpcMessage}
    {rest : List ShareableIpcMessage} {allowLargeMessage : Bool} {data : SerializedData}
    (currentProcessId : IpcProcessId) (space : Option Nat)
    (writing : queue.Writing (message :: rest) allowLargeMessage)
    (serialized : message.serializedMessageData = some data) :
    (∃ queue' chunks, queue.writeOneMessage currentProcessId space message allowLargeMessage =
      .ok (true, queue', chunks)) ↔ WritesWhole queue.inProgressWritten data space := by
  have lt := writing.progress.written_lt serialized
  have fits := data.fits
  have next := nextPacket_eq currentProcessId writing.held writing.progress serialized
    writing.allowed
  have size : (queue.nextHeader currentProcessId message data).packetSize =
      Int32.ofNat (data.bytes.length - queue.inProgressWritten) := rfl
  simp only [writeOneMessage, next, bind, Except.bind]
  cases space with
  | none =>
      refine iff_of_false ?_ id
      rintro ⟨queue', chunks, ran⟩
      cases ran
  | some available =>
      by_cases small : data.bytes.length - queue.inProgressWritten ≤ maxPacketData
      · simp only [MessagePacketHeader.fit_small allowLargeMessage size small, WritesWhole, small,
          true_and]
        by_cases room : sizeofHeader + (data.bytes.length - queue.inProgressWritten) > available
        · rw [if_pos room]
          refine iff_of_false ?_ (not_le.mpr room)
          rintro ⟨queue', chunks, ran⟩
          cases ran
        · rw [if_neg room, packetWritten_last rfl]
          exact iff_of_true ⟨_, _, rfl⟩ (not_lt.mp room)
      · rw [MessagePacketHeader.fit_large allowLargeMessage size (by omega) (not_le.mp small)]
        refine iff_of_false ?_ fun whole => small whole.1
        rintro ⟨queue', chunks, ran⟩
        cases allowLargeMessage with
        | false => cases ran
        | true =>
            simp only [if_true] at ran
            split at ran
            · cases ran
            · rw [packetWritten_more writing.progress serialized rfl rfl rfl] at ran
              cases ran

theorem writeMessages_unserialized_iff {pending : List ShareableIpcMessage}
    {allowLargeMessage : Bool} (numWritten : Nat)
    (writing : queue.Writing pending allowLargeMessage) :
    queue.writeMessages currentProcessId spaces numWritten allowLargeMessage pending =
        .error .messageSerialized ↔
      MeetsUnserialized spaces queue.inProgressWritten numWritten pending := by
  induction pending generalizing queue numWritten allowLargeMessage with
  | nil =>
      refine iff_of_false ?_ id
      intro ran
      cases ran
  | cons message rest ih =>
      cases serialized : message.serializedMessageData with
      | none =>
          simp only [MeetsUnserialized, serialized, iff_true]
          rw [writeMessages, writeOneMessage_unserialized _ writing.held serialized]
          rfl
      | some data =>
          obtain ⟨⟨done, queue', chunks⟩, ran, attempted⟩ :=
            writeOneMessage_attempted currentProcessId (spaces numWritten) writing serialized
          have whole := writeOneMessage_whole_iff currentProcessId (spaces numWritten) writing
            serialized
          simp only [MeetsUnserialized, serialized, writeMessages, ran, bind, Except.bind, ← whole]
          cases done with
          | false =>
              refine iff_of_false ?_ ?_
              · intro stopped
                cases stopped
              · rintro ⟨⟨_, _, same⟩, -⟩
                cases same
          | true =>
              have sent : queue'.Writing rest false ∧ queue'.inProgressWritten = 0 := by
                cases attempted
                exact ⟨⟨writing.held, noneInProgress_inProgress _ _, fun some => absurd rfl some⟩,
                  rfl⟩
              have later := ih (numWritten + 1) sent.1
              rw [sent.2] at later
              rw [← later, and_iff_right ⟨queue', chunks, rfl⟩]
              simp only
              cases writeMessages currentProcessId spaces queue' (numWritten + 1) false rest with
              | error assertion => exact Iff.rfl
              | ok written =>
                  refine iff_of_false ?_ ?_ <;> intro stopped <;> cases stopped

theorem stopWriting_ne (queue : OutboundQueue) (numWritten : Nat) (now : Int) :
    queue.stopWriting numWritten now ≠ .error .messageSerialized := by
  intro failed
  unfold stopWriting at failed
  split at failed
  · rcases error_of_bind failed with waits | ⟨_, _, stopped⟩
    · rcases error_of_bind waits with held | ⟨_, _, idle⟩
      · exact check_ne (by decide) held
      · rcases error_of_bind idle with waiting | ⟨_, _, stopped⟩
        · exact check_ne (by decide) waiting
        · cases stopped
    · cases stopped
  · rcases error_of_bind failed with none | ⟨_, _, stopped⟩
    · exact check_ne (by decide) none
    · simp only at stopped
      split at stopped <;> cases stopped

theorem writePendingMessages_unserialized {now : Int}
    (failed : queue.writePendingMessages currentProcessId now spaces = .error .messageSerialized) :
    queue.writeMessages currentProcessId spaces 0 true queue.pending =
      .error .messageSerialized := by
  rcases error_of_bind failed with held | ⟨_, _, wrote⟩
  · exact absurd held (check_ne (by decide))
  · rcases error_of_bind wrote with unserialized | ⟨_, _, stopped⟩
    · exact unserialized
    · rcases error_of_bind stopped with waits | ⟨_, _, ended⟩
      · exact absurd waits (stopWriting_ne _ _ _)
      · cases ended

end OutboundQueue

theorem QueueInv.meets_of_unserialized {currentProcessId : IpcProcessId} {state : QueueState}
    {handle : Handle} {now : Int} {spaces : Nat → Option Nat} (inv : QueueInv state)
    (reported : handle ∈ state.reported)
    (failed : state.completeWait currentProcessId handle now spaces = .error .messageSerialized) :
    handle ≠ .process ∧
      MeetsUnserialized spaces state.queue.inProgressWritten 0 state.queue.pending := by
  have waited : state.queue.waitComplete currentProcessId handle now spaces =
      .error .messageSerialized := by
    rcases error_of_bind failed with waited | ⟨_, _, released⟩
    · exact waited
    · rcases error_of_bind released with mutex | ⟨_, _, ended⟩
      · exact absurd mutex (check_ne (by decide))
      · cases ended
  rcases error_of_bind waited with closed | ⟨_, _, completed⟩
  · exact absurd closed (check_ne (by decide))
  · cases handle with
    | process => cases completed
    | writeMutex =>
        have writing : OutboundQueue.Writing { state.queue with
            lastActiveTime := now, isWaitingForWriteMutex := false, hasWriteMutex := true }
            state.queue.pending true := ⟨rfl, inv.progress, fun _ => rfl⟩
        have failed := OutboundQueue.writePendingMessages_unserialized completed
        exact ⟨by decide, (OutboundQueue.writeMessages_unserialized_iff 0 writing).mp failed⟩
    | spaceAvailableEvent =>
        obtain ⟨space, -⟩ := inv.reportedSpace reported
        have writing : OutboundQueue.Writing { state.queue with
            lastActiveTime := now, isWaitingForSpaceAvailable := false }
            state.queue.pending true := ⟨inv.held.trans space, inv.progress, fun _ => rfl⟩
        rcases error_of_bind completed with held | ⟨_, _, wrote⟩
        · exact absurd held (check_ne (by decide))
        · have failed := OutboundQueue.writePendingMessages_unserialized wrote
          exact ⟨by decide, (OutboundQueue.writeMessages_unserialized_iff 0 writing).mp failed⟩

theorem SendInv.meets_of_aborted {currentProcessId processId : IpcProcessId} {handle : Handle}
    {abandoned : Bool} {now : Int} {spaces : Nat → Option Nat} {state : Win32IpcMessageQueue}
    (inv : SendInv state) (waits : state.worker.waitsFor (.outbound processId handle) = true)
    (failed : state.waitComplete currentProcessId processId handle now spaces =
      .aborted .messageSerialized) :
    SendMachine.MeetsUnserialized (.running state)
      (.waitComplete processId handle abandoned now spaces) := by
  obtain ⟨queue, inQueues, rfl, reported⟩ := inv.handles _ _ (waitsFor_outbound waits).2
  have found : find QueueState.key queue.queue.processId.toNat state.outboundQueues = some queue :=
    inv.ordered.find_of_mem inQueues
  simp only [SendMachine.MeetsUnserialized, found]
  apply (inv.each queue inQueues).meets_of_unserialized reported
  unfold Win32IpcMessageQueue.waitComplete at failed
  simp only [found] at failed
  split at failed
  · rename_i assertion completed
    cases failed
    exact completed
  · contradiction

def SendMachine.Alive : SendMachine → Prop
  | .running state => SendInv state
  | .exited => True
  | .aborted _ => False

theorem SendMachine.Alive.step {currentProcessId : IpcProcessId} {machine machine' : SendMachine}
    {event : SendEvent} (alive : machine.Alive) (serialized : ¬ machine.MeetsUnserialized event)
    (moved : machine.step currentProcessId event = some machine') : machine'.Alive := by
  cases machine with
  | exited => cases event <;> cases moved
  | aborted assertion => exact alive.elim
  | running state =>
      have inv : SendMachine.Inv (.running state) := alive
      have inv' := inv.step event moved
      cases machine' with
      | running state' => exact inv'
      | exited => trivial
      | aborted assertion =>
          have same : assertion = .messageSerialized := inv'
          subst same
          cases event with
          | waitComplete processId handle abandoned now spaces =>
              simp only [SendMachine.step, Option.ite_none_right_eq_some, Option.some.injEq]
                at moved
              exact serialized (SendInv.meets_of_aborted inv moved.1 moved.2)
          | build now =>
              simp only [SendMachine.step] at moved
              split at moved
              · rename_i reset worker
                split at moved
                · contradiction
                · obtain ⟨state', built, -⟩ := SendInv.build alive worker now
                  rw [built] at moved
                  cases moved
              · contradiction
          | report =>
              obtain ⟨_, _, same⟩ := Option.map_eq_some_iff.mp moved
              cases same
          | exit =>
              simp only [SendMachine.step] at moved
              split at moved
              · split at moved <;> cases moved
              · contradiction
          | sendWithCompletion | sendToAll | sendDataSignalled | dataAvailable | waitTimeout
          | waitFailed =>
              simp only [SendMachine.step] at moved
              split at moved <;> cases moved

def Owner.succeeded : Owner → Bool
  | .successful | .reporting true | .reported true => true
  | .pending _ | .failed | .reporting false | .reported false => false

theorem succeeded_of_owner {state : Win32IpcMessageQueue} {message : ShareableIpcMessage}
    {owner : Owner} (owns : owner ∈ state.owners message) (succeeded : owner.succeeded = true) :
    message ∈ state.succeeded := by
  simp only [Win32IpcMessageQueue.owners, List.mem_append, List.mem_flatMap, List.mem_replicate,
    List.mem_map, List.mem_filter, decide_eq_true_eq] at owns
  simp only [Win32IpcMessageQueue.succeeded, List.mem_append, List.mem_map, List.mem_filter]
  rcases owns with ((((pending | successful) | failed) | reporting) | reporting) | reported
  · obtain ⟨queue, _, _, rfl⟩ := pending
    contradiction
  · exact .inl (List.count_pos_iff.mp (Nat.pos_of_ne_zero successful.1))
  · rw [failed.2] at succeeded
    contradiction
  · exact .inr (.inl (List.count_pos_iff.mp (Nat.pos_of_ne_zero reporting.1)))
  · rw [reporting.2] at succeeded
    contradiction
  · obtain ⟨report, ⟨member, same⟩, rfl⟩ := reported
    cases result : report.result with
    | false =>
        rw [result] at succeeded
        contradiction
    | true => exact .inr (.inr ⟨report, ⟨member, result⟩, same⟩)

/-- No assertion has failed, and an accepted message that cannot be serialized is still queued or
on its way to being reported failed. -/
def SendMachine.WritesOnlySerialized : SendMachine → Prop
  | .running state => ∀ message ∈ state.accepted, message.serializedMessageData = none →
      ∃ owner, state.owners message = [owner] ∧ owner.succeeded = false
  | .exited => True
  | .aborted _ => False

theorem only_serialized_messages_written {currentProcessId : IpcProcessId} {machine : SendMachine}
    (reach : Lib.Reachable (SendMachine.step currentProcessId)
      (fun machine event => ¬ machine.MeetsUnserialized event) (.running .init) machine) :
    machine.WritesOnlySerialized := by
  have start : SendMachine.Alive (.running .init) := sendInv_init
  have alive := reach.invariant start fun _ _ _ alive serialized moved => alive.step serialized moved
  cases machine with
  | exited => trivial
  | aborted assertion => exact alive
  | running state =>
      have inv : SendInv state := alive
      intro message isAccepted unserialized
      have once : (state.owners message).length = 1 := by
        rw [length_owners]
        exact inv.once message isAccepted
      obtain ⟨owner, only⟩ := List.length_eq_one_iff.mp once
      refine ⟨owner, only, ?_⟩
      rw [← Bool.not_eq_true]
      intro succeeded
      have owns : owner ∈ state.owners message := by
        rw [only]
        exact List.mem_singleton_self owner
      obtain ⟨⟨data, serialized⟩, -⟩ :=
        inv.delivered message isAccepted (succeeded_of_owner owns succeeded)
      rw [unserialized] at serialized
      contradiction

instance (written : Nat) (data : SerializedData) (space : Option Nat) :
    Decidable (WritesWhole written data space) := by
  cases space <;> unfold WritesWhole <;> infer_instance

instance (spaces : Nat → Option Nat) (written numWritten : Nat)
    (pending : List ShareableIpcMessage) :
    Decidable (MeetsUnserialized spaces written numWritten pending) := by
  induction pending generalizing written numWritten with
  | nil => exact inferInstanceAs (Decidable False)
  | cons message rest ih =>
      have := ih 0 (numWritten + 1)
      unfold MeetsUnserialized
      cases message.serializedMessageData <;> infer_instance

instance (machine : SendMachine) (event : SendEvent) :
    Decidable (machine.MeetsUnserialized event) := by
  unfold SendMachine.MeetsUnserialized
  split
  · split <;> infer_instance
  · infer_instance

/-- The first message cannot be serialized and times out, the second never opens its queue. -/
def failedRun : List SendEvent :=
  [.sendWithCompletion 7 8 none true true 0, .sendWithCompletion 9 8 none true false 0, .build 0,
    .report, .waitTimeout, .build 70000, .report]

theorem failedRun_writes_only_serialized :
    (Lib.final (SendMachine.step 4) (fun machine event => ¬ machine.MeetsUnserialized event)
      (.running .init) failedRun (by decide +kernel)).WritesOnlySerialized :=
  only_serialized_messages_written (Lib.reachable_final failedRun (by decide +kernel))

/-- The worker comes to write a message that cannot be serialized. -/
def unserializedRun : List SendEvent :=
  [.sendWithCompletion 7 8 none true true 0, .build 0,
    .waitComplete 7 .writeMutex false 1 fun _ => some kCapacity]

def unregisteredData : Serializable :=
  ⟨Serialization.SERIALIZABLE_NULL, .returns true⟩

theorem unserialized_message_aborts :
    (∀ conversion topic, serializedMessageData conversion
      (NotificationMessage.serializable ⟨some (topic, some unregisteredData)⟩) = none) ∧
    Lib.Reachable (SendMachine.step 4) Lib.anyAction (.running .init)
      (.aborted .messageSerialized) := by
  constructor
  · intro conversion topic
    rw [serializedMessageData_eq_none_iff, notification_succeeds_iff]
    rintro ⟨_, _, same, succeeds⟩
    cases same
    exact succeeds.1 rfl
  · exact Lib.Reachable.run unserializedRun .start _ (by decide +kernel)

end ThreadIpc.Ipc
