import ThreadIpc.ConvertUtf.RoundTrip
import ThreadIpc.Ipc.InboundQueue
import ThreadIpc.Ipc.Integrity
import ThreadIpc.Serialization.RoundTrip

/-!
# Objects from process to process

`ShareableIpcMessage` serializes an object when it is written, `InboundQueue::ReadOneMessage` reads it back
from the bytes of the message. Strings are converted by the functions of `string_utils.cc`.
-/

namespace ThreadIpc.Ipc

open ProcessRegistry (IpcProcessId)
open Serialization
open ConvertUtf (utf8 utf16 intMax string16ToUTF8 utf8ToString16)
open Lib

def utf : Conversion := ⟨string16ToUTF8, utf8ToString16⟩

/-- A record in a record is shorter, so that calls are not nested deeper than there are bytes. -/
def readAndDispatch (arch : Arch) (asserts : Bool) (classes : Int32 → Option Program)
    (message : Received) : Except Fault (Option HandlerCall) :=
  (createMessage arch asserts utf classes message.bytes.length message.bytes).map
    (handlerCall? message.source message.messageType)

def serialized (data : Value) : Option (List UInt8) :=
  let written := Serializer.write utf [] data
  if written.1 then some written.2 else none

section Objects

/-- The strings that both conversions leave alone. -/
def Paired (data : List UInt16) : Prop := data.length ≤ intMax / 4 ∧ ∃ text, data = utf16 text

theorem zero_notMem_utf8EncodeChar {c : Char} (some_ : c.toNat ≠ 0) : 0 ∉ String.utf8EncodeChar c := by
  have byte {n : Nat} (some_ : n % 256 ≠ 0) : (0 : UInt8) ≠ UInt8.ofNat n := by
    intro zero
    have value := congrArg UInt8.toNat zero
    rw [UInt8.toNat_ofNat'] at value
    exact some_ value.symm
  have same : c.val.toNat = c.toNat := rfl
  unfold String.utf8EncodeChar
  simp only [same]
  split
  · rename_i small
    rw [List.mem_singleton]
    exact byte (by omega)
  · split
    · simp only [List.mem_cons, List.not_mem_nil, or_false, not_or]
      exact ⟨byte (by omega), byte (by omega)⟩
    · split
      · simp only [List.mem_cons, List.not_mem_nil, or_false, not_or]
        exact ⟨byte (by omega), byte (by omega), byte (by omega)⟩
      · simp only [List.mem_cons, List.not_mem_nil, or_false, not_or]
        exact ⟨byte (by omega), byte (by omega), byte (by omega), byte (by omega)⟩

theorem zero_notMem_utf8 {text : List Char} (some_ : 0 ∉ utf16 text) : 0 ∉ utf8 text := by
  intro zero
  obtain ⟨c, inside, zero⟩ := List.mem_flatMap.mp zero
  by_cases null : c.toNat = 0
  · refine some_ (List.mem_flatMap.mpr ⟨c, inside, ?_⟩)
    rw [ConvertUtf.utf16Char, null]
    decide
  · exact zero_notMem_utf8EncodeChar null zero

theorem utf_exact : utf.ExactOn Paired := by
  rintro data ⟨short, text, rfl⟩ some_
  exact ⟨utf8 text, ConvertUtf.string16ToUTF8_eq_some_iff.mpr ⟨short, text, rfl, rfl⟩,
    zero_notMem_utf8 some_, ConvertUtf.utf8ToString16_utf8 text⟩

mutual
theorem depth_le_encoding (conversion : Conversion) :
    (value : Value) → value.depth ≤ (value.encoding conversion).length
  | .null => by
      simp [Value.depth, Value.encoding]
  | .object classId fields => by
      have inner := fieldsDepth_le_payload conversion fields
      simp only [Value.depth, Value.encoding, List.length_append, length_intBytes]
      omega
  | .bool _ | .int _ | .int64 _ | .bytes _ | .string _ => by
      simp [Value.depth]

theorem fieldsDepth_le_payload (conversion : Conversion) :
    (fields : List Value) → Value.fieldsDepth fields ≤ (Value.payload conversion fields).length
  | [] => Nat.zero_le _
  | field :: rest => by
      have first := depth_le_encoding conversion field
      have later := fieldsDepth_le_payload conversion rest
      simp only [Value.fieldsDepth, Value.payload, List.length_append]
      omega
end

/-- An object that a process with these classes can read. -/
structure Sendable (classes : Int32 → Option Program) (data : Value) : Prop where
  object : ∃ classId fields, data = .object classId fields
  readable : data.Readable utf Paired classes
  fits : (data.encoding utf).length < 2 ^ 31

theorem readAndDispatch_serialized {classes : Int32 → Option Program} {data : Value}
    (sendable : Sendable classes data) (arch : Arch) (asserts : Bool) (source : IpcProcessId)
    (messageType : Int32) :
    ∃ bytes, serialized data = some bytes ∧
      readAndDispatch arch asserts classes ⟨source, messageType, bytes⟩ =
        .ok (some ⟨source, messageType, data⟩) := by
  obtain ⟨⟨classId, fields, rfl⟩, readable, fits⟩ := sendable
  have written := @Serializer.write_eq utf [] _ (Value.Readable.writable _ readable)
  rw [List.nil_append] at written
  refine ⟨_, by rw [serialized, written]; rfl, ?_⟩
  have some_ : (Value.object classId fields).encoding utf ≠ [] := by
    intro empty
    have length := congrArg List.length empty
    simp [Value.encoding] at length
  have fits : ((Value.object classId fields).encoding utf).length < 2 ^ (arch.sizeBits - 1) :=
    fits.trans_le (by cases arch <;> decide)
  have faces := @Deserializer.faces_of_bytes arch
    ⟨(Value.object classId fields).encoding utf, fits⟩ [] _ [] (List.append_nil _).symm
  have read := @readsBack arch asserts _ utf Paired classes utf_exact _ readable rfl _
    (depth_le_encoding utf _) _ faces
  simp only [Deserializer.advance, List.length_nil, Nat.zero_add] at read
  rw [readAndDispatch, createMessage, if_neg some_, dif_pos fits, read]
  rfl

end Objects

section Sent

variable {W : Type}

def KeepsSent (state : Channel W) (result : Except ChannelFault (Channel W)) : Prop :=
  ∀ state', result = .ok state' → state'.sent = state.sent

theorem KeepsSent.ok {state state' : Channel W} (same : state'.sent = state.sent) :
    KeepsSent state (.ok state') := by
  rintro _ ⟨⟩
  exact same

theorem KeepsSent.bind {α : Type} {state : Channel W} {first : Except ChannelFault α}
    {next : α → Except ChannelFault (Channel W)} (keeps : ∀ result, KeepsSent state (next result)) :
    KeepsSent state (first >>= next) := by
  intro state' same
  cases first with
  | error fault => cases same
  | ok result => exact keeps result state' same

end Sent

section Run

variable {W : Type} [DecidableEq W] {processId : W → IpcProcessId} {classes : Int32 → Option Program}
  {data : ShareableIpcMessage → Value} {strict : Prop}

def ChannelAction.Sends (classes : Int32 → Option Program) (data : ShareableIpcMessage → Value) :
    ChannelAction W → Prop
  | .send _ message _ => Sendable classes (data message) ∧
      message.serializedMessageData.map (·.bytes) = serialized (data message)
  | _ => True

def Channel.Objects (classes : Int32 → Option Program) (data : ShareableIpcMessage → Value)
    (state : Channel W) : Prop :=
  ∀ writer, ∀ message ∈ state.sent writer, Sendable classes (data message) ∧
    message.serializedMessageData.map (·.bytes) = serialized (data message)

def ChannelMachine.Objects (classes : Int32 → Option Program) (data : ShareableIpcMessage → Value) :
    ChannelMachine W → Prop
  | .running state => state.Objects classes data
  | .aborted _ => True

theorem keepsSent_stop (state : Channel W) (writer : W) (queue : OutboundQueue) (numWritten : Nat)
    (now : Int) : KeepsSent state (state.stop writer queue numWritten now) := by
  refine .bind fun ⟨released, queue⟩ => ?_
  dsimp only
  split
  · exact .bind fun _ => .ok rfl
  · exact .ok rfl

theorem keepsSent_startPacket (state : Channel W) (writer : W) (numWritten : Nat)
    (allowLargeMessage mapped : Bool) (padding : Padding) (now : Int) :
    KeepsSent state (state.startPacket processId writer numWritten allowLargeMessage mapped padding now) := by
  rw [Channel.startPacket]
  split
  · exact keepsSent_stop _ _ _ _ _
  · refine .bind ?_
    rintro ⟨header, msgData⟩
    dsimp only
    split
    · exact keepsSent_stop _ _ _ _ _
    · refine .bind fun buf => ?_
      split
      · exact keepsSent_stop _ _ _ _ _
      · split
        · exact keepsSent_stop _ _ _ _ _
        · exact .bind fun _ => .ok rfl

theorem keepsSent_advance (state : Channel W) (writer : W) (packet : Packet W) (numWritten : Nat)
    (now : Int) : KeepsSent state (state.advance writer packet numWritten now) := by
  refine .bind fun ⟨done, queue⟩ => ?_
  dsimp only
  split
  · exact .ok rfl
  · exact keepsSent_stop _ _ _ _ _

theorem keepsSent_giveUp (state : Channel W) (writer : W) : KeepsSent state (state.giveUp writer) := by
  rw [Channel.giveUp]
  split
  · exact .bind fun _ => .ok rfl
  · exact .ok rfl

omit [DecidableEq W] in
theorem Channel.Objects.ofResult {state : Channel W} {result : Except ChannelFault (Channel W)}
    (objects : state.Objects classes data) (keeps : KeepsSent state result) :
    (ChannelMachine.ofResult result).Objects classes data := by
  cases result with
  | error fault => trivial
  | ok state' =>
      intro writer message sent
      rw [keeps state' rfl] at sent
      exact objects writer message sent

theorem Channel.Objects.send {state : Channel W} (objects : state.Objects classes data) {writer : W}
    {message : ShareableIpcMessage} {now : Int}
    (sends : (ChannelAction.send writer message now).Sends classes data) :
    (state.send writer message now).Objects classes data := by
  intro other message' sent
  have sent : message' ∈ Function.update state.sent writer (state.sent writer ++ [message]) other := sent
  by_cases same : other = writer
  · rw [same, Function.update_self] at sent
    rcases List.mem_append.mp sent with before | new
    · exact objects writer message' before
    · cases List.mem_singleton.mp new
      exact sends
  · rw [Function.update_of_ne same] at sent
    exact objects other message' sent

theorem Channel.Objects.writerStep {state : Channel W} (objects : state.Objects classes data) {writer : W}
    {action : ChannelAction W} (own : action.writer = some writer) (sends : action.Sends classes data)
    {result : Except ChannelFault (Channel W)}
    (moved : state.writerStep processId writer action = some result) :
    (ChannelMachine.ofResult result).Objects classes data := by
  cases action with
  | send _ message now =>
      cases own
      simp only [Channel.writerStep] at moved
      split at moved
      · split at moved
        · cases moved
          exact objects.send sends
        · cases moved
      · cases moved
  | acquire _ asked now =>
      simp only [Channel.writerStep] at moved
      split at moved
      · split at moved
        · cases moved
          exact objects.ofResult (.ok rfl)
        · cases moved
      · cases moved
  | wake _ asked now =>
      simp only [Channel.writerStep] at moved
      split at moved
      · split at moved
        · cases moved
          exact objects.ofResult (.bind fun _ => .ok rfl)
        · cases moved
      · cases moved
  | startPacket _ mapped padding now =>
      simp only [Channel.writerStep] at moved
      split at moved
      · cases moved
        exact objects.ofResult (keepsSent_startPacket _ _ _ _ _ _ _)
      · cases moved
  | copy _ store =>
      simp only [Channel.writerStep] at moved
      split at moved
      · split at moved
        · cases moved
          exact objects.ofResult (.ok rfl)
        · cases moved
      · cases moved
  | publish _ =>
      simp only [Channel.writerStep] at moved
      split at moved
      · cases moved
        exact objects.ofResult (.ok rfl)
      · cases moved
  | advance _ now =>
      simp only [Channel.writerStep] at moved
      split at moved
      · cases moved
        exact objects.ofResult (keepsSent_advance _ _ _ _ _)
      · cases moved
  | giveUp _ =>
      simp only [Channel.writerStep] at moved
      split at moved
      · cases moved
        exact objects.ofResult (keepsSent_giveUp _ _)
      · cases moved
  | die _ =>
      cases moved
      exact objects.ofResult (.ok rfl)
  | _ => cases moved

omit [DecidableEq W] in
theorem Channel.Objects.readerStep {state : Channel W} (objects : state.Objects classes data)
    {action : ChannelAction W} {result : Except ChannelFault (Channel W)}
    (moved : state.readerStep action = some result) :
    (ChannelMachine.ofResult result).Objects classes data := by
  cases action with
  | readerStart | readHeader | readPayload =>
      simp only [Channel.readerStep] at moved
      split at moved
      · cases moved
        exact objects.ofResult (.bind fun _ => .ok rfl)
      · cases moved
  | readerCommit =>
      simp only [Channel.readerStep] at moved
      split at moved
      · cases moved
        exact objects.ofResult (.ok rfl)
      · cases moved
  | _ => cases moved

theorem ChannelMachine.Objects.step {machine machine' : ChannelMachine W}
    (objects : machine.Objects classes data) {action : ChannelAction W} (sends : action.Sends classes data)
    (moved : machine.step processId action = some machine') : machine'.Objects classes data := by
  cases machine with
  | aborted fault => cases moved
  | running state =>
      simp only [ChannelMachine.step] at moved
      split at moved
      · rename_i writer own
        split at moved
        · obtain ⟨result, stepped, rfl⟩ := Option.map_eq_some_iff.mp moved
          exact Channel.Objects.writerStep objects own sends stepped
        · cases moved
      · obtain ⟨result, stepped, rfl⟩ := Option.map_eq_some_iff.mp moved
        exact Channel.Objects.readerStep objects stepped

def ChannelMachine.Arrives (strict : Prop) (processId : W → IpcProcessId) (arch : Arch)
    (asserts : Bool) (classes : Int32 → Option Program) (data : ShareableIpcMessage → Value) : ChannelMachine W → Prop
  | .running state => ∃ delivered : List (W × ShareableIpcMessage),
      state.reader.reassembled.map (readAndDispatch arch asserts classes) = delivered.map (fun entry =>
        .ok (some ⟨processId entry.1, entry.2.ipcMessageType, data entry.2⟩)) ∧
      (∀ entry ∈ delivered, entry.2 ∈ state.sent entry.1) ∧
      (strict → ∀ writer, completedBy delivered writer <+: state.sent writer) ∧
      (strict → (∀ writer, (state.writers writer).queue.pending = []) →
        state.buffer.head = state.buffer.tail → ∀ writer, completedBy delivered writer = state.sent writer)
  | .aborted _ => False

theorem objects_arrive_as_sent {readerProcessId : IpcProcessId} {bytes : Nat → UInt8}
    {machine : ChannelMachine W} (arch : Arch) (asserts : Bool)
    (reach : Reachable (ChannelMachine.step processId)
      (fun _ action => action.Sends classes data ∧ (strict → action.isFailure = false))
      (.running (.init readerProcessId bytes)) machine) :
    machine.Arrives strict processId arch asserts classes data := by
  have inv : machine.Inv strict processId := reach.invariant
    ⟨[], [], .init strict processId readerProcessId bytes⟩
    fun _ action _ inv allowed moved => ChannelMachine.Inv.step inv action allowed.2 moved
  have objects : machine.Objects classes data := reach.invariant (fun writer message sent => by cases sent)
    fun _ _ _ objects allowed moved => ChannelMachine.Objects.step objects allowed.1 moved
  cases machine with
  | aborted fault => exact inv
  | running state =>
      obtain ⟨consumed, inFlight, inv⟩ := inv
      have published (packet : Packet W) (last : packet ∈ lastPackets consumed) :
          packet ∈ state.published := by
        rw [inv.log]
        exact List.mem_append_left _ (List.mem_of_mem_filter last)
      have split : state.completed = (lastPackets consumed).map (·.completes) ++
          (lastPackets inFlight).map (·.completes) := by
        rw [inv.completed, inv.log, lastPackets_append, List.map_append]
      have order (isStrict : strict) (writer : W) :
          state.sent writer = completedBy state.completed writer ++ remaining (state.writers writer) :=
        (inv.writers writer (inv.alive isStrict writer)).order isStrict
      refine ⟨(lastPackets consumed).map (·.completes), ?_, ?_, fun isStrict => ?_, fun isStrict => ?_⟩
      · rw [inv.reassembled, List.map_map, List.map_map]
        refine List.map_congr_left fun packet last => ?_
        obtain ⟨sendable, same⟩ := objects _ _ (inv.sent packet (published packet last))
        obtain ⟨record, written, read⟩ := readAndDispatch_serialized sendable arch asserts
          (processId packet.writer) packet.message.ipcMessageType
        obtain ⟨serializedData, some_, rfl⟩ := Option.map_eq_some_iff.mp (same.trans written)
        have bytes : packet.message.bytes = serializedData.bytes := by
          rw [ShareableIpcMessage.bytes, some_]
        rw [Function.comp_apply, received, Packet.completes, bytes]
        exact read
      · intro entry inside
        obtain ⟨packet, last, rfl⟩ := List.mem_map.mp inside
        exact inv.sent packet (published packet last)
      · intro writer
        rw [order isStrict writer, split]
        exact (completedBy_prefix_mono (List.prefix_append _ _) writer).trans (List.prefix_append _ _)
      · intro nothingPending empty writer
        rw [order isStrict writer, split, inv.drained empty]
        have nothing : remaining (state.writers writer) = [] := by
          unfold remaining
          split
          · rw [nothingPending writer, List.tail_nil, ite_self]
          · exact nothingPending writer
        rw [nothing, List.append_nil]
        exact congrArg (completedBy · writer) (List.append_nil _).symm

def greeting : Value := .object SERIALIZABLE_STRING16 [.string [104, 105]]

def greetingMessage : ShareableIpcMessage where
  id := 1
  destProcessId := 7
  ipcMessageType := 2
  serializedMessageData := some
    ⟨[3, 0, 0, 0, 6, 0, 0, 0, 2, 0, 0, 0, 104, 105], by decide, by decide⟩
  callback := false

theorem greeting_sendable : Sendable Serialization.constructors greeting where
  object := ⟨_, _, rfl⟩
  readable := ⟨by decide, ⟨_, rfl, .string .done⟩, by decide +kernel,
    ⟨⟨by decide, ['h', 'i'], by decide⟩, by decide⟩, trivial⟩
  fits := by decide +kernel

def greetingPacket : Packet Bool where
  writer := true
  message := greetingMessage
  header := ⟨4, 2, 0, true, 14⟩
  padding := ⟨0, 0, 0⟩
  data := [3, 0, 0, 0, 6, 0, 0, 0, 2, 0, 0, 0, 104, 105]

def greetingDelivered : List (ChannelAction Bool) :=
  [.send true greetingMessage 0, .acquire true 0 0, .startPacket true true ⟨0, 0, 0⟩ 0] ++
    (Ring.stores ringSize 0 greetingPacket.bytes).map (.copy true) ++
    [.publish true, .advance true 0, .startPacket true true ⟨0, 0, 0⟩ 0,
      .readerStart, .readHeader, .readPayload, .readerCommit]

def ChannelAction.Greets : ChannelAction Bool → Bool
  | .send _ message _ => message = greetingMessage
  | .giveUp _ | .die _ => false
  | _ => true

theorem ChannelAction.Greets.sends {action : ChannelAction Bool} (greets : action.Greets = true) :
    action.Sends Serialization.constructors (fun _ => greeting) ∧ (True → action.isFailure = false) := by
  cases action with
  | send writer message now =>
      have same : message = greetingMessage := of_decide_eq_true greets
      refine ⟨⟨greeting_sendable, ?_⟩, fun _ => rfl⟩
      rw [same]
      decide +kernel
  | giveUp writer | die writer => cases greets
  | _ => exact ⟨trivial, fun _ => rfl⟩

theorem objects_arrive_as_sent_greeting :
    (Lib.final (ChannelMachine.step twoProcesses) (fun _ action => action.Greets = true)
      (.running (.init 7 fun _ => 0)) greetingDelivered (by decide +kernel)).Arrives True twoProcesses .lp64 true
        Serialization.constructors fun _ => greeting :=
  objects_arrive_as_sent .lp64 true
    ((Lib.reachable_final _ _).weaken fun _ _ greets => ChannelAction.Greets.sends greets)

end Run

end ThreadIpc.Ipc
