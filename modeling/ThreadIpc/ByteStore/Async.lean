import ThreadIpc.ByteStore.Pinned

/-!
# A `Writer` that finishes later

Between the `AddDataDirect` whose writer returns `ASYNC` and `AddDataDirectFinishAsync` the writer
fills its buffer, in order, while the store is reserved, read and made into blobs. `AddString` is
`AddData` of the converted bytes.
-/

namespace ThreadIpc.ByteStore
open Lib
open Serialization (Conversion)

def MemoryBuffer.put (offset : Nat) (data : List Cell) (buffer : MemoryBuffer) : MemoryBuffer :=
  { buffer with cells := (overwrite none offset data buffer.cells).take buffer.size }

/--
Whether the bytes have been added, which is not returned. The length is at most `async_add_length_`.
A negative size, or more bytes than the write buffer has, leaves nothing to be said.
-/
def State.addDataDirectFinishAsync (disk : Disk) (length : Nat) (state : State) :
    Option (State × Bool) :=
  if length = 0 ∧ state.asyncAddLength = 0 then some (state, true)
  else if state.isUsingData then
    if state.data.size < state.asyncAddLength - length then none
    else some ({ state with
      data := state.data.resize (state.data.size - (state.asyncAddLength - length))
      length := state.length + length
      asyncAddLength := 0 }, true)
  else if state.writeBuffer.size < length then none
  else
    let (state, success) := state.addDataToFile disk (state.writeBuffer.cells.take length)
    some ({ state with asyncAddLength := 0 }, success)

inductive Place
  | data
  | writeBuffer
  deriving DecidableEq

structure Pending where
  place : Place
  offset : Nat
  /-- The number of reallocations tells the block from the ones before and after it. -/
  block : Nat
  length : Nat
  wrote : List UInt8

def State.buffer (place : Place) (state : State) : MemoryBuffer :=
  match place with
  | .data => state.data
  | .writeBuffer => state.writeBuffer

inductive AsyncAction
  | call (action : Action)
  | write (bytes : List UInt8)
  | finish (disk : Disk) (length : Nat)

structure AsyncRun where
  /-- Nothing is known of the store after an overflow or a stray write. -/
  store : Option State
  content : List UInt8
  pending : Option Pending

namespace AsyncRun

def init : AsyncRun := ⟨some .init, [], none⟩

def MayCall (run : AsyncRun) : Action → Prop
  | .addData .. | .addDataDirect .. | .finalize => run.pending = none
  | .addString .. => False
  | .reserve .. | .getDataElement | .createBlob | .read .. | .readDirect .. => True

instance (run : AsyncRun) (action : Action) : Decidable (run.MayCall action) :=
  match action with
  | .addData .. | .addDataDirect .. | .finalize =>
      match run with
      | ⟨_, _, none⟩ => .isTrue rfl
      | ⟨_, _, some _⟩ => .isFalse nofun
  | .addString .. => inferInstanceAs (Decidable False)
  | .reserve .. | .getDataElement | .createBlob | .read .. | .readDirect .. =>
      inferInstanceAs (Decidable True)

def started (platform : Platform) (before after : State) : Action → Option Pending
  | .addDataDirect _ maxLength =>
      if after.asyncAddLength = 0 then none
      else if before.isUsingData ∧ maxLength + before.data.size ≤ platform.kMaxBufferSize then
        some ⟨.data, after.data.size - after.asyncAddLength, after.data.reallocations,
          after.asyncAddLength, []⟩
      else some ⟨.writeBuffer, 0, after.writeBuffer.reallocations, after.asyncAddLength, []⟩
  | _ => none

variable (conversion : Conversion) (platform : Platform)

def call (run : AsyncRun) (action : Action) : Option AsyncRun :=
  if run.MayCall action then
    run.store.map fun state => match state.perform conversion platform action with
      | none => { run with store := none }
      | some (after, added) => ⟨some after, run.content ++ added,
          run.pending.or (started platform state after action)⟩
  else none

def step (run : AsyncRun) : AsyncAction → Option AsyncRun
  | .call action => run.call conversion platform action
  | .write bytes => do
      let state ← run.store
      let pending ← run.pending
      let buffer := state.buffer pending.place
      let offset := pending.offset + pending.wrote.length
      if pending.length < pending.wrote.length + bytes.length then none
      else if buffer.reallocations ≠ pending.block then some { run with store := none }
      else
        let buffer := buffer.put offset (bytes.map some)
        some { run with
          store := some (match pending.place with
            | .data => { state with data := buffer }
            | .writeBuffer => { state with writeBuffer := buffer })
          pending := some { pending with wrote := pending.wrote ++ bytes } }
  | .finish disk length => do
      let state ← run.store
      let pending ← run.pending
      if pending.wrote.length < length then none
      else match state.addDataDirectFinishAsync disk length with
        | none => some { run with store := none }
        | some (after, success) =>
            some ⟨some after, run.content ++ (if success then pending.wrote.take length else []), none⟩

end AsyncRun

def State.ReachesPast (offset maxLength : Int) (state : State) : Prop :=
  state.isUsingData ∧ state.length < state.data.size ∧ offset < state.data.size ∧ 0 < maxLength ∧
    state.length < offset + maxLength

def Action.Respects (platform : Platform) (state : State) : Action → Prop
  | .reserve disk length =>
      if length ≤ platform.kMaxBufferSize then length < state.data.capacity
      else disk.creates = true → disk.copy ≠ .complete
  | .getDataElement => state.isFinalized ∨ state.preserveData
  | _ => True

def AsyncRun.Careful (platform : Platform) (run : AsyncRun) : AsyncAction → Prop
  | .call action =>
      (∀ state ∈ run.store, ∀ pending ∈ run.pending, pending.place = .data →
        action.Respects platform state) ∧
      match action with
      | .addData _ _ length | .addDataDirect _ length => ∀ state ∈ run.store, state.CanCount length
      | _ => True
  | .write _ => True
  | .finish _ _ => ∀ state ∈ run.store, ∀ pending ∈ run.pending, pending.place = .writeBuffer →
      state.isUsingData = false

structure Pending.Intact (pending : Pending) (state : State) : Prop where
  inMemory : pending.place = .data → state.isUsingData = true
  block : (state.buffer pending.place).reallocations = pending.block
  wrote : pending.wrote.map some <+: (state.buffer pending.place).cells.drop pending.offset
  room : pending.offset + pending.length ≤ (state.buffer pending.place).size

structure Shows (platform : Platform) (content : List UInt8) (state : State) : Prop where
  length : state.length = content.length
  read_iff : ∀ offset maxLength : Int, 0 ≤ offset → 0 ≤ maxLength →
    ((state.read offset maxLength).2 =
      some ((range content offset.toNat maxLength.toNat).map some) ↔
        ¬ state.ReachesPast offset maxLength)
  readDirect_iff : ∀ reader (offset maxLength : Int), 0 ≤ offset → 0 ≤ maxLength →
    ((∃ calls, (state.readDirect platform reader offset maxLength).2 = some calls ∧
      HandsOver (range content offset.toNat maxLength.toNat) calls) ↔
        ¬ state.ReachesPast offset maxLength)

structure AsyncRun.CorrectIn (platform : Platform) (run : AsyncRun) (state : State) : Prop where
  shows : Shows platform run.content state
  intact : ∀ pending ∈ run.pending, pending.Intact state
  settled : run.pending = none → Presents platform run.content state

def AsyncRun.Correct (platform : Platform) (run : AsyncRun) : Prop :=
  ∃ state, run.store = some state ∧ run.CorrectIn platform state

end ThreadIpc.ByteStore
