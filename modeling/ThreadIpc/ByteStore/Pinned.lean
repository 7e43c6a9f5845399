import ThreadIpc.ByteStore.Refinement
import ThreadIpc.ByteStore.Frame
import Mathlib.Algebra.Order.Ring.Nat

/-!
# The pointer of `GetDataElement`

`GetDataElement` lets `data_` grow to `kMaxBufferSize` before it hands out a pointer to the bytes.
The block stays where it is as long as nobody asks for exactly that many bytes again.
-/

namespace ThreadIpc.ByteStore
open Lib
open Serialization (Conversion)
open Serialization.Serializer (utf8String)

def Platform.doublings : Platform → Nat
  | .android => 15
  | .other => 20

def MemoryBuffer.Grown (platform : Platform) (buffer : MemoryBuffer) : Prop :=
  buffer.capacity = 0 ∨ ∃ doublings ≤ platform.doublings, buffer.capacity = 2 ^ doublings

structure State.Roomy (platform : Platform) (state : State) : Prop where
  grown : state.data.Grown platform
  whole : state.preserveData = true → state.data.capacity = platform.kMaxBufferSize

/-- The block that was handed out is still there, and so are its bytes. -/
structure Pinned (handed state : State) : Prop where
  block : state.data.reallocations = handed.data.reallocations
  capacity : state.data.capacity = handed.data.capacity
  cells : handed.data.cells <+: state.data.cells

/-- In memory the buffer is not asked for exactly `kMaxBufferSize` bytes; their number is known. -/
def State.Spares (platform : Platform) (length : Int) (state : State) : Prop :=
  state.isUsingData → length + state.data.size ≤ maxInt64 ∧
    length + state.data.size ≠ platform.kMaxBufferSize

def Action.Spares (conversion : Conversion) (platform : Platform) (state : State) : Action → Prop
  | .addData _ _ length => 0 < length → state.Spares platform length
  | .addDataDirect _ maxLength => 0 ≤ maxLength → state.Spares platform maxLength
  | .addString _ data =>
      utf8String conversion data ≠ [] → state.Spares platform (utf8String conversion data).length
  | .reserve _ length => state.isUsingData → length ≠ platform.kMaxBufferSize
  | .getDataElement | .createBlob | .read .. | .readDirect .. | .finalize => True

def Run.Pins (handed : State) (run : Run) : Prop :=
  ∃ state, run.store = some state ∧ Pinned handed state

def Spilled (before after : State) : Prop :=
  after.preserveData = before.preserveData ∧
    (after.data = before.data ∨ before.preserveData = false ∧ after.data = before.data.clear)

def Asked (num : Int) (before after : State) : Prop :=
  after.preserveData = before.preserveData ∧ ∃ last ≤ num, ∃ cells, before.data.cells <+: cells ∧
    after.data = { (before.data.reserve num).reserve last with cells }

structure Continues (platform : Platform) (before after : State) : Prop where
  roomy : before.Roomy platform → after.Roomy platform
  preserved : before.preserveData = true → after.preserveData = true

def Effect (platform : Platform) (num : Int) (before after : State) : Prop :=
  if before.isUsingData ∧ num ≤ platform.kMaxBufferSize then Asked num before after
  else Spilled before after

section
variable {conversion : Conversion} {platform : Platform} {buffer : MemoryBuffer} {num : Int}
  {before middle after handed state : State}

theorem Platform.kMaxBufferSize_eq (platform : Platform) :
    platform.kMaxBufferSize = 2 ^ platform.doublings := by
  cases platform <;> rfl

theorem reserve_of_lt (room : num < buffer.capacity) : buffer.reserve num = buffer := by
  rw [MemoryBuffer.reserve, if_pos room]

theorem reserve_reallocates (full : buffer.capacity ≤ num) :
    (buffer.reserve num).reallocations = buffer.reallocations + 1 := by
  rw [MemoryBuffer.reserve, if_neg (Int.not_lt.mpr full)]

theorem reserve_reallocations (num : Int) (buffer : MemoryBuffer) :
    buffer.reallocations ≤ (buffer.reserve num).reallocations := by
  rcases lt_or_ge num buffer.capacity with room | full
  · rw [reserve_of_lt room]
  · rw [reserve_reallocates full]
    exact Nat.le_succ _

theorem reserve_withCells (num : Int) (cells : List Cell) (buffer : MemoryBuffer) :
    { buffer with cells }.reserve num = { buffer.reserve num with cells } := by
  rw [MemoryBuffer.reserve, MemoryBuffer.reserve]
  split <;> rfl

theorem doubled_power {limit : Nat} (num_le : num ≤ (2 ^ limit : Nat)) (times : Nat) {doublings : Nat}
    (doublings_le : doublings ≤ limit) : ∃ more ≤ limit,
      MemoryBuffer.doubled num times (2 ^ doublings) = 2 ^ more ∧
        (limit ≤ doublings + times → num ≤ (2 ^ more : Nat)) := by
  induction times generalizing doublings with
  | zero =>
      refine ⟨doublings, doublings_le, rfl, ?_⟩
      intro enough
      rw [Nat.le_antisymm doublings_le enough]
      exact num_le
  | succ times ih =>
      rw [MemoryBuffer.doubled]
      split
      · rename_i small
        have room : doublings < limit := by
          apply Nat.lt_of_le_of_ne doublings_le
          intro last
          rw [last] at small
          exact absurd small (Int.not_lt.mpr num_le)
        obtain ⟨more, more_le, power, enough⟩ := ih room
        refine ⟨more, more_le, power, ?_⟩
        intro steps
        exact enough (by omega)
      · rename_i large
        exact ⟨doublings, doublings_le, rfl, fun _ => Int.not_lt.mp large⟩

theorem reserve_power (grown : buffer.Grown platform) (num_le : num ≤ platform.kMaxBufferSize)
    (full : buffer.capacity ≤ num) : ∃ more ≤ platform.doublings,
      (buffer.reserve num).capacity = 2 ^ more ∧ num ≤ (2 ^ more : Nat) := by
  rw [platform.kMaxBufferSize_eq] at num_le
  rw [MemoryBuffer.reserve, if_neg (Int.not_lt.mpr full)]
  have few : platform.doublings ≤ 63 := by cases platform <;> decide
  have start : ∃ doublings ≤ platform.doublings,
      (if buffer.capacity = 0 then MemoryBuffer.gInitialCapacity else buffer.capacity) =
        2 ^ doublings := by
    rcases grown with nothing | ⟨doublings, doublings_le, power⟩
    · refine ⟨4, by cases platform <;> decide, ?_⟩
      rw [if_pos nothing]
      rfl
    · refine ⟨doublings, doublings_le, ?_⟩
      rw [power, if_neg (Nat.two_pow_pos doublings).ne']
  obtain ⟨doublings, doublings_le, power⟩ := start
  obtain ⟨more, more_le, doubled, enough⟩ := doubled_power num_le 63 doublings_le
  refine ⟨more, more_le, ?_, enough (by omega)⟩
  simp only
  rw [power, doubled]

theorem reserve_grown (grown : buffer.Grown platform) (num_le : num ≤ platform.kMaxBufferSize) :
    (buffer.reserve num).Grown platform := by
  rcases lt_or_ge num buffer.capacity with room | full
  · rw [reserve_of_lt room]
    exact grown
  · obtain ⟨more, more_le, power, _⟩ := reserve_power grown num_le full
    exact .inr ⟨more, more_le, power⟩

theorem MemoryBuffer.Grown.capacity_le (grown : buffer.Grown platform) :
    buffer.capacity ≤ platform.kMaxBufferSize := by
  rw [platform.kMaxBufferSize_eq]
  rcases grown with nothing | ⟨doublings, doublings_le, power⟩
  · rw [nothing]
    exact Nat.zero_le _
  · rw [power]
    exact Nat.pow_le_pow_right (by decide) doublings_le

theorem reserve_whole (grown : buffer.Grown platform) :
    (buffer.reserve platform.kMaxBufferSize).capacity = platform.kMaxBufferSize := by
  have full : (buffer.capacity : Int) ≤ platform.kMaxBufferSize :=
    Int.ofNat_le.mpr grown.capacity_le
  obtain ⟨more, more_le, power, enough⟩ := reserve_power grown (Int.le_refl _) full
  rw [power]
  apply Nat.le_antisymm
  · rw [platform.kMaxBufferSize_eq]
    exact Nat.pow_le_pow_right (by decide) more_le
  · exact Int.ofNat_le.mp enough

theorem reserve_keepsWhole (whole : buffer.capacity = platform.kMaxBufferSize)
    (num_le : num ≤ platform.kMaxBufferSize) :
    (buffer.reserve num).capacity = platform.kMaxBufferSize := by
  rcases lt_or_ge num buffer.capacity with room | full
  · rw [reserve_of_lt room, whole]
  · have all : num = platform.kMaxBufferSize := by omega
    have grown : buffer.Grown platform :=
      .inr ⟨_, Nat.le_refl _, whole.trans platform.kMaxBufferSize_eq⟩
    rw [all, reserve_whole grown]

theorem Spilled.refl (state : State) : Spilled state state := ⟨rfl, .inl rfl⟩

theorem Spilled.trans (first : Spilled before middle) (second : Spilled middle after) :
    Spilled before after := by
  obtain ⟨preserve, same | ⟨free, cleared⟩⟩ := first
  · obtain ⟨preserve', same' | ⟨free', cleared'⟩⟩ := second
    · exact ⟨preserve'.trans preserve, .inl (same'.trans same)⟩
    · refine ⟨preserve'.trans preserve, .inr ⟨preserve.symm.trans free', ?_⟩⟩
      rw [cleared', same]
  · obtain ⟨preserve', same' | ⟨_, cleared'⟩⟩ := second
    · exact ⟨preserve'.trans preserve, .inr ⟨free, same'.trans cleared⟩⟩
    · refine ⟨preserve'.trans preserve, .inr ⟨free, ?_⟩⟩
      rw [cleared', cleared]
      rfl

theorem asked_once {cells : List Cell} (preserve : after.preserveData = before.preserveData)
    (kept : before.data.cells <+: cells) (data : after.data = { before.data.reserve num with cells }) :
    Asked num before after := by
  refine ⟨preserve, min num (-1), min_le_left _ _, cells, kept, ?_⟩
  rw [reserve_of_lt (by omega), data]

theorem Spilled.continues (spilled : Spilled before after) : Continues platform before after := by
  obtain ⟨preserve, same | ⟨_, cleared⟩⟩ := spilled
  · constructor
    · intro roomy
      constructor
      · rw [same]
        exact roomy.grown
      · rw [preserve, same]
        exact roomy.whole
    · exact preserve.trans
  · constructor
    · intro roomy
      constructor
      · rw [cleared]
        exact roomy.grown
      · rw [preserve, cleared]
        exact roomy.whole
    · exact preserve.trans

theorem Asked.continues (asked : Asked num before after) (num_le : num ≤ platform.kMaxBufferSize) :
    Continues platform before after := by
  obtain ⟨preserve, last, last_le, cells, _, data⟩ := asked
  constructor
  · intro roomy
    constructor
    · rw [data]
      exact reserve_grown (reserve_grown roomy.grown num_le) (last_le.trans num_le)
    · intro preserved
      rw [preserve] at preserved
      rw [data]
      exact reserve_keepsWhole (reserve_keepsWhole (roomy.whole preserved) num_le)
        (last_le.trans num_le)
  · exact preserve.trans

theorem Effect.continues (effect : Effect platform num before after) :
    Continues platform before after := by
  rw [Effect] at effect
  split at effect
  · rename_i asks
    exact effect.continues asks.2
  · exact effect.continues

theorem Spilled.pinned (spilled : Spilled before after) (preserved : before.preserveData = true)
    (pinned : Pinned handed before) : Pinned handed after := by
  obtain ⟨_, same | ⟨free, _⟩⟩ := spilled
  · constructor
    · rw [same]
      exact pinned.block
    · rw [same]
      exact pinned.capacity
    · rw [same]
      exact pinned.cells
  · exact absurd (preserved.symm.trans free) Bool.noConfusion

theorem Asked.pinned_iff (asked : Asked num before after) (num_le : num ≤ platform.kMaxBufferSize)
    (whole : before.data.capacity = platform.kMaxBufferSize) (pinned : Pinned handed before) :
    Pinned handed after ↔ num ≠ platform.kMaxBufferSize := by
  obtain ⟨_, last, last_le, cells, kept, data⟩ := asked
  constructor
  · intro still all
    have moved : before.data.reallocations + 1 ≤ after.data.reallocations := by
      have full : (before.data.capacity : Int) ≤ num := by omega
      rw [data, ← reserve_reallocates full]
      exact reserve_reallocations _ _
    rw [still.block, pinned.block] at moved
    exact Nat.not_succ_le_self _ moved
  · intro fewer
    have room : num < before.data.capacity := by omega
    rw [reserve_of_lt room, reserve_of_lt (last_le.trans_lt room)] at data
    constructor
    · rw [data]
      exact pinned.block
    · rw [data]
      exact pinned.capacity
    · rw [data]
      exact pinned.cells.trans kept

theorem Effect.pinned_iff (effect : Effect platform num before after)
    (roomy : before.Roomy platform) (preserved : before.preserveData = true)
    (pinned : Pinned handed before) :
    Pinned handed after ↔ (before.isUsingData → num ≠ platform.kMaxBufferSize) := by
  rw [Effect] at effect
  split at effect
  · rename_i asks
    rw [effect.pinned_iff asks.2 (roomy.whole preserved) pinned]
    simp [asks.1]
  · rename_i past
    constructor
    · rintro _ inMemory rfl
      exact past ⟨inMemory, Int.le_refl _⟩
    · intro _
      exact effect.pinned preserved pinned

theorem Filed.spilled (filed : Filed before after) : Spilled before after :=
  ⟨filed.preserveData, filed.data⟩

theorem addToFile_spills (writer : List WriterCall) (maxLength bufferSize : Nat) (state : State) :
    Spilled state (state.addToFile writer maxLength bufferSize).1 := by
  induction writer generalizing state maxLength bufferSize with
  | nil => exact .refl _
  | cons call writer ih =>
      rw [State.addToFile]
      split
      · exact .refl _
      · split
        · exact (addDataToFile_filed call.disk [] state).spilled.trans ⟨rfl, .inl rfl⟩
        · rename_i offered _
          simp only
          split
          · exact .refl _
          · generalize offered.take bufferSize = bytes
            have copied : Spilled state
                { state with writeBuffer := state.writeBuffer.write 0 (bytes.map some) } :=
              ⟨rfl, .inl rfl⟩
            have added := copied.trans (addDataToFile_filed call.disk
              ((state.writeBuffer.write 0 (bytes.map some)).cells.take bytes.length) _).spilled
            split
            · rename_i failed
              rw [failed] at added
              exact added
            · rename_i succeeded
              rw [succeeded] at added
              exact added.trans (ih _ _ _)

theorem resize_cuts {offset : Nat} (maxLength : Nat) (offset_le : offset ≤ buffer.size) :
    ∃ last : Int, last ≤ offset + maxLength ∧ ∃ cells, buffer.cells.take offset <+: cells ∧
      buffer.resize offset = { buffer.reserve last with cells } :=
  ⟨offset, by omega, _, (padded_of_le offset_le).symm ▸ List.prefix_rfl, rfl⟩

theorem addToData_cuts (writer : List WriterCall) {offset : Nat} (maxLength : Nat) (state : State)
    (offset_le : offset ≤ state.data.size) :
    let after := (state.addToData writer offset maxLength).1
    after.preserveData = state.preserveData ∧ ∃ last : Int, last ≤ offset + maxLength ∧
      ∃ cells, state.data.cells.take offset <+: cells ∧
        after.data = { state.data.reserve last with cells } := by
  induction writer generalizing offset maxLength state with
  | nil => exact ⟨rfl, resize_cuts _ offset_le⟩
  | cons call writer ih =>
      rw [State.addToData]
      split
      · exact ⟨rfl, resize_cuts _ offset_le⟩
      · split
        · refine ⟨rfl, -1, by omega, state.data.cells, List.take_prefix _ _, ?_⟩
          rw [reserve_of_lt (by omega)]
        · rename_i offered _
          simp only
          split
          · exact ⟨rfl, resize_cuts _ offset_le⟩
          · generalize chunk : offered.take maxLength = bytes
            have taken : bytes.length ≤ maxLength := chunk ▸ List.length_take_le _ _
            generalize filled : state.data.write offset (bytes.map some) = data
            have written : data.cells = state.data.cells.take offset ++ bytes.map some ++
                state.data.cells.drop (offset + (bytes.map some : List Cell).length) := by
              rw [← filled, MemoryBuffer.write, overwrite, padded_of_le offset_le]
            have offset_le : offset + bytes.length ≤ data.size := by
              rw [MemoryBuffer.size, written]
              simp only [List.length_append, List.length_take, List.length_map]
              have inside : offset ≤ state.data.cells.length := offset_le
              omega
            obtain ⟨preserve, last, last_le, cells, kept, cut⟩ := ih (maxLength - bytes.length)
              { state with data, length := state.length + bytes.length } offset_le
            refine ⟨preserve, last, by omega, cells, ?_, ?_⟩
            · refine List.IsPrefix.trans ?_ kept
              rw [List.prefix_take_iff, written, List.append_assoc]
              exact ⟨List.prefix_append _ _, (List.length_take_le _ _).trans (Nat.le_add_right _ _)⟩
            · rw [cut, ← filled, MemoryBuffer.write, reserve_withCells]

theorem addData_effect {disk : Disk} {data : Nat → UInt8} {length : Int} {success : Bool}
    (positive : 0 < length)
    (done : before.addData platform disk data length = some (after, success)) :
    Effect platform (length + before.data.size) before after := by
  rw [State.addData, if_neg (by omega), if_neg positive.ne'] at done
  simp only at done
  have spilled := (addDataToFile_filed disk ((State.bytesAt data length).map some) before).spilled
  rw [Effect]
  split at done
  · rename_i inMemory
    split at done
    · contradiction
    · split at done
      · rename_i room
        cases done
        rw [if_pos ⟨inMemory, room⟩]
        refine asked_once rfl
          (List.prefix_append before.data.cells ((State.bytesAt data length).map some)) ?_
        have count : (State.bytesAt data length).length = length.toNat := by
          rw [State.bytesAt, List.length_map, List.length_range]
        have total : ((before.data.size + (State.bytesAt data length).length : Nat) : Int) =
            length + before.data.size := by omega
        rw [MemoryBuffer.append, List.length_map, ← total]
        rfl
      · rename_i full
        rw [if_neg (fun asks => full asks.2)]
        rw [Option.some.inj done] at spilled
        exact spilled
  · rename_i inFile
    rw [if_neg (fun asks => inFile asks.1)]
    rw [Option.some.inj done] at spilled
    exact spilled

theorem addDataDirect_effect {writer : List WriterCall} {maxLength : Int} {result : DirectAdd}
    (nonneg : 0 ≤ maxLength)
    (done : before.addDataDirect platform writer maxLength = some (after, result)) :
    Effect platform (maxLength + before.data.size) before after := by
  rw [State.addDataDirect, if_neg (Int.not_lt.mpr nonneg)] at done
  simp only at done
  have spilled (writeBuffer : MemoryBuffer) (bufferSize : Nat) : Spilled before
      (State.addToFile writer maxLength.toNat bufferSize { before with writeBuffer }).1 :=
    Spilled.trans ⟨rfl, .inl rfl⟩ (addToFile_spills writer _ _ _)
  rw [Effect]
  split at done
  · rename_i inMemory
    split at done
    · contradiction
    · split at done
      · rename_i room
        rw [if_pos ⟨inMemory, room⟩]
        have total : ((before.data.size + maxLength.toNat : Nat) : Int) =
            maxLength + before.data.size := by omega
        have kept : before.data.cells <+:
            (before.data.resize (before.data.size + maxLength.toNat)).cells := prefix_padded _
        have inside : before.data.size ≤
            (before.data.resize (before.data.size + maxLength.toNat)).size := kept.length_le
        obtain ⟨preserve, last, last_le, cells, still, cut⟩ := addToData_cuts writer maxLength.toNat
          { before with data := before.data.resize (before.data.size + maxLength.toNat) } inside
        rw [Option.some.inj done] at preserve cut
        refine ⟨preserve, last, by omega, cells, ?_, ?_⟩
        · exact (List.prefix_take_iff.mpr ⟨kept, Nat.le_refl _⟩).trans still
        · rw [cut, MemoryBuffer.resize, reserve_withCells, total]
      · rename_i full
        rw [if_neg (fun asks => full asks.2)]
        show Spilled before (after, result).1
        rw [← Option.some.inj done]
        exact spilled _ _
  · rename_i inFile
    rw [if_neg (fun asks => inFile asks.1)]
    show Spilled before (after, result).1
    rw [← Option.some.inj done]
    exact spilled _ _

theorem reserve_effect (disk : Disk) (length : Int) (state : State) :
    Effect platform length state (state.reserve platform disk length) := by
  rw [State.reserve]
  split
  · rename_i inMemory
    split
    · rename_i past
      rw [Effect, if_neg (fun asks => Int.not_lt.mpr asks.2 past)]
      exact (addDataToFile_filed disk [] state).spilled
    · rename_i room
      rw [Effect, if_pos ⟨inMemory, Int.not_lt.mp room⟩]
      refine asked_once rfl List.prefix_rfl ?_
      rw [← reserve_cells length state.data]
  · rename_i inFile
    rw [Effect, if_neg (fun asks => inFile asks.1)]
    exact .refl _

theorem getDataElement_pins (preserved : before.preserveData = true) :
    (before.getDataElement platform).1 = before := by
  rw [State.getDataElement]
  simp [preserved]

theorem added_pinned_iff {α : Type} {length : Int} {result : Option (State × α)}
    (roomy : before.Roomy platform) (preserved : before.preserveData = true)
    (pinned : Pinned handed before) (defined : before.CanCount length → result ≠ none)
    (canCount : ∀ added, result = some added → before.CanCount length)
    (effect : ∀ after value, result = some (after, value) →
      Effect platform (length + before.data.size) before after) :
    (∃ after value, result = some (after, value) ∧ Pinned handed after) ↔
      before.Spares platform length := by
  constructor
  · rintro ⟨after, value, done, still⟩ inMemory
    refine ⟨canCount _ done inMemory, ?_⟩
    exact ((effect after value done).pinned_iff roomy preserved pinned).mp still inMemory
  · intro spares
    obtain ⟨⟨after, value⟩, done⟩ := Option.ne_none_iff_exists'.mp
      (defined fun inMemory => (spares inMemory).1)
    refine ⟨after, value, done, ?_⟩
    rw [(effect after value done).pinned_iff roomy preserved pinned]
    exact fun inMemory => (spares inMemory).2

theorem addData_pinned_iff (roomy : before.Roomy platform) (preserved : before.preserveData = true)
    (pinned : Pinned handed before) (disk : Disk) (data : Nat → UInt8) (length : Int) :
    (∃ after success, before.addData platform disk data length = some (after, success) ∧
      Pinned handed after) ↔ (0 < length → before.Spares platform length) := by
  rcases lt_or_ge 0 length with positive | nothing
  · rw [forall_prop_of_true positive]
    apply added_pinned_iff roomy preserved pinned
    · exact addData_defined
    · exact fun _ done => addData_canCount positive done
    · exact fun _ _ done => addData_effect positive done
  · rw [forall_prop_of_false (Int.not_lt.mpr nothing), iff_true, State.addData]
    split
    · exact ⟨before, false, rfl, pinned⟩
    · rw [if_pos (by omega)]
      exact ⟨before, true, rfl, pinned⟩

theorem addDataDirect_pinned_iff (roomy : before.Roomy platform)
    (preserved : before.preserveData = true) (pinned : Pinned handed before)
    (writer : List WriterCall) (maxLength : Int) :
    (∃ after result, before.addDataDirect platform writer maxLength = some (after, result) ∧
      Pinned handed after) ↔ (0 ≤ maxLength → before.Spares platform maxLength) := by
  rcases lt_or_ge maxLength 0 with negative | nonneg
  · rw [forall_prop_of_false (Int.not_le.mpr negative), iff_true, State.addDataDirect,
      if_pos negative]
    exact ⟨before, _, rfl, pinned⟩
  · rw [forall_prop_of_true nonneg]
    apply added_pinned_iff roomy preserved pinned
    · exact addDataDirect_defined
    · exact fun _ done => addDataDirect_canCount nonneg done
    · exact fun _ _ done => addDataDirect_effect nonneg done

theorem perform_pinned_iff (roomy : before.Roomy platform) (preserved : before.preserveData = true)
    (pinned : Pinned handed before) (action : Action) :
    (∃ after added, before.perform conversion platform action = some (after, added) ∧
      Pinned handed after) ↔ action.Spares conversion platform before := by
  have always {after : State} (spilled : Spilled before after) :
      (∃ later added, some (after, ([] : List UInt8)) = some (later, added) ∧ Pinned handed later) ↔
        True :=
    iff_true_intro ⟨after, [], rfl, spilled.pinned preserved pinned⟩
  have mapped {α : Type} {result : Option (State × α)} (added : State × α → List UInt8) :
      (∃ after bytes, result.map (fun result => (result.1, added result)) = some (after, bytes) ∧
        Pinned handed after) ↔ ∃ after value, result = some (after, value) ∧ Pinned handed after := by
    constructor
    · rintro ⟨after, bytes, performed, still⟩
      obtain ⟨⟨_, value⟩, done, moved⟩ := Option.map_eq_some_iff.mp performed
      cases moved
      exact ⟨_, value, done, still⟩
    · rintro ⟨after, value, done, still⟩
      rw [done]
      exact ⟨after, _, rfl, still⟩
  cases action with
  | addData disk data length =>
      exact (mapped _).trans (addData_pinned_iff roomy preserved pinned disk data length)
  | addDataDirect writer maxLength =>
      exact (mapped _).trans (addDataDirect_pinned_iff roomy preserved pinned writer maxLength)
  | addString disk data =>
      refine (mapped _).trans ((addData_pinned_iff roomy preserved pinned disk _ _).trans ?_)
      rw [Action.Spares, Int.natCast_pos, List.length_pos_iff]
  | reserve disk length =>
      have effect := @reserve_effect platform disk length before
      rw [Action.Spares, ← effect.pinned_iff roomy preserved pinned]
      simp [State.perform]
  | getDataElement =>
      rw [State.perform, getDataElement_pins preserved]
      exact always (.refl _)
  | createBlob => exact always (.refl _)
  | read offset maxLength => exact always (read_filed _ _ _).spilled
  | readDirect reader offset maxLength => exact always (readDirect_filed _ _ _ _).spilled
  | finalize => exact always ⟨rfl, .inl rfl⟩

theorem init_roomy : State.init.Roomy platform := ⟨.inl rfl, nofun⟩

theorem getDataElement_continues (state : State) :
    Continues platform state (state.getDataElement platform).1 := by
  rw [State.getDataElement]
  simp only
  split
  · constructor
    · intro roomy
      exact ⟨reserve_grown roomy.grown (Int.le_refl _), fun _ => reserve_whole roomy.grown⟩
    · exact fun _ => rfl
  · exact (Spilled.refl _).continues

theorem perform_continues {action : Action} {added : List UInt8}
    (performed : before.perform conversion platform action = some (after, added)) :
    Continues platform before after := by
  have adds {disk : Disk} {data : Nat → UInt8} {length : Int} {later : State} {success : Bool}
      (done : before.addData platform disk data length = some (later, success)) :
      Continues platform before later := by
    rcases lt_or_ge 0 length with positive | nothing
    · exact (addData_effect positive done).continues
    · rw [State.addData] at done
      split at done
      · cases done
        exact (Spilled.refl _).continues
      · rw [if_pos (by omega)] at done
        cases done
        exact (Spilled.refl _).continues
  cases action with
  | addData disk data length =>
      obtain ⟨⟨_, success⟩, done, moved⟩ := Option.map_eq_some_iff.mp performed
      cases moved
      exact adds done
  | addDataDirect writer maxLength =>
      obtain ⟨⟨_, result⟩, done, moved⟩ := Option.map_eq_some_iff.mp performed
      cases moved
      rcases lt_or_ge maxLength 0 with negative | nonneg
      · rw [State.addDataDirect, if_pos negative] at done
        cases done
        exact (Spilled.refl _).continues
      · exact (addDataDirect_effect nonneg done).continues
  | addString disk data =>
      obtain ⟨⟨_, success⟩, done, moved⟩ := Option.map_eq_some_iff.mp performed
      cases moved
      exact adds done
  | reserve disk length =>
      cases performed
      exact (reserve_effect disk length before).continues
  | getDataElement =>
      cases performed
      exact getDataElement_continues before
  | createBlob =>
      cases performed
      exact (Spilled.refl _).continues
  | read offset maxLength =>
      cases performed
      exact (read_filed offset maxLength before).spilled.continues
  | readDirect reader offset maxLength =>
      cases performed
      exact (readDirect_filed reader offset maxLength before).spilled.continues
  | finalize =>
      cases performed
      exact Spilled.continues ⟨rfl, .inl rfl⟩

theorem reachable_roomy {run : Run}
    (reach : Lib.Reachable (step conversion platform) Lib.anyAction .init run) :
    ∀ state ∈ run.store, state.Roomy platform := by
  apply Lib.Reachable.invariant _ _ reach
  · rintro _ ⟨⟩
    exact init_roomy
  · rintro before action after roomy _ moved
    obtain ⟨store, present, rfl⟩ := Option.map_eq_some_iff.mp moved
    split
    · exact nofun
    · rename_i performed
      rintro _ ⟨⟩
      exact (perform_continues performed).roomy (roomy store present)

/-- The bytes behind the pointer stay where they are up to the first step that asks for all. -/
theorem handed_pinned_iff {store handed : State} {content : List UInt8}
    (reach : Lib.Reachable (step conversion platform) Lib.anyAction .init ⟨some store, content⟩)
    (inMemory : store.isUsingData = true) (handsOut : (store.getDataElement platform).1 = handed)
    (preserved : handed.preserveData = true) :
    (store.getDataElement platform).2 = .bytes handed.data.cells ∧
      ∀ run, Lib.Reachable (step conversion platform) (fun run action =>
          ∀ state ∈ run.store, action.Spares conversion platform state)
        ⟨some handed, content⟩ run →
      run.Pins handed ∧ ∀ action after, step conversion platform run action = some after →
        (after.Pins handed ↔ ∀ state ∈ run.store, action.Spares conversion platform state) := by
  have start : handed.Roomy platform :=
    handsOut ▸ (getDataElement_continues store).roomy (reachable_roomy reach store rfl)
  refine ⟨?_, ?_⟩
  · have still : handed.file = none := by
      rw [← handsOut, State.getDataElement, ← Option.isNone_iff_eq_none.mp inMemory]
      simp only
      split <;> rfl
    rw [← handsOut] at still ⊢
    exact if_pos (Option.isNone_iff_eq_none.mpr still)
  · intro run later
    have moves {run after : Run} {action : Action} {state : State} (present : run.store = some state)
        (moved : step conversion platform run action = some after) : after.Pins handed ↔
          ∃ next added, state.perform conversion platform action = some (next, added) ∧
            Pinned handed next := by
      rw [step, present, Option.map_some, Option.some.injEq] at moved
      rw [Run.Pins, ← moved]
      split
      · rename_i nothing
        rw [nothing]
        simp
      · rename_i next added performed
        rw [performed]
        simp
    have stays : ∃ state, run.store = some state ∧ Pinned handed state ∧ state.Roomy platform ∧
        state.preserveData = true := by
      induction later with
      | start => exact ⟨handed, rfl, ⟨rfl, rfl, List.prefix_rfl⟩, start, preserved⟩
      | next _ spares moved ih =>
          obtain ⟨state, present, pinned, roomy, kept⟩ := ih
          obtain ⟨next, added, performed, still⟩ :=
            (perform_pinned_iff roomy kept pinned _).mpr (spares state present)
          rw [step, present, Option.map_some, performed] at moved
          cases moved
          have continues := perform_continues performed
          exact ⟨next, rfl, still, continues.roomy roomy, continues.preserved kept⟩
    obtain ⟨state, present, pinned, roomy, kept⟩ := stays
    refine ⟨⟨state, present, pinned⟩, ?_⟩
    intro action after moved
    rw [moves present moved, perform_pinned_iff roomy kept pinned action, present]
    simp

end

instance (platform : Platform) (length : Int) (state : State) :
    Decidable (state.Spares platform length) :=
  inferInstanceAs (Decidable (state.isUsingData → _ ∧ _))

instance (conversion : Conversion) (platform : Platform) (state : State) (action : Action) :
    Decidable (action.Spares conversion platform state) :=
  match action with
  | .addData _ _ length => inferInstanceAs (Decidable (0 < length → State.Spares platform length state))
  | .addDataDirect _ maxLength =>
      inferInstanceAs (Decidable (0 ≤ maxLength → State.Spares platform maxLength state))
  | .addString _ data => inferInstanceAs (Decidable (utf8String conversion data ≠ [] →
      State.Spares platform (utf8String conversion data).length state))
  | .reserve _ length =>
      inferInstanceAs (Decidable (state.isUsingData → length ≠ platform.kMaxBufferSize))
  | .getDataElement | .createBlob | .read .. | .readDirect .. | .finalize =>
      inferInstanceAs (Decidable True)

def threeBytes : Run :=
  Lib.final (step ascii .android) Lib.anyAction .init [.addString goodDisk [97, 98, 99]] (by decide)

def handedOut : State := ((threeBytes.store.getD .init).getDataElement .android).1

def growing : List Action :=
  [.addData goodDisk (fun _ => 7) 5, .reserve goodDisk 32767,
    .addDataDirect [⟨some [1, 2], goodDisk⟩] 9, .addData goodDisk (fun _ => 6) 0, .getDataElement,
    .reserve goodDisk 32769, .addString goodDisk [100]]

def grownLater : Run :=
  Lib.final (step ascii .android)
    (fun run action => ∀ state ∈ run.store, action.Spares ascii .android state)
    ⟨some handedOut, threeBytes.content⟩ growing (by decide +kernel)

theorem handed_pinned_grown : grownLater.content = [97, 98, 99, 7, 7, 7, 7, 7, 1, 2, 100] ∧
    grownLater.Pins handedOut ∧ ∀ action after, step ascii .android grownLater action = some after →
      (after.Pins handedOut ↔ ∀ state ∈ grownLater.store, action.Spares ascii .android state) := by
  have reached : Lib.Reachable (step ascii .android) Lib.anyAction .init threeBytes :=
    Lib.reachable_final _ _
  have reach : Lib.Reachable (step ascii .android) Lib.anyAction .init
      ⟨some (threeBytes.store.getD .init), threeBytes.content⟩ := reached
  have later : Lib.Reachable (step ascii .android)
      (fun run action => ∀ state ∈ run.store, action.Spares ascii .android state)
      ⟨some handedOut, threeBytes.content⟩ grownLater :=
    Lib.reachable_final growing (by decide +kernel)
  have pinned := handed_pinned_iff reach (by decide +kernel) rfl (by decide +kernel)
  exact ⟨by decide +kernel, pinned.2 grownLater later⟩

def askedForAll : Run :=
  Lib.final (step ascii .android) Lib.anyAction ⟨some handedOut, threeBytes.content⟩
    [.reserve goodDisk 32768] (by decide)

/-- `Reserve` asks for as much as `GetDataElement` has reserved. -/
theorem handed_moved :
    Lib.Reachable (step ascii .android) Lib.anyAction .init threeBytes ∧
      (∃ store, threeBytes.store = some store ∧ store.isUsingData = true ∧
        (store.getDataElement .android).1 = handedOut ∧ handedOut.preserveData = true) ∧
      Lib.Reachable (step ascii .android) Lib.anyAction ⟨some handedOut, threeBytes.content⟩
        askedForAll ∧ ¬ askedForAll.Pins handedOut := by
  refine ⟨Lib.reachable_final _ _, ⟨_, by decide, by decide, rfl, by decide⟩,
    Lib.reachable_final _ _, ?_⟩
  rintro ⟨state, present, pinned⟩
  have moved : askedForAll.store.map (·.data.reallocations) ≠
      some handedOut.data.reallocations := by decide
  rw [present] at moved
  exact moved (congrArg some pinned.block)

end ThreadIpc.ByteStore
