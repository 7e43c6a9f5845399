import ThreadIpc.CircularBuffer.Spec
import ThreadIpc.Lib.BlockQueue

/-!
# `CircularBuffer` as a bounded queue

A circular buffer with the bytes of its block behaves as the bounded queue of the bytes from head to
tail, whatever calls are made on it.
-/

namespace ThreadIpc.CircularBuffer

open Lib
open Lib.BlockQueue (Command Result)

structure Block where
  buf : CircularBuffer
  bytes : Nat → UInt8

def Block.perform (block : Block) : Command UInt8 → Except BufferFault (Result UInt8 × Block)
  | .write data => do
      let (buf, stores) ← block.buf.write data
      .ok (⟨min data.length block.buf.spaceAvailable, []⟩,
        ⟨buf, Ring.storeAll block.bytes stores⟩)
  | .read size => do
      let (buf, data) ← block.buf.read block.bytes size
      .ok (⟨min size block.buf.dataAvailable, data⟩, { block with buf := buf })
  | .peek size => do
      let (buf, data) ← block.buf.peek block.bytes size
      .ok (⟨min size block.buf.dataAvailable, data⟩, { block with buf := buf })
  | .advanceHead amt => do
      let (count, buf) ← block.buf.advanceHead amt
      .ok (⟨count, []⟩, { block with buf := buf })
  | .advanceTail amt => do
      let (count, buf) ← block.buf.advanceTail amt
      .ok (⟨count, []⟩, { block with buf := buf })

structure Represents {size : Nat} (block : Block) (queue : BlockQueue UInt8 size) : Prop where
  valid : block.buf.Valid
  bufSize : block.buf.bufSize = size
  available : block.buf.dataAvailable = queue.queued.length
  cells : Ring.slice block.bytes size block.buf.head size = queue.queued ++ queue.rest

namespace Represents
variable {size : Nat} {block : Block} {queue : BlockQueue UInt8 size}

theorem space (same : Represents block queue) : block.buf.spaceAvailable = queue.space := by
  have total := same.valid.available_add
  have capacity := same.valid.capacity
  have length := queue.length
  have room := queue.space_lt
  have available := same.available
  have bufSize := same.bufSize
  have queueTotal := queue.capacity
  omega

theorem queued (same : Represents block queue) :
    Ring.slice block.bytes size block.buf.head queue.queued.length = queue.queued :=
  (Ring.eq_of_slice_append same.cells).1

theorem rest (same : Represents block queue) :
    Ring.slice block.bytes size block.buf.tail queue.rest.length = queue.rest := by
  have tail := same.valid.tail_eq
  rw [same.available, same.bufSize] at tail
  rw [tail, Ring.slice_mod]
  exact (Ring.eq_of_slice_append same.cells).2

theorem pos (same : Represents block queue) : 0 < size :=
  same.bufSize ▸ Nat.zero_lt_of_lt same.valid.head

theorem advanceHead (same : Represents block queue) {amount : Nat}
    (available : amount ≤ queue.queued.length) :
    Represents { block with
      buf := { block.buf with head := (block.buf.head + amount) % block.buf.bufSize } }
      (queue.advanceHead amount) := by
  have capacity := queue.length
  obtain ⟨valid, available'⟩ := same.valid.after_read (same.available ▸ available)
  refine ⟨valid, same.bufSize, ?_, ?_⟩
  · rw [available', same.available]
    simp only [BlockQueue.advanceHead, List.length_drop]
  · have first : Ring.slice block.bytes size block.buf.head amount = queue.queued.take amount := by
      rw [← Ring.take_slice available, same.queued]
    have whole : Ring.slice block.bytes size (block.buf.head + amount) (size - amount) =
        queue.queued.drop amount ++ queue.rest := by
      rw [← Ring.drop_slice (by omega), same.cells, List.drop_append_of_le_length available]
    simp only [BlockQueue.advanceHead, same.bufSize, Ring.slice_mod]
    rw [Ring.slice_rotate (by omega), first, whole, List.append_assoc]

theorem moveTail (same : Represents block queue) {after : BlockQueue UInt8 size}
    {bytes : Nat → UInt8} {count : Nat} (room : count ≤ queue.space)
    (length : after.queued.length = queue.queued.length + count)
    (cells : Ring.slice bytes size block.buf.head size = after.queued ++ after.rest) :
    Represents ⟨{ block.buf with tail := (block.buf.tail + count) % block.buf.bufSize }, bytes⟩
      after := by
  have fits : count ≤ block.buf.spaceAvailable := same.space ▸ room
  obtain ⟨valid, _⟩ := same.valid.after_write fits
  refine ⟨valid, same.bufSize, ?_, cells⟩
  have small : after.queued.length < block.buf.bufSize := by
    have total := queue.capacity
    have pos := same.pos
    rw [same.bufSize, length]
    omega
  refine dataAvailable_of_tail valid small ?_
  rw [length]
  simp only [same.valid.tail_eq, same.available, Nat.mod_add_mod, Nat.add_assoc]

theorem read (same : Represents block queue) (size' : Nat) :
    block.buf.read block.bytes size' =
      .ok ({ block.buf with head :=
        (block.buf.head + min size' queue.queued.length) % block.buf.bufSize },
        queue.queued.take size') := by
  have data : Ring.slice block.bytes size block.buf.head (min size' queue.queued.length) =
      queue.queued.take size' := by
    rw [← Ring.take_slice (min_le_right _ _), same.queued, ← List.take_eq_take_min]
  rw [same.valid.read_min, same.available]
  simp only [same.bufSize, data]

theorem write (same : Represents block queue) (data : List UInt8) :
    block.buf.write data =
      .ok ({ block.buf with tail :=
        (block.buf.tail + min data.length queue.space) % block.buf.bufSize },
        Ring.stores size block.buf.tail (data.take queue.space)) := by
  have fits : (data.take queue.space).length ≤ block.buf.spaceAvailable := by
    rw [same.space, List.length_take]
    exact min_le_left _ _
  have written := same.valid.write_eq fits
  have length : (data.take queue.space).length = min data.length queue.space := by
    rw [List.length_take, min_comm]
  have again : (data.take queue.space).take
      (min (data.take queue.space).length block.buf.spaceAvailable) =
        data.take (min data.length block.buf.spaceAvailable) := by
    rw [same.space, length, List.take_take]
    congr 1
    omega
  rw [CircularBuffer.write, again, length] at written
  rw [CircularBuffer.write, written]
  simp only [same.bufSize]

theorem filled (same : Represents block queue) (data : List UInt8) :
    Ring.slice (Ring.storeAll block.bytes
      (Ring.stores size block.buf.tail (data.take queue.space))) size block.buf.head size =
        (queue.write data).queued ++ (queue.write data).rest := by
  have capacity := queue.length
  have room := queue.space_lt
  have length : (data.take queue.space).length = min data.length queue.space := by
    rw [List.length_take, min_comm]
  have tail := same.valid.tail_eq
  rw [same.available, same.bufSize] at tail
  have left : Ring.slice block.bytes size
      (block.buf.head + queue.queued.length + (data.take queue.space).length)
      (size - queue.queued.length - (data.take queue.space).length) =
        queue.rest.drop (min data.length queue.space) := by
    have rest := same.rest
    rw [tail, Ring.slice_mod] at rest
    rw [length, ← rest, Ring.drop_slice (by omega)]
    congr 1
    omega
  rw [tail, Ring.stores_mod, Ring.slice_storeAll_after (by omega), same.queued, left]
  simp only [BlockQueue.write, List.append_assoc]

theorem perform (same : Represents block queue) (command : Command UInt8) :
    ∃ next, block.perform command = .ok ((queue.perform command).1, next) ∧
      Represents next (queue.perform command).2 ∧
      ∀ amount, command = .peek amount → next = block := by
  have pos := same.valid.head
  cases command with
  | write data =>
      have length : (queue.write data).queued.length =
          queue.queued.length + min data.length queue.space := by
        simp [BlockQueue.write, min_comm]
      have moved := same.moveTail (min_le_right _ _) length (same.filled data)
      refine ⟨_, ?_, moved, fun _ peeks => by cases peeks⟩
      simp only [Block.perform, same.write, bind, Except.bind, same.space, BlockQueue.perform]
  | read amount =>
      have moved := same.advanceHead (min_le_right amount queue.queued.length)
      rw [queue.advanceHead_min] at moved
      refine ⟨_, ?_, moved, fun _ peeks => by cases peeks⟩
      simp only [Block.perform, same.read, bind, Except.bind, same.available, BlockQueue.perform]
  | peek amount =>
      refine ⟨block, ?_, same, fun _ _ => rfl⟩
      simp only [Block.perform, CircularBuffer.peek, same.read, bind, Except.bind, same.available,
        BlockQueue.perform]
  | advanceHead amount =>
      have moved := same.advanceHead (min_le_right amount queue.queued.length)
      rw [queue.advanceHead_min] at moved
      refine ⟨_, ?_, moved, fun _ peeks => by cases peeks⟩
      simp only [Block.perform, CircularBuffer.advanceHead, same.available,
        modulo_of_pos _ (Nat.zero_lt_of_lt pos), bind, Except.bind, BlockQueue.perform]
  | advanceTail amount =>
      have length : (queue.advanceTail amount).queued.length =
          queue.queued.length + min amount queue.space := by
        have room := queue.space_lt
        simp only [BlockQueue.advanceTail, BlockQueue.write, List.length_append, List.length_take]
        omega
      have cells : Ring.slice block.bytes size block.buf.head size =
          (queue.advanceTail amount).queued ++ (queue.advanceTail amount).rest := by
        rw [same.cells, queue.advanceTail_cells]
      have moved := same.moveTail (min_le_right _ _) length cells
      refine ⟨_, ?_, moved, fun _ peeks => by cases peeks⟩
      simp only [Block.perform, CircularBuffer.advanceTail, same.space,
        modulo_of_pos _ (Nat.zero_lt_of_lt pos), bind, Except.bind, BlockQueue.perform]

def Tracks (block : Block) (queue : BlockQueue UInt8 size) : List (Command UInt8) → Prop
  | [] => Represents block queue
  | command :: later => Represents block queue ∧
      ∃ next, block.perform command = .ok ((queue.perform command).1, next) ∧
        (∀ amount, command = .peek amount → next = block) ∧
        Tracks next (queue.perform command).2 later

theorem tracks (same : Represents block queue) (commands : List (Command UInt8)) :
    Tracks block queue commands := by
  induction commands generalizing block queue with
  | nil => exact same
  | cons command later ih =>
      obtain ⟨next, performed, same', peeked⟩ := same.perform command
      exact ⟨same, next, performed, peeked, ih same'⟩

end Represents

section Refinement
variable {size head tail : Nat} {fresh headed buf : CircularBuffer}

theorem valid_of_accepted (set : setBuffer true size = .ok fresh)
    (headSet : fresh.setHead head = some headed) (tailSet : headed.setTail tail = some buf) :
    buf = ⟨head, tail, size - 1, size, true⟩ ∧ buf.Valid := by
  have nonempty : size ≠ 0 := by
    rintro rfl
    simp [setBuffer] at set
  have opened : fresh = ⟨0, 0, size - 1, size, true⟩ := by
    simp only [setBuffer, Bool.true_and, Bool.not_true, Bool.false_and, Bool.or_false, bne_iff_ne,
      ne_eq, nonempty, not_false_eq_true, if_true, Except.ok.injEq] at set
    exact set.symm
  cases opened
  obtain ⟨headInside, rfl⟩ : head < size ∧ ⟨head, 0, size - 1, size, true⟩ = headed := by
    simpa [CircularBuffer.setHead] using headSet
  obtain ⟨tailInside, rfl⟩ : tail < size ∧ ⟨head, tail, size - 1, size, true⟩ = buf := by
    simpa [CircularBuffer.setTail] using tailSet
  refine ⟨rfl, rfl, ?_, headInside, tailInside⟩
  show size - 1 + 1 = size
  omega

theorem circularBuffer_refines_blockQueue (bytes : Nat → UInt8)
    (set : setBuffer true size = .ok fresh) (headSet : fresh.setHead head = some headed)
    (tailSet : headed.setTail tail = some buf) (commands : List (Command UInt8)) :
    ∃ queue : BlockQueue UInt8 size,
      queue.queued = Ring.slice bytes size head buf.dataAvailable ∧
      Represents.Tracks ⟨buf, bytes⟩ queue commands ∧
      queue.removedBy commands ++ (queue.after commands).queued =
        Ring.slice bytes size head buf.dataAvailable ++ queue.addedBy commands := by
  obtain ⟨rfl, valid⟩ := valid_of_accepted set headSet tailSet
  have inside := valid.dataAvailable_lt
  simp only at inside
  have whole : Ring.slice bytes size head
      (dataAvailable ⟨head, tail, size - 1, size, true⟩ +
        (size - dataAvailable ⟨head, tail, size - 1, size, true⟩)) = _ := Ring.slice_add _ _
  rw [Nat.add_sub_cancel' inside.le] at whole
  refine ⟨⟨Ring.slice bytes size head _, Ring.slice bytes size (head + _) (size - _), ?_, ?_⟩, rfl,
    Represents.tracks ⟨valid, rfl, ?_, whole⟩ commands, BlockQueue.run_order _ commands⟩
  · rw [Ring.length_slice, Ring.length_slice]
    omega
  · refine List.ne_nil_of_length_pos ?_
    rw [Ring.length_slice]
    omega
  · rw [Ring.length_slice]

def wrappedBuffer : CircularBuffer := ⟨3, 1, 3, 4, true⟩

def wrappedCommands : List (Command UInt8) :=
  [.write [7, 8, 9], .peek 2, .read 5, .advanceTail 9, .advanceHead 1]

theorem wrappedBuffer_refines :
    ∃ queue : BlockQueue UInt8 4,
      queue.queued = Ring.slice (fun i => UInt8.ofNat i) 4 3 wrappedBuffer.dataAvailable ∧
      Represents.Tracks ⟨wrappedBuffer, fun i => UInt8.ofNat i⟩ queue wrappedCommands ∧
      queue.removedBy wrappedCommands ++ (queue.after wrappedCommands).queued =
        Ring.slice (fun i => UInt8.ofNat i) 4 3 wrappedBuffer.dataAvailable ++
          queue.addedBy wrappedCommands :=
  circularBuffer_refines_blockQueue (fun i => UInt8.ofNat i)
    (show setBuffer true 4 = .ok ⟨0, 0, 3, 4, true⟩ from rfl)
    (show setHead ⟨0, 0, 3, 4, true⟩ 3 = some ⟨3, 0, 3, 4, true⟩ from rfl)
    (show setTail ⟨3, 0, 3, 4, true⟩ 1 = some wrappedBuffer from rfl) wrappedCommands

end Refinement

end ThreadIpc.CircularBuffer
