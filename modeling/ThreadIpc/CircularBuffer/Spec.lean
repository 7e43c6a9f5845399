import ThreadIpc.CircularBuffer.Model

namespace ThreadIpc.CircularBuffer

open Lib

structure Valid (buf : CircularBuffer) : Prop where
  buffer : buf.buffer = true
  capacity : buf.capacity + 1 = buf.bufSize
  head : buf.head < buf.bufSize
  tail : buf.tail < buf.bufSize

section Spec
variable {buf : CircularBuffer} {memory : Nat → UInt8}

theorem modulo_of_pos (value : Nat) {size : Nat} (pos : 0 < size) :
    modulo value size = .ok (value % size) :=
  if_neg pos.ne'

theorem Valid.setHead (valid : buf.Valid) {head : Nat} (inside : head < buf.bufSize) :
    buf.setHead head = some { buf with head := head } := by
  simp [CircularBuffer.setHead, valid.buffer, inside]

theorem Valid.setTail (valid : buf.Valid) {tail : Nat} (inside : tail < buf.bufSize) :
    buf.setTail tail = some { buf with tail := tail } := by
  simp [CircularBuffer.setTail, valid.buffer, inside]

theorem valid_setBuffer (capacity : Nat) :
    setBuffer true (capacity + 1) = .ok ⟨0, 0, capacity, capacity + 1, true⟩ ∧
      Valid ⟨0, 0, capacity, capacity + 1, true⟩ :=
  ⟨by simp [setBuffer], rfl, rfl, Nat.succ_pos _, Nat.succ_pos _⟩

theorem Valid.dataAvailable_lt (valid : buf.Valid) : buf.dataAvailable < buf.bufSize := by
  have head := valid.head
  have tail := valid.tail
  unfold dataAvailable
  split <;> omega

theorem Valid.available_add (valid : buf.Valid) :
    buf.dataAvailable + buf.spaceAvailable = buf.capacity := by
  have data := valid.dataAvailable_lt
  have capacity := valid.capacity
  unfold spaceAvailable
  omega

theorem Valid.tail_eq (valid : buf.Valid) :
    buf.tail = (buf.head + buf.dataAvailable) % buf.bufSize := by
  have head := valid.head
  have tail := valid.tail
  unfold dataAvailable
  split
  · rw [Nat.mod_eq_of_lt (by omega)]
    omega
  · have around : buf.head + (buf.bufSize - buf.head + buf.tail) = buf.tail + buf.bufSize := by omega
    rw [around, Nat.add_mod_right, Nat.mod_eq_of_lt tail]

theorem dataAvailable_of_tail (valid : buf.Valid) {count : Nat} (small : count < buf.bufSize)
    (tail : buf.tail = (buf.head + count) % buf.bufSize) : buf.dataAvailable = count := by
  have same : (buf.head + buf.dataAvailable) % buf.bufSize = (buf.head + count) % buf.bufSize := by
    rw [← valid.tail_eq, tail]
  exact Ring.add_mod_inj valid.dataAvailable_lt small same

theorem copyOut_eq {position amount : Nat} (inside : position + amount ≤ buf.bufSize) :
    copyOut memory buf.bufSize position amount =
      .ok (Ring.slice memory buf.bufSize position amount) := by
  rw [copyOut, if_pos inside, Ring.slice_eq_contiguous inside]

theorem copyIn_eq {size position : Nat} {data : List UInt8}
    (inside : position + data.length ≤ size) :
    copyIn size position data = .ok (Ring.stores size position data) := by
  rw [copyIn, if_pos inside]
  congr 1
  induction data generalizing position with
  | nil => rfl
  | cons byte rest ih =>
      have before : position < size := by
        simp only [List.length_cons] at inside
        omega
      have next : position + 1 + rest.length ≤ size := by
        simp only [List.length_cons] at inside
        omega
      simp only [List.length_cons, List.range'_succ, List.zip_cons_cons, Ring.stores,
        Nat.mod_eq_of_lt before, ih next]

theorem Valid.contiguousData_inside (valid : buf.Valid) :
    buf.head + buf.contiguousDataAvailable ≤ buf.bufSize := by
  have head := valid.head
  have tail := valid.tail
  unfold contiguousDataAvailable
  split <;> omega

theorem Valid.read_step (valid : buf.Valid) (iters : Nat) {remaining : Nat} (pos : 0 < remaining)
    (some : 0 < buf.contiguousDataAvailable) :
    readLoop memory (iters + 1) buf remaining =
      let amount := min remaining buf.contiguousDataAvailable
      (readLoop memory iters { buf with head := (buf.head + amount) % buf.bufSize }
        (remaining - amount)).map fun (after, later) =>
          (after, Ring.slice memory buf.bufSize buf.head amount ++ later) := by
  obtain ⟨remaining, rfl⟩ := Nat.exists_eq_succ_of_ne_zero pos.ne'
  have inside := valid.contiguousData_inside
  have nonzero : min (remaining + 1) buf.contiguousDataAvailable ≠ 0 := by omega
  have fits : buf.head + min (remaining + 1) buf.contiguousDataAvailable ≤ buf.bufSize := by omega
  simp only [readLoop, if_neg nonzero, copyOut_eq fits,
    modulo_of_pos _ (Nat.zero_lt_of_lt valid.head), bind, Except.bind, Except.map]

theorem Valid.readLoop_eq (valid : buf.Valid) {remaining : Nat}
    (available : remaining ≤ buf.dataAvailable) :
    readLoop memory 2 buf remaining =
      .ok ({ buf with head := (buf.head + remaining) % buf.bufSize },
        Ring.slice memory buf.bufSize buf.head remaining) := by
  have head := valid.head
  rcases Nat.eq_zero_or_pos remaining with rfl | pos
  · simp [readLoop, Ring.slice_zero, Nat.mod_eq_of_lt head]
  · have some : 0 < buf.contiguousDataAvailable := by
      unfold dataAvailable at available
      unfold contiguousDataAvailable
      split
      · rename_i straight
        rw [if_pos straight] at available
        omega
      · omega
    rw [valid.read_step 1 pos some]
    by_cases once : remaining ≤ buf.contiguousDataAvailable
    · simp only [min_eq_left once, Nat.sub_self, readLoop, Except.map, List.append_nil]
    · have wrapped : ¬ buf.tail ≥ buf.head := by
        intro straight
        simp only [dataAvailable, contiguousDataAvailable, if_pos straight] at available once
        omega
      have contiguous : buf.contiguousDataAvailable = buf.bufSize - buf.head := if_neg wrapped
      have total : buf.dataAvailable = buf.bufSize - buf.head + buf.tail := if_neg wrapped
      have around : (buf.head + (buf.bufSize - buf.head)) % buf.bufSize = 0 := by
        rw [Nat.add_sub_cancel' head.le, Nat.mod_self]
      have valid' : Valid { buf with head := 0 } :=
        ⟨valid.buffer, valid.capacity, Nat.zero_lt_of_lt head, valid.tail⟩
      have contiguous' : contiguousDataAvailable { buf with head := 0 } = buf.tail := by
        simp [contiguousDataAvailable]
      obtain ⟨later, rfl⟩ : ∃ later, remaining = buf.bufSize - buf.head + later :=
        Nat.exists_eq_add_of_le (by omega)
      have advanced : (buf.head + (buf.bufSize - buf.head + later)) % buf.bufSize =
          later % buf.bufSize := by
        rw [← Nat.add_assoc, ← Nat.mod_add_mod, around, Nat.zero_add]
      have second : Ring.slice memory buf.bufSize (buf.head + (buf.bufSize - buf.head)) later =
          Ring.slice memory buf.bufSize 0 later := by
        rw [← Ring.slice_mod, around]
      rw [contiguous] at once
      simp only [contiguous, min_eq_right (not_le.mp once).le, around, Nat.add_sub_cancel_left]
      rw [valid'.read_step 0 (by omega) (by omega), contiguous', min_eq_left (by omega)]
      simp only [Nat.sub_self, readLoop, Except.map, List.append_nil, Nat.zero_add, advanced,
        Ring.slice_add, second]

theorem Valid.read_eq (valid : buf.Valid) {size : Nat} (available : size ≤ buf.dataAvailable) :
    read memory buf size = .ok ({ buf with head := (buf.head + size) % buf.bufSize },
      Ring.slice memory buf.bufSize buf.head size) := by
  rw [read, min_eq_left available, valid.readLoop_eq available]

theorem Valid.read_min (valid : buf.Valid) (size : Nat) :
    read memory buf size =
      .ok ({ buf with head := (buf.head + min size buf.dataAvailable) % buf.bufSize },
        Ring.slice memory buf.bufSize buf.head (min size buf.dataAvailable)) := by
  rw [read, valid.readLoop_eq (min_le_right _ _)]

theorem Valid.after_read (valid : buf.Valid) {count : Nat} (available : count ≤ buf.dataAvailable) :
    Valid { buf with head := (buf.head + count) % buf.bufSize } ∧
      dataAvailable { buf with head := (buf.head + count) % buf.bufSize } =
        buf.dataAvailable - count := by
  have inside := valid.dataAvailable_lt
  have valid' : Valid { buf with head := (buf.head + count) % buf.bufSize } :=
    ⟨valid.buffer, valid.capacity, Nat.mod_lt _ (Nat.zero_lt_of_lt valid.head), valid.tail⟩
  have small : buf.dataAvailable - count < buf.bufSize := by omega
  have back : buf.head + count + (buf.dataAvailable - count) = buf.head + buf.dataAvailable := by
    omega
  refine ⟨valid', dataAvailable_of_tail valid' small ?_⟩
  simp only [valid.tail_eq, Nat.mod_add_mod, back]

theorem Valid.isFull_iff (valid : buf.Valid) :
    ∃ full, buf.isFull = .ok full ∧ (full = true ↔ buf.spaceAvailable = 0) := by
  have head := valid.head
  have tail := valid.tail
  have capacity := valid.capacity
  refine ⟨(buf.tail + 1) % buf.bufSize = buf.head, ?_, ?_⟩
  · simp only [isFull, modulo_of_pos _ (Nat.zero_lt_of_lt head), bind, Except.bind]
  · rw [decide_eq_true_eq, spaceAvailable, dataAvailable]
    by_cases last : buf.tail + 1 = buf.bufSize
    · rw [last, Nat.mod_self]
      split <;> omega
    · rw [Nat.mod_eq_of_lt (by omega)]
      split <;> omega

theorem Valid.contiguousSpace (valid : buf.Valid) :
    ∃ contiguous, buf.contiguousSpaceAvailable = .ok contiguous ∧
      buf.tail + contiguous ≤ buf.bufSize ∧
      (0 < buf.spaceAvailable → 0 < contiguous) ∧
      (contiguous < buf.spaceAvailable →
        buf.tail + contiguous = buf.bufSize ∧ 0 < buf.head ∧
        buf.spaceAvailable = contiguous + buf.head - 1) := by
  have head := valid.head
  have tail := valid.tail
  have capacity := valid.capacity
  obtain ⟨full, isFull, fullIff⟩ := valid.isFull_iff
  cases full with
  | true =>
      refine ⟨0, ?_, by omega, ?_, ?_⟩
      · simp [contiguousSpaceAvailable, isFull, bind, Except.bind]
      · have none := fullIff.mp rfl
        omega
      · have none := fullIff.mp rfl
        omega
  | false =>
      have room : buf.spaceAvailable ≠ 0 := fun none => absurd (fullIff.mpr none) (by simp)
      by_cases behind : buf.head > buf.tail
      · have space : buf.spaceAvailable = buf.head - buf.tail - 1 := by
          rw [spaceAvailable, dataAvailable, if_neg (not_le.mpr behind)]
          omega
        refine ⟨buf.head - buf.tail - 1, ?_, by omega, by omega, by omega⟩
        simp [contiguousSpaceAvailable, isFull, behind, bind, Except.bind]
      · have space : buf.spaceAvailable = buf.capacity - (buf.tail - buf.head) := by
          rw [spaceAvailable, dataAvailable, if_pos (not_lt.mp behind)]
        refine ⟨if buf.head = 0 then buf.bufSize - buf.tail - 1 else buf.bufSize - buf.tail, ?_,
          by split <;> omega, fun _ => by split <;> omega, fun less => by
            split at less <;> split <;> omega⟩
        simp [contiguousSpaceAvailable, isFull, behind, bind, Except.bind]

theorem Valid.write_step (valid : buf.Valid) (iters : Nat) {data : List UInt8} (some : data ≠ [])
    {contiguous : Nat} (space : buf.contiguousSpaceAvailable = .ok contiguous)
    (pos : 0 < contiguous) (inside : buf.tail + contiguous ≤ buf.bufSize) :
    writeLoop (iters + 1) buf data =
      let amount := min data.length contiguous
      (writeLoop iters { buf with tail := (buf.tail + amount) % buf.bufSize }
        (data.drop amount)).map fun (after, later) =>
          (after, Ring.stores buf.bufSize buf.tail (data.take amount) ++ later) := by
  have length := List.length_pos_of_ne_nil some
  have nonzero : min data.length contiguous ≠ 0 := by omega
  have fits : buf.tail + (data.take (min data.length contiguous)).length ≤ buf.bufSize := by
    rw [List.length_take]
    omega
  cases data with
  | nil => contradiction
  | cons byte rest =>
      simp only [writeLoop, space, if_neg nonzero, copyIn_eq fits,
        modulo_of_pos _ (Nat.zero_lt_of_lt valid.tail), bind, Except.bind, Except.map]

theorem Valid.write_eq (valid : buf.Valid) {data : List UInt8}
    (available : data.length ≤ buf.spaceAvailable) :
    write buf data = .ok ({ buf with tail := (buf.tail + data.length) % buf.bufSize },
      Ring.stores buf.bufSize buf.tail data) := by
  have tail := valid.tail
  rw [write, min_eq_left available, List.take_length]
  by_cases empty : data = []
  · rw [empty, writeLoop, List.length_nil, Nat.add_zero, Nat.mod_eq_of_lt tail]
    rfl
  · have length := List.length_pos_of_ne_nil empty
    obtain ⟨contiguous, space, inside, room, wraps⟩ := valid.contiguousSpace
    rw [valid.write_step 1 empty space (room (by omega)) inside]
    by_cases once : data.length ≤ contiguous
    · simp only [min_eq_left once, List.take_length, List.drop_length, writeLoop, Except.map,
        List.append_nil]
    · obtain ⟨around, head, total⟩ := wraps (by omega)
      have capacity := valid.capacity
      have valid' : Valid { buf with tail := 0 } :=
        ⟨valid.buffer, valid.capacity, valid.head, Nat.zero_lt_of_lt tail⟩
      have space' : spaceAvailable { buf with tail := 0 } = buf.head - 1 := by
        have behind : ¬ 0 ≥ buf.head := by omega
        have inside := valid.head
        simp only [spaceAvailable, dataAvailable, if_neg behind]
        omega
      obtain ⟨contiguous', again, inside', room', wraps'⟩ := valid'.contiguousSpace
      rw [space'] at room' wraps'
      have enough : buf.head - 1 ≤ contiguous' := by
        by_contra less
        obtain ⟨_, _, more⟩ := wraps' (by omega)
        simp only at more
        omega
      obtain ⟨first, second, rfl, firstLength⟩ :
          ∃ first second, data = first ++ second ∧ first.length = contiguous := by
        refine ⟨data.take contiguous, data.drop contiguous, (List.take_append_drop ..).symm, ?_⟩
        rw [List.length_take]
        omega
      have nonempty : second ≠ [] := by
        rintro rfl
        rw [List.append_nil] at once
        omega
      have secondLength : second.length ≤ contiguous' := by
        rw [List.length_append] at available
        omega
      have back : (buf.tail + first.length) % buf.bufSize = 0 := by
        rw [firstLength, around, Nat.mod_self]
      have advanced : (buf.tail + (first ++ second).length) % buf.bufSize =
          second.length % buf.bufSize := by
        rw [List.length_append, ← Nat.add_assoc, ← Nat.mod_add_mod, back, Nat.zero_add]
      have later : Ring.stores buf.bufSize (buf.tail + first.length) second =
          Ring.stores buf.bufSize 0 second := by
        rw [← Ring.stores_mod, back]
      rw [min_eq_right (not_le.mp once).le, ← firstLength]
      simp only [List.take_left, List.drop_left, back]
      rw [valid'.write_step 0 nonempty again (by omega) inside', min_eq_left secondLength]
      simp only [List.take_length, List.drop_length, writeLoop, Except.map, List.append_nil,
        Nat.zero_add, advanced, Ring.stores_append, later]

theorem Valid.after_write (valid : buf.Valid) {count : Nat} (available : count ≤ buf.spaceAvailable) :
    Valid { buf with tail := (buf.tail + count) % buf.bufSize } ∧
      spaceAvailable { buf with tail := (buf.tail + count) % buf.bufSize } + count =
        buf.spaceAvailable := by
  have capacity := valid.capacity
  have total := valid.available_add
  have valid' : Valid { buf with tail := (buf.tail + count) % buf.bufSize } :=
    ⟨valid.buffer, valid.capacity, valid.head, Nat.mod_lt _ (Nat.zero_lt_of_lt valid.head)⟩
  have data : dataAvailable { buf with tail := (buf.tail + count) % buf.bufSize } =
      buf.dataAvailable + count := by
    have small : buf.dataAvailable + count < buf.bufSize := by omega
    refine dataAvailable_of_tail valid' small ?_
    simp only [valid.tail_eq, Nat.mod_add_mod, Nat.add_assoc]
  have total' := valid'.available_add
  rw [data] at total'
  simp only at total'
  exact ⟨valid', by omega⟩

end Spec

end ThreadIpc.CircularBuffer
