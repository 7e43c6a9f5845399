import ThreadIpc.ByteStore.Async

/-!
# Reading while `data_` is lent to a writer
-/

namespace ThreadIpc.ByteStore
open Lib State

section
variable {content : List UInt8} {cells : List Cell} {state : State} {platform : Platform}

theorem window_eq_iff (kept : content.map some <+: cells) (offset maxLength : Nat) :
    (cells.drop offset).take maxLength = (range content offset maxLength).map some ↔
      cells.length ≤ content.length ∨ cells.length ≤ offset ∨ maxLength = 0 ∨
        offset + maxLength ≤ content.length := by
  obtain ⟨rest, rfl⟩ := kept
  constructor
  · intro same
    have lengths := congrArg List.length same
    rw [← range_map] at lengths
    simp only [List.length_take, List.length_drop, List.length_append, List.length_map] at lengths ⊢
    omega
  · rw [← range_map]
    rintro (nothing | past | none_ | within)
    · rw [List.length_append, List.length_map] at nothing
      have empty : rest = [] := List.eq_nil_of_length_eq_zero (by omega)
      rw [empty, List.append_nil]
    · have past' : (content.map (some : UInt8 → Cell)).length ≤ offset := by
        rw [List.length_append] at past
        omega
      rw [List.drop_eq_nil_of_le past, List.drop_eq_nil_of_le past']
    · rw [none_, List.take_zero, List.take_zero]
    · have inside : offset + maxLength ≤ (content.map (some : UInt8 → Cell)).length := by
        rw [List.length_map]
        exact within
      rw [List.drop_append_of_le_length (by omega), List.take_append_of_le_length]
      rw [List.length_drop]
      omega

theorem read_inMemory (inMemory : state.isUsingData = true) {offset maxLength : Int}
    (offset_nonneg : 0 ≤ offset) (maxLength_nonneg : 0 ≤ maxLength) :
    (state.read offset maxLength).2 =
      some ((state.data.cells.drop offset.toNat).take maxLength.toNat) := by
  rw [State.read, if_neg (by omega), if_pos inMemory]
  split
  · rename_i past
    have past : state.data.cells.length ≤ offset.toNat := Int.le_toNat offset_nonneg |>.mpr past
    rw [List.drop_eq_nil_of_le past, List.take_nil]
  · simp only
    rw [cut_toNat offset_nonneg, Option.some.injEq, List.take_eq_take_iff, List.length_drop,
      MemoryBuffer.size]
    omega

theorem readFromData_cons (data : List Cell) (reader : List Nat) (position : Nat) {maxLength : Nat}
    (some_ : maxLength ≠ 0) : ∃ taken calls, readFromData data reader position maxLength =
      ⟨(data.drop position).take maxLength, taken⟩ :: calls := by
  cases reader with
  | nil =>
      rw [readFromData, if_neg some_]
      exact ⟨_, _, rfl⟩
  | cons wanted reader =>
      rw [readFromData, if_neg some_]
      simp only
      split <;> exact ⟨_, _, rfl⟩

theorem readFromData_zero (data : List Cell) (reader : List Nat) (position : Nat) :
    readFromData data reader position 0 = [] := by
  cases reader <;> rw [readFromData, if_pos rfl]

theorem readFromData_extended {data : List Cell} (kept : data <+: cells) (reader : List Nat)
    {position maxLength : Nat} (inside : position + maxLength ≤ data.length) :
    readFromData cells reader position maxLength = readFromData data reader position maxLength := by
  have window {position maxLength : Nat} (inside : position + maxLength ≤ data.length) :
      (cells.drop position).take maxLength = (data.drop position).take maxLength := by
    obtain ⟨rest, rfl⟩ := kept
    rw [List.drop_append_of_le_length (by omega), List.take_append_of_le_length]
    rw [List.length_drop]
    omega
  induction reader generalizing position maxLength with
  | nil => rw [readFromData, readFromData, window inside]
  | cons wanted reader ih =>
      rw [readFromData, readFromData, window inside]
      generalize buffer_eq : (data.drop position).take maxLength = buffer
      have size : buffer.length ≤ maxLength := buffer_eq ▸ List.length_take_le _ _
      have later : readFromData cells reader (position + min wanted buffer.length)
          (maxLength - min wanted buffer.length) =
          readFromData data reader (position + min wanted buffer.length)
            (maxLength - min wanted buffer.length) := by
        apply ih
        have taken := Nat.min_le_right wanted buffer.length
        omega
      simp only
      rw [later]

theorem readDirect_inMemory (inMemory : state.isUsingData = true) (reader : List Nat)
    {offset maxLength : Int} (offset_nonneg : 0 ≤ offset) (maxLength_nonneg : 0 ≤ maxLength) :
    (state.readDirect platform reader offset maxLength).2 =
      some (readFromData state.data.cells reader offset.toNat
        (min (state.data.size - offset.toNat) maxLength.toNat)) := by
  rw [readDirect, if_neg (by omega), if_pos inMemory]
  split
  · have nothing : state.data.size - offset.toNat = 0 := by omega
    rw [nothing, Nat.zero_min, readFromData_zero]
  · simp only
    rw [cut_toNat offset_nonneg]

theorem handsOver_iff (kept : content.map some <+: cells) (reader : List Nat)
    (offset maxLength : Nat) :
    HandsOver (range content offset maxLength)
      (readFromData cells reader offset (min (cells.length - offset) maxLength)) ↔
      cells.length ≤ content.length ∨ cells.length ≤ offset ∨ maxLength = 0 ∨
        offset + maxLength ≤ content.length := by
  have longer : content.length ≤ cells.length := by
    have le := kept.length_le
    rw [List.length_map] at le
    exact le
  generalize cut_eq : min (cells.length - offset) maxLength = cut
  constructor
  · intro hands
    by_cases none_ : cut = 0
    · omega
    · obtain ⟨taken, calls, call⟩ := readFromData_cons cells reader offset none_
      rw [call] at hands
      obtain ⟨piece, inRange, _, buffer, _⟩ := hands
      have fewer := inRange.length_le
      have lengths := congrArg List.length buffer
      rw [range] at fewer
      simp only [List.length_take, List.length_drop, List.length_map] at fewer lengths
      omega
  · intro within
    have same : range content offset maxLength = range content offset cut := by
      rw [← range_cut offset maxLength, ← range_cut offset cut]
      congr 1
      omega
    rw [same]
    by_cases none_ : cut = 0
    · rw [none_, readFromData_zero]
      exact range_zero offset
    · have inside : offset + cut ≤ content.length := by omega
      rw [readFromData_extended kept reader (by rw [List.length_map]; exact inside)]
      exact readFromData_hands reader inside

theorem shows_of_prefix (inMemory : state.isUsingData = true) (length : state.length = content.length)
    (kept : content.map some <+: state.data.cells) : Shows platform content state where
  length := length
  read_iff := by
    intro offset maxLength offset_nonneg maxLength_nonneg
    rw [read_inMemory inMemory offset_nonneg maxLength_nonneg, Option.some.injEq,
      window_eq_iff kept, ReachesPast, length, MemoryBuffer.size]
    simp only [inMemory, true_and]
    omega
  readDirect_iff := by
    intro reader offset maxLength offset_nonneg maxLength_nonneg
    have hands := handsOver_iff kept reader offset.toNat maxLength.toNat
    rw [readDirect_inMemory inMemory reader offset_nonneg maxLength_nonneg, ReachesPast, length,
      MemoryBuffer.size]
    simp only [Option.some.injEq, exists_eq_left', hands, inMemory, true_and]
    omega

theorem Holds.not_reachesPast (holds : Holds content state) (offset maxLength : Int) :
    ¬ state.ReachesPast offset maxLength := by
  rintro ⟨inMemory, longer, _⟩
  rw [(holds.inMemory inMemory).2.2, holds.length] at longer
  exact Nat.lt_irrefl _ longer

theorem Holds.shows (holds : Holds content state) : Shows platform content state where
  length := holds.length
  read_iff _ _ offset_nonneg maxLength_nonneg :=
    iff_of_true (read_reads holds offset_nonneg maxLength_nonneg) (holds.not_reachesPast _ _)
  readDirect_iff reader _ _ offset_nonneg maxLength_nonneg :=
    iff_of_true (readDirect_hands holds reader offset_nonneg maxLength_nonneg)
      (holds.not_reachesPast _ _)

end

end ThreadIpc.ByteStore
