import ThreadIpc.ByteStore.Contents

namespace ThreadIpc.ByteStore
open Lib State

def range (content : List UInt8) (offset maxLength : Nat) : List UInt8 :=
  (content.drop offset).take maxLength

/-- The reader gets the bytes of the range, each from where it left off, until it takes none. -/
def HandsOver (bytes : List UInt8) : List ReaderCall → Prop
  | [] => bytes = []
  | call :: calls => ∃ piece, piece <+: bytes ∧ piece ≠ [] ∧ call.buffer = piece.map some ∧
      call.taken ≤ piece.length ∧
      if call.taken = 0 then calls = [] else HandsOver (bytes.drop call.taken) calls

section
variable {content : List UInt8} {state : State} {platform : Platform}

theorem range_map (offset maxLength : Nat) : ((content.map some).drop offset).take maxLength =
    (range content offset maxLength).map (some : UInt8 → Cell) := by
  rw [range, List.map_take, List.map_drop]

theorem range_zero (offset : Nat) : range content offset 0 = [] := List.take_zero

theorem range_drop (offset maxLength taken : Nat) : (range content offset maxLength).drop taken =
    range content (offset + taken) (maxLength - taken) := by
  rw [range, List.drop_take, List.drop_drop, range]

theorem range_isPrefix {offset fewer maxLength : Nat} (fewer_le : fewer ≤ maxLength) :
    range content offset fewer <+: range content offset maxLength := by
  rw [range, range, ← Nat.min_eq_left fewer_le, ← List.take_take]
  exact List.take_prefix _ _

theorem range_eq_nil_iff {offset maxLength : Nat} (some_ : maxLength ≠ 0) :
    range content offset maxLength = [] ↔ content.length ≤ offset := by
  rw [range, List.take_eq_nil_iff, List.drop_eq_nil_iff]
  simp [some_]

theorem range_cut (offset maxLength : Nat) :
    range content offset (min (content.length - offset) maxLength) =
      range content offset maxLength := by
  rw [range, range, List.take_eq_take_iff, List.length_drop]
  omega

theorem cut_toNat {length : Nat} {offset maxLength : Int} (offset_nonneg : 0 ≤ offset) :
    (if (length : Int) - offset < maxLength then (length : Int) - offset else maxLength).toNat =
      min (length - offset.toNat) maxLength.toNat := by
  split <;> omega

theorem readFromFile_holds (holds : Holds content state) (offset maxLength : Nat) :
    Holds content (state.readFromFile offset maxLength).1 := by
  rw [readFromFile]
  split
  · exact holds
  · rename_i file present
    constructor
    · exact holds.length
    · exact holds.fits
    · intro absent
      contradiction
    · rintro _ ⟨⟩
      exact holds.file file present
    · intro _ _ reading
      contradiction

theorem readFromFile_reads (holds : Holds content state) (inFile : state.file ≠ none)
    (offset maxLength : Nat) : (state.readFromFile offset maxLength).1.file ≠ none ∧
      (state.readFromFile offset maxLength).2 = (range content offset maxLength).map some := by
  rw [readFromFile]
  split
  · rename_i absent
    exact absurd absent inFile
  · rename_i file present
    refine ⟨Option.some_ne_none _, ?_⟩
    rw [← range_map, ← holds.file file present]
    rfl

theorem read_holds (holds : Holds content state) (offset maxLength : Int) :
    Holds content (state.read offset maxLength).1 := by
  rw [State.read]
  split
  · exact holds
  · split
    · split <;> exact holds
    · exact readFromFile_holds holds _ _

theorem read_reads (holds : Holds content state) {offset maxLength : Int} (offset_nonneg : 0 ≤ offset)
    (maxLength_nonneg : 0 ≤ maxLength) : (state.read offset maxLength).2 =
      some ((range content offset.toNat maxLength.toNat).map some) := by
  rw [State.read, if_neg (by omega)]
  split
  · rename_i inMemory
    obtain ⟨_, cells, size⟩ := holds.inMemory inMemory
    rw [size]
    split
    · rename_i past
      rw [range, List.drop_eq_nil_of_le (by omega), List.take_nil]
      rfl
    · simp only
      rw [cells, range_map, cut_toNat offset_nonneg, range_cut]
  · rename_i inFile
    have present : state.file ≠ none := fun absent => inFile (Option.isNone_iff_eq_none.mpr absent)
    simp only
    rw [(readFromFile_reads holds present _ _).2]

theorem readFromData_hands (reader : List Nat) {position maxLength : Nat}
    (inside : position + maxLength ≤ content.length) : HandsOver (range content position maxLength)
      (readFromData (content.map some) reader position maxLength) := by
  have piece {position maxLength : Nat} (some_ : maxLength ≠ 0)
      (inside : position + maxLength ≤ content.length) : range content position maxLength ≠ [] := by
    intro nothing
    have past := (range_eq_nil_iff some_).mp nothing
    omega
  induction reader generalizing position maxLength with
  | nil =>
      rw [readFromData]
      split
      · rename_i none_
        rw [none_]
        exact range_zero position
      · rename_i some_
        exact ⟨_, List.prefix_refl _, piece some_ inside, range_map _ _, Nat.zero_le _, rfl⟩
  | cons wanted reader ih =>
      rw [readFromData]
      split
      · rename_i none_
        rw [none_]
        exact range_zero position
      · rename_i some_
        simp only [range_map, List.length_map]
        generalize length : (range content position maxLength).length = size
        have size_le : size ≤ maxLength := length ▸ List.length_take_le _ _
        have nonempty := piece some_ inside
        split
        · rename_i stops
          refine ⟨_, List.prefix_refl _, nonempty, rfl, length ▸ Nat.min_le_right _ _, ?_⟩
          exact (if_pos stops).symm ▸ rfl
        · rename_i goesOn
          refine ⟨_, List.prefix_refl _, nonempty, rfl, length ▸ Nat.min_le_right _ _, ?_⟩
          rw [if_neg goesOn, range_drop]
          apply ih
          show position + min wanted size + (maxLength - min wanted size) ≤ content.length
          omega

theorem readThroughBuffer_round (reader : List Nat) {offset maxLength bufferSize : Nat}
    (holds : Holds content state) (inFile : state.file ≠ none) (some_ : maxLength ≠ 0) :
    ∃ next, Holds content next ∧ next.file ≠ none ∧
      state.readThroughBuffer reader offset maxLength bufferSize =
        let piece := range content offset bufferSize
        if piece = [] then (next, [])
        else match reader with
          | [] => (next, [⟨piece.map some, 0⟩])
          | wanted :: reader =>
              let taken := min wanted piece.length
              if taken = 0 then (next, [⟨piece.map some, taken⟩])
              else
                let later := next.readThroughBuffer reader (offset + taken) (maxLength - taken)
                  (min (maxLength - taken) bufferSize)
                (later.1, ⟨piece.map some, taken⟩ :: later.2) := by
  have readHolds := readFromFile_holds holds offset bufferSize
  obtain ⟨stillInFile, source⟩ := readFromFile_reads holds inFile offset bufferSize
  have copied (readBuffer : MemoryBuffer) :
      (readBuffer.write 0 ((range content offset bufferSize).map some)).cells.take
        (range content offset bufferSize).length = (range content offset bufferSize).map some := by
    have size : ((range content offset bufferSize).map (some : UInt8 → Cell)).length =
        (range content offset bufferSize).length := List.length_map _
    rw [← size]
    exact take_overwrite_zero
  refine ⟨{ (state.readFromFile offset bufferSize).1 with
    readBuffer := (state.readFromFile offset bufferSize).1.readBuffer.write 0
      ((range content offset bufferSize).map some) }, ?_, stillInFile, ?_⟩
  · exact ⟨readHolds.length, readHolds.fits, readHolds.data, readHolds.file, readHolds.atEnd⟩
  · cases reader with
    | nil =>
        rw [readThroughBuffer, if_neg some_]
        simp only [source, List.length_map, copied, List.map_eq_nil_iff]
    | cons wanted reader =>
        rw [readThroughBuffer, if_neg some_]
        simp only [source, List.length_map, copied, List.map_eq_nil_iff]

theorem readThroughBuffer_hands (reader : List Nat) {offset maxLength bufferSize : Nat}
    (holds : Holds content state) (inFile : state.file ≠ none)
    (bufferSize_le : bufferSize ≤ maxLength) (bufferSize_pos : maxLength ≠ 0 → bufferSize ≠ 0) :
    Holds content (state.readThroughBuffer reader offset maxLength bufferSize).1 ∧
      HandsOver (range content offset maxLength)
        (state.readThroughBuffer reader offset maxLength bufferSize).2 := by
  induction reader generalizing state offset maxLength bufferSize with
  | nil =>
      by_cases none_ : maxLength = 0
      · rw [readThroughBuffer, if_pos none_, none_]
        exact ⟨holds, range_zero offset⟩
      · obtain ⟨next, nextHolds, _, round⟩ := readThroughBuffer_round [] holds inFile none_
        rw [round]
        simp only
        split
        · rename_i nothing
          rw [range_eq_nil_iff (bufferSize_pos none_)] at nothing
          exact ⟨nextHolds, (range_eq_nil_iff none_).mpr nothing⟩
        · rename_i nonempty
          exact ⟨nextHolds, _, range_isPrefix bufferSize_le, nonempty, rfl, Nat.zero_le _, rfl⟩
  | cons wanted reader ih =>
      by_cases none_ : maxLength = 0
      · rw [readThroughBuffer, if_pos none_, none_]
        exact ⟨holds, range_zero offset⟩
      · obtain ⟨next, nextHolds, stillInFile, round⟩ :=
          readThroughBuffer_round (wanted :: reader) holds inFile none_
        rw [round]
        simp only
        generalize taken_eq : min wanted (range content offset bufferSize).length = taken
        have taken_le : taken ≤ (range content offset bufferSize).length :=
          taken_eq ▸ Nat.min_le_right _ _
        split
        · rename_i nothing
          rw [range_eq_nil_iff (bufferSize_pos none_)] at nothing
          exact ⟨nextHolds, (range_eq_nil_iff none_).mpr nothing⟩
        · rename_i nonempty
          split
          · rename_i stops
            refine ⟨nextHolds, _, range_isPrefix bufferSize_le, nonempty, rfl, taken_le, ?_⟩
            exact (if_pos stops).symm ▸ rfl
          · rename_i goesOn
            have some_ := bufferSize_pos none_
            have rest := @ih next (offset + taken) (maxLength - taken)
              (min (maxLength - taken) bufferSize) nextHolds stillInFile (Nat.min_le_left _ _)
              (by omega)
            refine ⟨rest.1, _, range_isPrefix bufferSize_le, nonempty, rfl, taken_le, ?_⟩
            rw [if_neg goesOn, range_drop]
            exact rest.2

theorem readFile_hands (holds : Holds content state) (inFile : state.file ≠ none)
    (reader : List Nat) (readBuffer : MemoryBuffer) (offset maxLength : Nat) :
    let result := State.readThroughBuffer reader offset maxLength
      (min maxLength platform.kMaxBufferSize) { state with readBuffer }
    Holds content result.1 ∧ HandsOver (range content offset maxLength) result.2 := by
  have limit : platform.kMaxBufferSize ≠ 0 := by cases platform <;> decide
  apply readThroughBuffer_hands
  · exact ⟨holds.length, holds.fits, holds.data, holds.file, holds.atEnd⟩
  · exact inFile
  · exact Nat.min_le_left _ _
  · omega

theorem readDirect_holds (holds : Holds content state) (reader : List Nat) (offset maxLength : Int) :
    Holds content (state.readDirect platform reader offset maxLength).1 := by
  rw [readDirect]
  split
  · exact holds
  · split
    · split <;> exact holds
    · rename_i inFile
      have present : state.file ≠ none := fun absent => inFile (Option.isNone_iff_eq_none.mpr absent)
      exact (readFile_hands holds present reader _ _ _).1

theorem readDirect_hands (holds : Holds content state) (reader : List Nat) {offset maxLength : Int}
    (offset_nonneg : 0 ≤ offset) (maxLength_nonneg : 0 ≤ maxLength) :
    ∃ calls, (state.readDirect platform reader offset maxLength).2 = some calls ∧
      HandsOver (range content offset.toNat maxLength.toNat) calls := by
  rw [readDirect, if_neg (by omega)]
  split
  · rename_i inMemory
    obtain ⟨_, cells, size⟩ := holds.inMemory inMemory
    rw [size]
    split
    · rename_i past
      refine ⟨[], rfl, ?_⟩
      show List.take _ _ = []
      rw [List.drop_eq_nil_of_le (by omega), List.take_nil]
    · rename_i inside
      refine ⟨_, rfl, ?_⟩
      rw [cells, cut_toNat offset_nonneg, ← range_cut]
      exact readFromData_hands reader (by omega)
  · rename_i inFile
    have present : state.file ≠ none := fun absent => inFile (Option.isNone_iff_eq_none.mpr absent)
    exact ⟨_, rfl, (readFile_hands holds present reader _ _ _).2⟩

end

end ThreadIpc.ByteStore
