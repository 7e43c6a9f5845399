import ThreadIpc.ByteStore.Frame

namespace ThreadIpc.ByteStore
open Lib

structure Holds (content : List UInt8) (state : State) : Prop where
  length : state.length = content.length
  fits : content.length ≤ maxInt64
  data : state.file = none → state.data.cells = content.map some
  file : ∀ file, state.file = some file → file.cells = content.map some
  atEnd : ∀ file, state.file = some file → state.fileOp = .write → file.AtEnd

structure Lends (platform : Platform) (content wrote : List UInt8) (room : Nat) (state : State) :
    Prop where
  absent : state.file = none
  length : state.length = content.length
  fits : content.length + room ≤ platform.kMaxBufferSize
  cells : ∃ rest, state.data.cells = (content ++ wrote).map some ++ rest ∧
    wrote.length + rest.length = room

def Synchronous (writer : List WriterCall) : Prop :=
  ∀ call ∈ writer, call.offered ≠ none

section
variable {content : List UInt8} {state : State} {disk : Disk} {platform : Platform}

theorem init_holds : Holds [] State.init where
  length := rfl
  fits := Nat.zero_le _
  data _ := rfl
  file _ present := nomatch present
  atEnd _ present := nomatch present

theorem Platform.kMaxBufferSize_le (platform : Platform) : platform.kMaxBufferSize ≤ maxInt64 := by
  cases platform <;> decide

theorem Holds.inMemory (holds : Holds content state) (inMemory : state.isUsingData = true) :
    state.file = none ∧ state.data.cells = content.map some ∧ state.data.size = content.length := by
  have absent : state.file = none := Option.isNone_iff_eq_none.mp inMemory
  refine ⟨absent, holds.data absent, ?_⟩
  rw [MemoryBuffer.size, holds.data absent, List.length_map]

theorem writeToFile_done {outcome : WriteOutcome} {source : List Cell} {file written : File}
    (atEnd : file.AtEnd) (done : writeToFile outcome source file = (written, true)) :
    written.cells = file.cells ++ source ∧ written.AtEnd ∧
      file.cells.length + source.length ≤ maxInt64 := by
  cases outcome with
  | complete =>
      rw [writeToFile] at done
      split at done
      · rename_i room
        cases done
        obtain ⟨appended, atNewEnd⟩ := atEnd.write (some 0) source
        rw [atEnd] at room
        exact ⟨appended, atNewEnd, room⟩
      · cases done
  | failed count => cases done

theorem writeToFile_undone {outcome : WriteOutcome} {source : List Cell} {file written : File}
    (atEnd : file.AtEnd) (failed : writeToFile outcome source file = (written, false)) :
    (written.truncate (some 0) file.position).seekEnd = file := by
  cases outcome with
  | complete =>
      rw [writeToFile] at failed
      split at failed
      · cases failed
      · cases failed
        exact atEnd.unchanged (some 0)
  | failed count =>
      cases failed
      exact atEnd.undo (some 0) (source.take count)

theorem openFile_holds (holds : Holds content state) {opened : State} {file : File}
    (done : state.openFile disk = some (opened, file)) :
    Holds content { opened with file := some file } := by
  rw [State.openFile] at done
  split at done
  · rename_i present
    cases done
    constructor
    · exact holds.length
    · exact holds.fits
    · rintro ⟨⟩
    · rintro _ ⟨⟩
      exact holds.file file present
    · rintro _ ⟨⟩
      exact holds.atEnd file present
  · rename_i absent
    rw [Option.ite_none_right_eq_some] at done
    obtain ⟨_, done⟩ := done
    have copied {written : File} (copy : (if state.data.cells = [] then (SeekFile.empty, true)
        else writeToFile disk.copy state.data.cells SeekFile.empty) = (written, true)) :
        written.cells = content.map some ∧ written.AtEnd := by
      rw [← holds.data absent]
      split at copy
      · rename_i nothing
        cases copy
        rw [nothing]
        exact ⟨rfl, rfl⟩
      · have start : (SeekFile.empty : File).AtEnd := rfl
        obtain ⟨appended, atEnd, _⟩ := writeToFile_done start copy
        exact ⟨appended, atEnd⟩
    split at done
    rename_i written success copy
    rw [Option.ite_none_right_eq_some] at done
    obtain ⟨rfl, done⟩ := done
    cases done
    obtain ⟨cells, atEnd⟩ := copied copy
    constructor
    · split <;> exact holds.length
    · exact holds.fits
    · rintro ⟨⟩
    · rintro _ ⟨⟩
      exact cells
    · rintro _ ⟨⟩ _
      exact atEnd

theorem appendToFile_holds (length : state.length = content.length)
    (fits : content.length ≤ maxInt64) {file : File} (cells : file.cells = content.map some)
    (atEnd : file.AtEnd) (data : List UInt8) :
    Holds (content ++ if (state.appendToFile disk (data.map some) file).2 then data else [])
      (state.appendToFile disk (data.map some) file).1 := by
  rw [State.appendToFile]
  split
  · rename_i written success
    obtain ⟨appended, atNewEnd, room⟩ := writeToFile_done atEnd success
    rw [cells] at appended room
    rw [if_pos rfl]
    constructor
    · rw [List.length_append, List.length_map]
      exact congrArg (· + data.length) length
    · rw [List.length_append]
      simpa using room
    · rintro ⟨⟩
    · rintro _ ⟨⟩
      rw [appended, List.map_append]
    · rintro _ ⟨⟩ _
      exact atNewEnd
  · rename_i written failure
    rw [if_neg Bool.false_ne_true, List.append_nil, writeToFile_undone atEnd failure]
    constructor
    · exact length
    · exact fits
    · rintro ⟨⟩
    · rintro _ ⟨⟩
      exact cells
    · rintro _ ⟨⟩ _
      exact atEnd

theorem addDataToFile_holds (holds : Holds content state) (data : List UInt8) :
    Holds (content ++ if (state.addDataToFile disk (data.map some)).2 then data else [])
      (state.addDataToFile disk (data.map some)).1 := by
  rw [State.addDataToFile]
  split
  · rw [if_neg Bool.false_ne_true, List.append_nil]
    exact holds
  · rename_i opened file done
    have holds := openFile_holds holds done
    have cells := holds.file file rfl
    split
    · rename_i nothing
      rw [List.map_eq_nil_iff.mp nothing, if_pos rfl, List.append_nil]
      exact holds
    · split
      · apply appendToFile_holds
        · exact holds.length
        · exact holds.fits
        · exact cells
        · exact file.seekEnd_atEnd
      · rename_i notRead
        have writing : opened.fileOp = .write := by
          cases mode : opened.fileOp with
          | read => exact absurd mode notRead
          | write => rfl
        apply appendToFile_holds
        · exact holds.length
        · exact holds.fits
        · exact cells
        · exact holds.atEnd file rfl writing

theorem addData_holds (holds : Holds content state) {data : Nat → UInt8} {length : Int}
    {after : State} {success : Bool}
    (done : state.addData platform disk data length = some (after, success)) :
    Holds (content ++ if success then State.bytesAt data length else []) after := by
  rw [State.addData] at done
  split at done
  · cases done
    rw [if_neg Bool.false_ne_true, List.append_nil]
    exact holds
  · split at done
    · rename_i nothing
      cases done
      rw [nothing, State.bytesAt, Int.toNat_zero, if_pos rfl]
      exact (List.append_nil content).symm ▸ holds
    · have inFile : Holds (content ++ if (state.addDataToFile disk
          ((State.bytesAt data length).map some)).2 then State.bytesAt data length else [])
          (state.addDataToFile disk ((State.bytesAt data length).map some)).1 :=
        addDataToFile_holds holds _
      simp only at done
      split at done
      · split at done
        · contradiction
        · split at done
          · rename_i inMemory _ room
            cases done
            obtain ⟨absent, cells, size⟩ := holds.inMemory inMemory
            have count : (State.bytesAt data length).length = length.toNat := by
              rw [State.bytesAt, List.length_map, List.length_range]
            have limit := platform.kMaxBufferSize_le
            rw [if_pos rfl]
            constructor
            · rw [List.length_append, count, ← holds.length]
            · rw [List.length_append, count]
              omega
            · intro _
              rw [MemoryBuffer.append, cells, List.map_append]
            · intro file present
              exact nomatch absent.symm.trans present
            · intro file present
              exact nomatch absent.symm.trans present
          · rw [Option.some.inj done] at inFile
            exact inFile
      · rw [Option.some.inj done] at inFile
        exact inFile

theorem resize_holds (absent : state.file = none)
    (cells : content.map some <+: state.data.cells) (length : state.length = content.length)
    (fits : content.length ≤ maxInt64) :
    Holds content { state with data := state.data.resize content.length } where
  length := length
  fits := fits
  data := by
    intro _
    have size : content.length = (content.map some : List Cell).length := by simp
    rw [MemoryBuffer.resize, size]
    exact padded_of_isPrefix cells
  file := fun _ present => nomatch absent.symm.trans present
  atEnd := fun _ present => nomatch absent.symm.trans present

def Adds (content : List UInt8) (result : State × DirectAdd) : Prop :=
  Holds (content ++ result.2.wrote.take result.2.total) result.1

def Ends (waits : List UInt8 → State → Prop) (writer : List WriterCall) (content : List UInt8)
    (asyncAddLength : Nat) (result : State × DirectAdd) : Prop :=
  Adds content result ∧ result.1.asyncAddLength = asyncAddLength ∨
    ¬ Synchronous writer ∧ 0 < result.1.asyncAddLength ∧
      waits (content ++ result.2.wrote.take result.2.total) result.1

section
variable {waits : List UInt8 → State → Prop} {writer : List WriterCall}

theorem adds_nothing (holds : Holds content state) (wrote : List UInt8) :
    Adds content (state, ⟨0, wrote⟩) := by
  rw [Adds, List.take_zero, List.append_nil]
  exact holds

theorem ends_nothing {asyncAddLength : Nat} (holds : Holds content state)
    (same : state.asyncAddLength = asyncAddLength) (wrote : List UInt8) :
    Ends waits writer content asyncAddLength (state, ⟨0, wrote⟩) :=
  .inl ⟨adds_nothing holds wrote, same⟩

theorem ends_async {asyncAddLength : Nat} {call : WriterCall} (async : call.offered = none)
    (some_ : 0 < state.asyncAddLength) (waiting : waits content state) :
    Ends waits (call :: writer) content asyncAddLength (state, ⟨0, []⟩) := by
  refine .inr ⟨?_, some_, ?_⟩
  · intro synchronous
    exact synchronous call List.mem_cons_self async
  · rw [List.take_zero, List.append_nil]
    exact waiting

theorem Ends.more {asyncAddLength : Nat} {call : WriterCall} {bytes : List UInt8} {later : DirectAdd}
    (ends : Ends waits writer (content ++ bytes) asyncAddLength (state, later)) :
    Ends waits (call :: writer) content asyncAddLength
      (state, ⟨bytes.length + later.total, bytes ++ later.wrote⟩) := by
  rw [Ends, Adds, List.take_length_add_append, ← List.append_assoc]
  apply ends.imp_right
  rintro ⟨asynchronous, waiting⟩
  refine ⟨?_, waiting⟩
  intro synchronous
  exact asynchronous fun call later => synchronous call (List.mem_cons_of_mem _ later)

end

theorem addToData_ends (writer : List WriterCall) {maxLength : Nat} (absent : state.file = none)
    (cells : content.map some <+: state.data.cells)
    (size : state.data.size = content.length + maxLength) (length : state.length = content.length)
    (fits : content.length + maxLength ≤ platform.kMaxBufferSize) :
    Ends (fun content state => Lends platform content [] state.asyncAddLength state) writer content
      state.asyncAddLength (state.addToData writer content.length maxLength) := by
  have limit := platform.kMaxBufferSize_le
  induction writer generalizing content state maxLength with
  | nil => exact ends_nothing (resize_holds absent cells length (by omega)) rfl []
  | cons call writer ih =>
      have holds := resize_holds absent cells length (by omega)
      rw [State.addToData]
      split
      · exact ends_nothing holds rfl []
      · rename_i more
        split
        · rename_i async
          refine ends_async async (Nat.pos_of_ne_zero more) ⟨absent, length, fits, ?_⟩
          obtain ⟨rest, behind⟩ := cells
          refine ⟨rest, ?_, ?_⟩
          · rw [List.append_nil, behind]
          · rw [MemoryBuffer.size, ← behind, List.length_append, List.length_map] at size
            rw [List.length_nil, Nat.zero_add]
            exact Nat.add_left_cancel size
        · rename_i offered _
          simp only
          split
          · exact ends_nothing holds rfl []
          · generalize chunk : offered.take maxLength = bytes
            have taken : bytes.length ≤ maxLength := chunk ▸ List.length_take_le _ _
            have total : content.length = (content.map some : List Cell).length := by simp
            rw [← List.length_append]
            apply Ends.more
            apply ih
            · exact absent
            · rw [MemoryBuffer.write, List.map_append, total]
              exact isPrefix_overwrite cells
            · have inside : content.length + (bytes.map some : List Cell).length ≤
                  state.data.cells.length := by
                rw [List.length_map]
                exact (Nat.add_le_add_left taken _).trans size.ge
              rw [MemoryBuffer.size, MemoryBuffer.write, length_overwrite inside, List.length_append]
              exact size.trans (by omega)
            · rw [List.length_append, ← length]
            · rw [List.length_append]
              omega

theorem addToFile_ends (writer : List WriterCall) {maxLength bufferSize : Nat}
    (bufferSize_pos : maxLength ≠ 0 → bufferSize ≠ 0) (room : bufferSize ≤ state.writeBuffer.size)
    (holds : Holds content state) :
    Ends (fun content state => Holds content state ∧ state.asyncAddLength ≤ state.writeBuffer.size)
      writer content state.asyncAddLength (state.addToFile writer maxLength bufferSize) := by
  induction writer generalizing content state maxLength bufferSize with
  | nil => exact ends_nothing holds rfl []
  | cons call writer ih =>
      rw [State.addToFile]
      split
      · exact ends_nothing holds rfl []
      · rename_i more
        split
        · rename_i async
          have opened := @addDataToFile_holds _ _ call.disk holds []
          rw [ite_self, List.append_nil] at opened
          have same := (addDataToFile_filed call.disk [] state).writeBuffer
          refine ends_async async (Nat.pos_of_ne_zero (bufferSize_pos more)) ⟨?_, same ▸ room⟩
          exact ⟨opened.length, opened.fits, opened.data, opened.file, opened.atEnd⟩
        · rename_i offered _
          simp only
          split
          · exact ends_nothing holds rfl []
          · rename_i some_
            generalize chunk : offered.take bufferSize = bytes at some_ ⊢
            have taken : bytes.length ≤ bufferSize := chunk ▸ List.length_take_le _ _
            have size : bytes.length = (bytes.map some : List Cell).length := by simp
            have written : (state.writeBuffer.write 0 (bytes.map some)).cells.take bytes.length =
                bytes.map some := by
              rw [size]
              exact take_overwrite_zero
            have inside : 0 + (bytes.map some : List Cell).length ≤ state.writeBuffer.cells.length := by
              rw [Nat.zero_add, ← size]
              exact taken.trans room
            have kept : (state.writeBuffer.write 0 (bytes.map some)).size = state.writeBuffer.size :=
              length_overwrite inside
            rw [written]
            have holds : Holds content
                { state with writeBuffer := state.writeBuffer.write 0 (bytes.map some) } :=
              ⟨holds.length, holds.fits, holds.data, holds.file, holds.atEnd⟩
            have added := @addDataToFile_holds _ _ call.disk holds bytes
            have filed := addDataToFile_filed call.disk (bytes.map some)
              { state with writeBuffer := state.writeBuffer.write 0 (bytes.map some) }
            split
            · rename_i after failure
              rw [failure] at filed
              rw [failure, if_neg Bool.false_ne_true, List.append_nil] at added
              exact ends_nothing added filed.asyncAddLength bytes
            · rename_i after success
              rw [success] at filed
              rw [success, if_pos rfl] at added
              have async : after.asyncAddLength = state.asyncAddLength := filed.asyncAddLength
              have buffer : after.writeBuffer.size = state.writeBuffer.size :=
                (congrArg MemoryBuffer.size filed.writeBuffer).trans kept
              rw [← async]
              apply Ends.more
              apply ih
              · omega
              · rw [buffer]
                omega
              · exact added

def Waits (platform : Platform) (inData : Prop) (content : List UInt8) (state : State) : Prop :=
  (inData → Lends platform content [] state.asyncAddLength state) ∧
    (¬ inData → Holds content state ∧ state.asyncAddLength ≤ state.writeBuffer.size)

theorem Ends.imp {waits waits' : List UInt8 → State → Prop} {writer : List WriterCall}
    {asyncAddLength : Nat} {result : State × DirectAdd}
    (implied : ∀ content state, waits content state → waits' content state)
    (ends : Ends waits writer content asyncAddLength result) :
    Ends waits' writer content asyncAddLength result :=
  ends.imp_right fun ⟨asynchronous, some_, waiting⟩ => ⟨asynchronous, some_, implied _ _ waiting⟩

theorem throughFile_ends (holds : Holds content state) (writer : List WriterCall) {maxLength : Nat}
    {writeBuffer : MemoryBuffer}
    (room : min maxLength platform.kMaxBufferSize ≤ writeBuffer.size) :
    Ends (fun content state => Holds content state ∧ state.asyncAddLength ≤ state.writeBuffer.size)
      writer content state.asyncAddLength (State.addToFile writer maxLength
        (min maxLength platform.kMaxBufferSize) { state with writeBuffer }) := by
  have limit : platform.kMaxBufferSize ≠ 0 := by cases platform <;> decide
  apply addToFile_ends
  · omega
  · exact room
  · exact ⟨holds.length, holds.fits, holds.data, holds.file, holds.atEnd⟩

theorem size_resize (num : Nat) (buffer : MemoryBuffer) : (buffer.resize num).size = num := by
  rw [MemoryBuffer.size, MemoryBuffer.resize, padded]
  simp only [List.length_take, List.length_append, List.length_replicate]
  omega

theorem addDataDirect_ends (holds : Holds content state) {writer : List WriterCall}
    {maxLength : Int} {result : State × DirectAdd}
    (done : state.addDataDirect platform writer maxLength = some result) :
    Ends (Waits platform
        (state.isUsingData ∧ maxLength + state.data.size ≤ platform.kMaxBufferSize))
      writer content state.asyncAddLength result := by
  rw [State.addDataDirect] at done
  split at done
  · cases done
    exact ends_nothing holds rfl []
  · simp only at done
    have inFile (past : ¬ (state.isUsingData = true ∧
          maxLength + state.data.size ≤ platform.kMaxBufferSize)) {writeBuffer : MemoryBuffer}
        (room : min maxLength.toNat platform.kMaxBufferSize ≤ writeBuffer.size) :
        Ends (Waits platform
            (state.isUsingData ∧ maxLength + state.data.size ≤ platform.kMaxBufferSize))
          writer content state.asyncAddLength (State.addToFile writer maxLength.toNat
            (min maxLength.toNat platform.kMaxBufferSize) { state with writeBuffer }) :=
      (throughFile_ends holds writer room).imp fun _ _ waiting =>
        ⟨fun inData => absurd inData past, fun _ => waiting⟩
    have room : min maxLength.toNat platform.kMaxBufferSize ≤
        (if state.writeBuffer.size < min maxLength.toNat platform.kMaxBufferSize then
          state.writeBuffer.resize (min maxLength.toNat platform.kMaxBufferSize)
        else state.writeBuffer).size := by
      split
      · rw [size_resize]
      · rename_i large
        exact Nat.not_lt.mp large
    split at done
    · split at done
      · contradiction
      · split at done
        · rename_i inMemory _ fits
          rw [← Option.some.inj done]
          obtain ⟨absent, cells, size⟩ := holds.inMemory inMemory
          refine Ends.imp (fun _ _ lends => ⟨fun _ => lends, fun past => absurd ⟨inMemory, fits⟩ past⟩) ?_
          rw [size] at fits ⊢
          apply addToData_ends writer
          · exact absent
          · rw [MemoryBuffer.resize, ← cells, ← size]
            exact prefix_padded maxLength.toNat
          · exact size_resize _ _
          · exact holds.length
          · omega
        · rename_i full
          rw [← Option.some.inj done]
          exact inFile (fun asks => full asks.2) room
    · rename_i elsewhere
      rw [← Option.some.inj done]
      exact inFile (fun asks => elsewhere asks.1) room

theorem addDataDirect_adds (holds : Holds content state) {writer : List WriterCall}
    (synchronous : Synchronous writer) {maxLength : Int} {result : State × DirectAdd}
    (done : state.addDataDirect platform writer maxLength = some result) : Adds content result := by
  rcases addDataDirect_ends holds done with ⟨adds, _⟩ | ⟨asynchronous, _⟩
  · exact adds
  · exact absurd synchronous asynchronous

theorem addString_holds (holds : Holds content state) {conversion : Serialization.Conversion}
    {data : List UInt16} {after : State} {success : Bool}
    (done : state.addString conversion platform disk data = some (after, success)) :
    Holds (content ++ if success then Serialization.Serializer.utf8String conversion data else [])
      after := by
  have bytes (utf8 : List UInt8) :
      State.bytesAt (fun index => utf8.getD index 0) utf8.length = utf8 := by
    rw [State.bytesAt, Int.toNat_natCast]
    apply List.ext_getElem
    · simp
    · intro index _ inside
      simp [inside]
  have holds := addData_holds holds done
  rw [bytes] at holds
  exact holds

theorem reserve_cells (num : Int) (buffer : MemoryBuffer) :
    (buffer.reserve num).cells = buffer.cells := by
  rw [MemoryBuffer.reserve]
  split <;> rfl

theorem reserve_holds (holds : Holds content state) (length : Int) :
    Holds content (state.reserve platform disk length) := by
  rw [State.reserve]
  split
  · split
    · have added := @addDataToFile_holds _ _ disk holds []
      rw [ite_self, List.append_nil] at added
      exact added
    · refine ⟨holds.length, holds.fits, ?_, holds.file, holds.atEnd⟩
      intro absent
      exact (reserve_cells length state.data).trans (holds.data absent)
  · exact holds

theorem getDataElement_holds (holds : Holds content state) :
    Holds content (state.getDataElement platform).1 := by
  rw [State.getDataElement]
  simp only
  split
  · refine ⟨holds.length, holds.fits, ?_, holds.file, holds.atEnd⟩
    intro absent
    exact (reserve_cells _ state.data).trans (holds.data absent)
  · exact holds

theorem finalize_holds (holds : Holds content state) : Holds content state.finalize :=
  ⟨holds.length, holds.fits, holds.data, holds.file, holds.atEnd⟩

end

end ThreadIpc.ByteStore
