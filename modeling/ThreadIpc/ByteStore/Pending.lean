import ThreadIpc.ByteStore.Lending

namespace ThreadIpc.ByteStore
open Lib State
open Serialization (Conversion)

structure Pending.Keeps (platform : Platform) (content : List UInt8) (pending : Pending)
    (state : State) : Prop where
  async : state.asyncAddLength = pending.length
  some_ : 0 < pending.length
  block : (state.buffer pending.place).reallocations = pending.block
  data : pending.place = .data → pending.offset = content.length ∧
    Lends platform content pending.wrote pending.length state
  writeBuffer : pending.place = .writeBuffer → pending.offset = 0 ∧ Holds content state ∧
    pending.wrote.map some <+: state.writeBuffer.cells ∧ pending.length ≤ state.writeBuffer.size

structure AsyncRun.Sound (platform : Platform) (run : AsyncRun) (state : State) : Prop where
  roomy : state.Roomy platform
  kept : ∀ pending ∈ run.pending, pending.Keeps platform run.content state
  settled : run.pending = none → Holds run.content state ∧ state.asyncAddLength = 0

section
variable {conversion : Conversion} {platform : Platform} {content wrote bytes : List UInt8}
  {state after : State} {room : Nat} {pending : Pending} {run : AsyncRun}

theorem Lends.inMemory (lends : Lends platform content wrote room state) :
    state.isUsingData = true :=
  Option.isNone_iff_eq_none.mpr lends.absent

theorem Lends.size (lends : Lends platform content wrote room state) :
    state.data.size = content.length + room := by
  obtain ⟨rest, cells, behind⟩ := lends.cells
  rw [MemoryBuffer.size, cells]
  simp only [List.length_append, List.length_map]
  omega

theorem Lends.isPrefix (lends : Lends platform content wrote room state) :
    content.map some <+: state.data.cells := by
  obtain ⟨rest, cells, _⟩ := lends.cells
  rw [cells, List.map_append, List.append_assoc]
  exact List.prefix_append _ _

theorem Lends.wrote_isPrefix (lends : Lends platform content wrote room state) :
    wrote.map some <+: state.data.cells.drop content.length := by
  obtain ⟨rest, cells, _⟩ := lends.cells
  have skipped : content.length = (content.map some : List Cell).length := by simp
  rw [cells, List.map_append, List.append_assoc, skipped, List.drop_left]
  exact List.prefix_append _ _

theorem Pending.Keeps.intact (keeps : pending.Keeps platform content state) :
    pending.Intact state := by
  cases place : pending.place with
  | data =>
      obtain ⟨offset, lends⟩ := keeps.data place
      constructor
      · exact fun _ => lends.inMemory
      · exact keeps.block
      · rw [place, offset]
        exact lends.wrote_isPrefix
      · rw [place, offset]
        exact lends.size.ge
  | writeBuffer =>
      obtain ⟨offset, _, wrote, fits⟩ := keeps.writeBuffer place
      constructor
      · rw [place]
        exact nofun
      · exact keeps.block
      · rw [place, offset]
        exact wrote
      · rw [place, offset, Nat.zero_add]
        exact fits

theorem Pending.Keeps.shows (keeps : pending.Keeps platform content state) :
    Shows platform content state := by
  cases place : pending.place with
  | data =>
      obtain ⟨_, lends⟩ := keeps.data place
      exact shows_of_prefix lends.inMemory lends.length lends.isPrefix
  | writeBuffer => exact (keeps.writeBuffer place).2.1.shows

theorem AsyncRun.Sound.correctIn (sound : run.Sound platform state) :
    run.CorrectIn platform state := by
  constructor
  · cases waiting : run.pending with
    | none => exact (sound.settled waiting).1.shows
    | some pending => exact (sound.kept pending waiting).shows
  · exact fun pending waiting => (sound.kept pending waiting).intact
  · exact fun settled => (sound.settled settled).1.presents

theorem init_sound : AsyncRun.init.Sound platform .init where
  roomy := init_roomy
  kept := nofun
  settled _ := ⟨init_holds, rfl⟩

theorem openFile_fails {disk : Disk} (absent : state.file = none) (some_ : 0 < state.data.size)
    (fails : disk.creates = true → disk.copy ≠ .complete) : state.openFile disk = none := by
  have nonempty : state.data.cells ≠ [] := List.length_pos_iff.mp some_
  rw [State.openFile, absent]
  simp only
  rw [if_neg nonempty]
  split
  · rename_i created
    cases copy : disk.copy with
    | complete => exact absurd copy (fails created)
    | failed written => rfl
  · rfl

theorem openFile_succeeds {disk : Disk} (absent : state.file = none) (created : disk.creates = true)
    (copied : disk.copy = .complete) (fits : state.data.size ≤ maxInt64) :
    ∃ opened file, state.openFile disk = some (opened, file) := by
  rw [State.openFile, absent]
  simp only
  rw [if_pos created, copied]
  by_cases nothing : state.data.cells = []
  · rw [if_pos nothing]
    exact ⟨_, _, rfl⟩
  · have room : (SeekFile.empty : File).position + state.data.cells.length ≤ maxInt64 := by
      rw [SeekFile.empty, Nat.zero_add]
      exact fits
    rw [if_neg nothing, writeToFile, if_pos room]
    exact ⟨_, _, rfl⟩

theorem perform_lent (lends : Lends platform content wrote room state) (some_ : 0 < room)
    {action : Action} (mayCall : (⟨some state, content, some pending⟩ : AsyncRun).MayCall action)
    (respects : action.Respects platform state) :
    state.perform conversion platform action = some (state, []) := by
  have inMemory := lends.inMemory
  cases action with
  | addData | addDataDirect | finalize => exact nomatch mayCall
  | addString => exact mayCall.elim
  | reserve disk length =>
      rw [State.perform, State.reserve, if_pos inMemory]
      rw [Action.Respects] at respects
      split at respects
      · rename_i small
        rw [if_neg (Int.not_lt.mpr small), reserve_of_lt respects]
      · rename_i large
        rw [if_pos (Int.not_le.mp large), addDataToFile, openFile_fails lends.absent _ respects]
        rw [lends.size]
        exact Nat.add_pos_right _ some_
  | getDataElement =>
      rw [State.perform, State.getDataElement]
      rcases respects with finalized | preserved
      · simp [finalized]
      · simp [preserved]
  | createBlob => rfl
  | read offset maxLength =>
      rw [State.perform, State.read, if_pos inMemory]
      split
      · rfl
      · split <;> rfl
  | readDirect reader offset maxLength =>
      rw [State.perform, readDirect, if_pos inMemory]
      split
      · rfl
      · split <;> rfl

theorem addData_asyncAddLength {disk : Disk} {data : Nat → UInt8} {length : Int} {success : Bool}
    (done : state.addData platform disk data length = some (after, success)) :
    after.asyncAddLength = state.asyncAddLength := by
  rw [State.addData] at done
  split at done
  · cases done
    rfl
  · split at done
    · cases done
      rfl
    · simp only at done
      have filed := addDataToFile_filed disk ((bytesAt data length).map some) state
      split at done
      · split at done
        · contradiction
        · split at done
          · cases done
            rfl
          · rw [Option.some.inj done] at filed
            exact filed.asyncAddLength
      · rw [Option.some.inj done] at filed
        exact filed.asyncAddLength

theorem reserve_beside (disk : Disk) (length : Int) :
    (state.reserve platform disk length).asyncAddLength = state.asyncAddLength ∧
      (state.reserve platform disk length).writeBuffer = state.writeBuffer := by
  rw [State.reserve]
  split
  · split
    · have filed := addDataToFile_filed disk [] state
      exact ⟨filed.asyncAddLength, filed.writeBuffer⟩
    · exact ⟨rfl, rfl⟩
  · exact ⟨rfl, rfl⟩

theorem getDataElement_beside :
    (state.getDataElement platform).1.asyncAddLength = state.asyncAddLength ∧
      (state.getDataElement platform).1.writeBuffer = state.writeBuffer := by
  rw [State.getDataElement]
  simp only
  split <;> exact ⟨rfl, rfl⟩

theorem perform_beside (holds : Holds content state) {action : Action}
    (mayCall : (⟨some state, content, some pending⟩ : AsyncRun).MayCall action) :
    ∃ after, state.perform conversion platform action = some (after, []) ∧ Holds content after ∧
      after.asyncAddLength = state.asyncAddLength ∧ after.writeBuffer = state.writeBuffer := by
  cases action with
  | addData | addDataDirect | finalize => exact nomatch mayCall
  | addString => exact mayCall.elim
  | reserve disk length => exact ⟨_, rfl, reserve_holds holds length, reserve_beside disk length⟩
  | getDataElement => exact ⟨_, rfl, getDataElement_holds holds, getDataElement_beside⟩
  | createBlob => exact ⟨_, rfl, holds, rfl, rfl⟩
  | read offset maxLength =>
      have filed := read_filed offset maxLength state
      exact ⟨_, rfl, read_holds holds offset maxLength, filed.asyncAddLength, filed.writeBuffer⟩
  | readDirect reader offset maxLength =>
      have filed := @readDirect_filed platform reader offset maxLength state
      exact ⟨_, rfl, readDirect_holds holds reader offset maxLength, filed.asyncAddLength,
        filed.writeBuffer⟩

theorem addDataDirect_keeps (holds : Holds content state) (idle : state.asyncAddLength = 0)
    {writer : List WriterCall} {maxLength : Int} {result : DirectAdd}
    (done : state.addDataDirect platform writer maxLength = some (after, result)) :
    let content := content ++ result.wrote.take result.total
    let started := AsyncRun.started platform state after (.addDataDirect writer maxLength)
    (∀ pending ∈ started, pending.Keeps platform content after) ∧
      (started = none → Holds content after ∧ after.asyncAddLength = 0) := by
  rcases addDataDirect_ends holds done with ⟨adds, same⟩ | ⟨_, some_, inData, inWriteBuffer⟩
  · have none_ : after.asyncAddLength = 0 := same.trans idle
    refine ⟨?_, fun _ => ⟨adds, none_⟩⟩
    intro pending waiting
    have nothing : AsyncRun.started platform state after (.addDataDirect writer maxLength) = none :=
      if_pos none_
    exact nomatch nothing.symm.trans waiting
  · simp only [AsyncRun.started, Nat.ne_of_gt some_, if_false]
    split
    · rename_i fits
      have lends := inData fits
      refine ⟨?_, nofun⟩
      rintro _ ⟨⟩
      constructor
      · rfl
      · exact some_
      · rfl
      · intro _
        refine ⟨?_, lends⟩
        show after.data.size - after.asyncAddLength = _
        rw [lends.size, Nat.add_sub_cancel]
      · exact nofun
    · rename_i past
      obtain ⟨adds, fits⟩ := inWriteBuffer past
      refine ⟨?_, nofun⟩
      rintro _ ⟨⟩
      constructor
      · rfl
      · exact some_
      · rfl
      · exact nofun
      · exact fun _ => ⟨rfl, adds, List.nil_prefix, fits⟩

theorem call_performs {action : Action} {added : List UInt8} (mayCall : run.MayCall action)
    (present : run.store = some state)
    (performed : state.perform conversion platform action = some (after, added)) :
    run.call conversion platform action = some ⟨some after, run.content ++ added,
      run.pending.or (AsyncRun.started platform state after action)⟩ := by
  rw [AsyncRun.call, if_pos mayCall, present, Option.map_some, performed]

theorem perform_asyncAddLength {action : Action} {added : List UInt8} (mayCall : run.MayCall action)
    (others : ∀ writer maxLength, action ≠ .addDataDirect writer maxLength)
    (performed : state.perform conversion platform action = some (after, added)) :
    after.asyncAddLength = state.asyncAddLength := by
  cases action with
  | addData disk data length =>
      obtain ⟨⟨_, success⟩, done, moved⟩ := Option.map_eq_some_iff.mp performed
      cases moved
      exact addData_asyncAddLength done
  | addDataDirect writer maxLength => exact absurd rfl (others writer maxLength)
  | addString => exact mayCall.elim
  | reserve disk length =>
      cases performed
      exact (reserve_beside disk length).1
  | getDataElement =>
      cases performed
      exact getDataElement_beside.1
  | createBlob | finalize =>
      cases performed
      rfl
  | read offset maxLength =>
      cases performed
      exact (read_filed offset maxLength state).asyncAddLength
  | readDirect reader offset maxLength =>
      cases performed
      exact (readDirect_filed reader offset maxLength state).asyncAddLength

theorem started_none {action : Action}
    (others : ∀ writer maxLength, action ≠ .addDataDirect writer maxLength) :
    AsyncRun.started platform state after action = none := by
  cases action with
  | addDataDirect writer maxLength => exact absurd rfl (others writer maxLength)
  | addData | addString | reserve | getDataElement | createBlob | read | readDirect | finalize => rfl

theorem call_sound_data {action : Action} {next : AsyncRun} (present : run.store = some state)
    (sound : run.Sound platform state) (waiting : run.pending = some pending)
    (place : pending.place = .data) (mayCall : run.MayCall action)
    (respects : action.Respects platform state)
    (called : run.call conversion platform action = some next) :
    ∃ after, next.store = some after ∧ next.Sound platform after := by
  obtain ⟨store, content, pending'⟩ := run
  obtain rfl : store = some state := present
  obtain rfl : pending' = some pending := waiting
  have keeps := sound.kept pending rfl
  have performed := @perform_lent conversion _ _ _ _ _ pending (keeps.data place).2 keeps.some_
    action mayCall respects
  rw [call_performs mayCall rfl performed, List.append_nil] at called
  cases called
  exact ⟨state, rfl, sound⟩

theorem call_sound_writeBuffer {action : Action} {next : AsyncRun} (present : run.store = some state)
    (sound : run.Sound platform state) (waiting : run.pending = some pending)
    (place : pending.place = .writeBuffer) (mayCall : run.MayCall action)
    (called : run.call conversion platform action = some next) :
    ∃ after, next.store = some after ∧ next.Sound platform after := by
  obtain ⟨store, content, pending'⟩ := run
  obtain rfl : store = some state := present
  obtain rfl : pending' = some pending := waiting
  have keeps := sound.kept pending rfl
  obtain ⟨offset, holds, wrote, fits⟩ := keeps.writeBuffer place
  obtain ⟨after, performed, holds, async, buffer⟩ :=
    @perform_beside conversion platform _ _ pending holds action mayCall
  rw [call_performs mayCall rfl performed, List.append_nil] at called
  cases called
  refine ⟨after, rfl, (perform_continues performed).roomy sound.roomy, ?_, nofun⟩
  rintro _ ⟨⟩
  constructor
  · exact async.trans keeps.async
  · exact keeps.some_
  · have block := keeps.block
    rw [place] at block ⊢
    show after.writeBuffer.reallocations = _
    rw [buffer]
    exact block
  · rw [place]
    exact nofun
  · intro _
    rw [buffer]
    exact ⟨offset, holds, wrote, fits⟩

theorem call_sound_direct {writer : List WriterCall} {maxLength : Int} {next : AsyncRun}
    (present : run.store = some state) (sound : run.Sound platform state)
    (settled : run.pending = none) (canCount : state.CanCount maxLength)
    (called : run.call conversion platform (.addDataDirect writer maxLength) = some next) :
    ∃ after, next.store = some after ∧ next.Sound platform after := by
  obtain ⟨holds, idle⟩ := sound.settled settled
  obtain ⟨⟨after, result⟩, done⟩ := Option.ne_none_iff_exists'.mp
    (addDataDirect_defined canCount : state.addDataDirect platform writer maxLength ≠ none)
  have performed : state.perform conversion platform (.addDataDirect writer maxLength) =
      some (after, result.wrote.take result.total) := by
    rw [State.perform, done]
    rfl
  have mayCall : run.MayCall (.addDataDirect writer maxLength) := settled
  obtain ⟨kept, finished⟩ := addDataDirect_keeps holds idle done
  rw [call_performs mayCall present performed, settled] at called
  cases called
  exact ⟨after, rfl, (perform_continues performed).roomy sound.roomy, kept, finished⟩

theorem call_sound_settled {action : Action} {next : AsyncRun} (present : run.store = some state)
    (sound : run.Sound platform state) (settled : run.pending = none) (mayCall : run.MayCall action)
    (others : ∀ writer maxLength, action ≠ .addDataDirect writer maxLength)
    (harmless : action.Harmless conversion state)
    (called : run.call conversion platform action = some next) :
    ∃ after, next.store = some after ∧ next.Sound platform after := by
  obtain ⟨holds, idle⟩ := sound.settled settled
  have synchronous : action.IsSynchronous := by
    cases action with
    | addDataDirect writer maxLength => exact absurd rfl (others writer maxLength)
    | addData | addString | reserve | getDataElement | createBlob | read | readDirect | finalize =>
        trivial
  obtain ⟨after, added, performed, holds⟩ :=
    @perform_holds conversion platform _ _ holds action synchronous harmless
  have same := perform_asyncAddLength mayCall others performed
  rw [call_performs mayCall present performed, settled, started_none others] at called
  cases called
  refine ⟨after, rfl, (perform_continues performed).roomy sound.roomy, nofun, ?_⟩
  exact fun _ => ⟨holds, same.trans idle⟩

theorem call_sound {action : Action} {next : AsyncRun} (sound : run.Sound platform state)
    (present : run.store = some state) (careful : run.Careful platform (.call action))
    (called : run.call conversion platform action = some next) :
    ∃ after, next.store = some after ∧ next.Sound platform after := by
  have mayCall : run.MayCall action := by
    by_contra never
    rw [AsyncRun.call, if_neg never] at called
    exact nomatch called
  obtain ⟨respects, canCount⟩ := careful
  cases waiting : run.pending with
  | some pending =>
      cases place : pending.place with
      | data =>
          exact call_sound_data present sound waiting place mayCall
            (respects state present pending waiting place) called
      | writeBuffer => exact call_sound_writeBuffer present sound waiting place mayCall called
  | none =>
      cases action with
      | addDataDirect writer maxLength =>
          exact call_sound_direct present sound waiting (canCount state present) called
      | addData disk data length =>
          exact call_sound_settled present sound waiting mayCall nofun (canCount state present) called
      | addString => exact mayCall.elim
      | reserve | getDataElement | createBlob | read | readDirect | finalize =>
          exact call_sound_settled present sound waiting mayCall nofun trivial called

theorem size_put {buffer : MemoryBuffer} {offset : Nat} {data : List Cell}
    (inside : offset + data.length ≤ buffer.size) : (buffer.put offset data).size = buffer.size := by
  rw [MemoryBuffer.size, MemoryBuffer.put, List.length_take, length_overwrite inside]
  exact Nat.min_self _

theorem put_behind {buffer : MemoryBuffer} {first : List Cell} {rest data : List Cell}
    (cells : buffer.cells = first ++ rest) (inside : data.length ≤ rest.length) :
    (buffer.put first.length data).cells = first ++ data ++ rest.drop data.length := by
  have fits : first.length + data.length ≤ buffer.cells.length := by
    rw [cells, List.length_append]
    exact Nat.add_le_add_left inside _
  rw [MemoryBuffer.put]
  simp only
  rw [MemoryBuffer.size, ← length_overwrite fits, List.take_length, cells, overwrite_append]

theorem put_isPrefix {buffer : MemoryBuffer} (kept : wrote.map some <+: buffer.cells)
    (inside : wrote.length + bytes.length ≤ buffer.size) :
    (wrote ++ bytes).map some <+: (buffer.put wrote.length (bytes.map some)).cells := by
  obtain ⟨rest, cells⟩ := kept
  have room : (bytes.map some : List Cell).length ≤ rest.length := by
    rw [MemoryBuffer.size, ← cells, List.length_append, List.length_map] at inside
    rw [List.length_map]
    exact Nat.le_of_add_le_add_left inside
  have first : wrote.length = (wrote.map some : List Cell).length := by simp
  rw [first, put_behind cells.symm room, List.map_append]
  exact List.prefix_append _ _

theorem Lends.write (lends : Lends platform content wrote room state)
    (inside : wrote.length + bytes.length ≤ room) :
    Lends platform content (wrote ++ bytes) room { state with
      data := state.data.put (content.length + wrote.length) (bytes.map some) } where
  absent := lends.absent
  length := lends.length
  fits := lends.fits
  cells := by
    obtain ⟨rest, cells, behind⟩ := lends.cells
    have first : content.length + wrote.length =
        ((content ++ wrote).map some : List Cell).length := by simp
    refine ⟨rest.drop bytes.length, ?_, ?_⟩
    · simp only
      rw [first, put_behind cells (by rw [List.length_map]; omega)]
      simp
    · rw [List.length_append, List.length_drop]
      omega

theorem write_sound {next : AsyncRun} (sound : run.Sound platform state)
    (present : run.store = some state)
    (wrote : run.step conversion platform (.write bytes) = some next) :
    ∃ after, next.store = some after ∧ next.Sound platform after := by
  obtain ⟨store, content, pending⟩ := run
  obtain rfl : store = some state := present
  cases pending with
  | none => exact nomatch wrote
  | some pending =>
      have keeps := sound.kept pending rfl
      obtain ⟨place, offset, block, length, before⟩ := pending
      simp only [AsyncRun.step, bind, Option.bind] at wrote
      split at wrote
      · contradiction
      · rename_i inside
        have inside : before.length + bytes.length ≤ length := Nat.not_lt.mp inside
        rw [if_neg (not_not.mpr keeps.block)] at wrote
        cases wrote
        cases place with
        | data =>
            obtain ⟨offset_eq, lends⟩ := keeps.data rfl
            obtain rfl : offset = content.length := offset_eq
            refine ⟨_, rfl, ⟨sound.roomy.grown, sound.roomy.whole⟩, ?_, nofun⟩
            rintro _ ⟨⟩
            exact ⟨keeps.async, keeps.some_, keeps.block, fun _ => ⟨rfl, lends.write inside⟩, nofun⟩
        | writeBuffer =>
            obtain ⟨offset_eq, holds, kept, fits⟩ := keeps.writeBuffer rfl
            obtain rfl : offset = 0 := offset_eq
            refine ⟨_, rfl, ⟨sound.roomy.grown, sound.roomy.whole⟩, ?_, nofun⟩
            rintro _ ⟨⟩
            refine ⟨keeps.async, keeps.some_, keeps.block, nofun, fun _ => ⟨rfl, ?_, ?_, ?_⟩⟩
            · exact ⟨holds.length, holds.fits, holds.data, holds.file, holds.atEnd⟩
            · have placed := put_isPrefix kept (inside.trans fits)
              rw [← Nat.zero_add before.length] at placed
              exact placed
            · refine fits.trans (Nat.le_of_eq (size_put ?_).symm)
              rw [List.length_map, Nat.zero_add]
              exact inside.trans fits

theorem resize_roomy {num : Nat} (roomy : state.Roomy platform)
    (num_le : num ≤ platform.kMaxBufferSize) (length asyncAddLength : Nat) :
    State.Roomy platform { state with data := state.data.resize num, length, asyncAddLength } where
  grown := reserve_grown roomy.grown (Int.ofNat_le.mpr num_le)
  whole preserved := reserve_keepsWhole (roomy.whole preserved) (Int.ofNat_le.mpr num_le)

theorem finish_lent (lends : Lends platform content wrote room state)
    (async : state.asyncAddLength = room) (some_ : 0 < room) (disk : Disk) {length : Nat}
    (within : length ≤ wrote.length) (roomy : state.Roomy platform) :
    ∃ after, state.addDataDirectFinishAsync disk length = some (after, true) ∧
      Holds (content ++ wrote.take length) after ∧ after.asyncAddLength = 0 ∧
        after.Roomy platform := by
  obtain ⟨rest, cells, behind⟩ := lends.cells
  have limit := platform.kMaxBufferSize_le
  have fits := lends.fits
  have total : (content ++ wrote.take length).length = content.length + length := by
    rw [List.length_append, List.length_take_of_le within]
  have cut : state.data.size - (state.asyncAddLength - length) =
      (content ++ wrote.take length).length := by
    rw [lends.size, async, total]
    omega
  have kept : (content ++ wrote.take length).map some <+: state.data.cells := by
    refine List.IsPrefix.trans ?_ ⟨rest, cells.symm⟩
    exact ((List.prefix_append_right_inj content).mpr (List.take_prefix length wrote)).map some
  have waiting : ¬ (length = 0 ∧ state.asyncAddLength = 0) := by omega
  have positive : ¬ state.data.size < state.asyncAddLength - length := by
    rw [lends.size, async]
    omega
  rw [State.addDataDirectFinishAsync, if_neg waiting, if_pos lends.inMemory, if_neg positive, cut]
  refine ⟨_, rfl, ?_, rfl, resize_roomy roomy (by omega) _ _⟩
  have counted : state.length + length = (content ++ wrote.take length).length := by
    rw [total, lends.length]
  exact @resize_holds _ { state with length := state.length + length, asyncAddLength := 0 }
    lends.absent kept counted (by omega)

theorem finish_filed (holds : Holds content state) (inFile : state.isUsingData = false)
    (some_ : 0 < state.asyncAddLength) (kept : wrote.map some <+: state.writeBuffer.cells)
    (disk : Disk) {length : Nat} (within : length ≤ wrote.length) (roomy : state.Roomy platform) :
    ∃ after success, state.addDataDirectFinishAsync disk length = some (after, success) ∧
      Holds (content ++ if success then wrote.take length else []) after ∧
        after.asyncAddLength = 0 ∧ after.Roomy platform := by
  have waiting : ¬ (length = 0 ∧ state.asyncAddLength = 0) := by omega
  have elsewhere : ¬ state.isUsingData = true := Bool.eq_false_iff.mp inFile
  have enough : ¬ state.writeBuffer.size < length := by
    have shorter := kept.length_le
    rw [List.length_map] at shorter
    exact Nat.not_lt.mpr (within.trans shorter)
  have source : state.writeBuffer.cells.take length = (wrote.take length).map some := by
    obtain ⟨rest, cells⟩ := kept
    have inside : length ≤ (wrote.map some : List Cell).length := by
      rw [List.length_map]
      exact within
    rw [← cells, List.take_append_of_le_length inside, List.map_take]
  rw [State.addDataDirectFinishAsync, if_neg waiting, if_neg elsewhere, if_neg enough, source]
  have added := @addDataToFile_holds _ _ disk holds (wrote.take length)
  have continues : Continues platform state
      (state.addDataToFile disk ((wrote.take length).map some)).1 :=
    (addDataToFile_filed disk _ state).spilled.continues
  have roomy := continues.roomy roomy
  refine ⟨_, _, rfl, ?_, rfl, roomy.grown, roomy.whole⟩
  exact ⟨added.length, added.fits, added.data, added.file, added.atEnd⟩

theorem finish_sound {disk : Disk} {length : Nat} {next : AsyncRun}
    (sound : run.Sound platform state) (present : run.store = some state)
    (careful : run.Careful platform (.finish disk length))
    (finished : run.step conversion platform (.finish disk length) = some next) :
    ∃ after, next.store = some after ∧ next.Sound platform after := by
  obtain ⟨store, content, pending⟩ := run
  obtain rfl : store = some state := present
  cases pending with
  | none => exact nomatch finished
  | some pending =>
      have keeps := sound.kept pending rfl
      simp only [AsyncRun.step, bind, Option.bind] at finished
      split at finished
      · contradiction
      · rename_i inside
        have within := Nat.not_lt.mp inside
        cases place : pending.place with
        | data =>
            obtain ⟨_, lends⟩ := keeps.data place
            obtain ⟨after, done, holds, idle, roomy⟩ :=
              finish_lent lends keeps.async keeps.some_ disk within sound.roomy
            rw [done] at finished
            cases finished
            exact ⟨after, rfl, roomy, nofun, fun _ => ⟨holds, idle⟩⟩
        | writeBuffer =>
            obtain ⟨_, holds, kept, _⟩ := keeps.writeBuffer place
            obtain ⟨after, success, done, holds, idle, roomy⟩ :=
              finish_filed holds (careful state rfl pending rfl place)
                (keeps.async ▸ keeps.some_) kept disk within sound.roomy
            rw [done] at finished
            cases finished
            exact ⟨after, rfl, roomy, nofun, fun _ => ⟨holds, idle⟩⟩

end

end ThreadIpc.ByteStore
