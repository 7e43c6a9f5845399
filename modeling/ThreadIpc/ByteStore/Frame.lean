import ThreadIpc.ByteStore.Model

/-!
# What an access to the file leaves alone
-/

namespace ThreadIpc.ByteStore

structure Filed (before after : State) : Prop where
  preserveData : after.preserveData = before.preserveData
  asyncAddLength : after.asyncAddLength = before.asyncAddLength
  writeBuffer : after.writeBuffer = before.writeBuffer
  data : after.data = before.data ∨ before.preserveData = false ∧ after.data = before.data.clear

section
variable {before middle after : State}

theorem Filed.refl (state : State) : Filed state state := ⟨rfl, rfl, rfl, .inl rfl⟩

theorem Filed.trans (first : Filed before middle) (second : Filed middle after) :
    Filed before after where
  preserveData := second.preserveData.trans first.preserveData
  asyncAddLength := second.asyncAddLength.trans first.asyncAddLength
  writeBuffer := second.writeBuffer.trans first.writeBuffer
  data := by
    rcases first.data with same | ⟨free, cleared⟩
    · rcases second.data with same' | ⟨free', cleared'⟩
      · exact .inl (same'.trans same)
      · rw [cleared', same]
        exact .inr ⟨first.preserveData.symm.trans free', rfl⟩
    · rcases second.data with same' | ⟨_, cleared'⟩
      · exact .inr ⟨free, same'.trans cleared⟩
      · rw [cleared', cleared]
        exact .inr ⟨free, rfl⟩

theorem openFile_filed {disk : Disk} {file : File}
    (done : before.openFile disk = some (after, file)) : Filed before after := by
  rw [State.openFile] at done
  split at done
  · cases done
    exact .refl _
  · rw [Option.ite_none_right_eq_some] at done
    obtain ⟨_, done⟩ := done
    simp only at done
    rw [Option.ite_none_right_eq_some] at done
    obtain ⟨_, done⟩ := done
    cases done
    split
    · exact .refl _
    · rename_i free
      exact ⟨rfl, rfl, rfl, .inr ⟨Bool.eq_false_iff.mpr free, rfl⟩⟩

theorem appendToFile_filed (disk : Disk) (data : List Cell) (file : File) (state : State) :
    Filed state (state.appendToFile disk data file).1 := by
  rw [State.appendToFile]
  split <;> exact ⟨rfl, rfl, rfl, .inl rfl⟩

theorem addDataToFile_filed (disk : Disk) (data : List Cell) (state : State) :
    Filed state (state.addDataToFile disk data).1 := by
  rw [State.addDataToFile]
  split
  · exact .refl _
  · rename_i opened file done
    have filed := openFile_filed done
    split
    · exact filed.trans ⟨rfl, rfl, rfl, .inl rfl⟩
    · split
      · have writing : Filed opened { opened with fileOp := .write } := ⟨rfl, rfl, rfl, .inl rfl⟩
        exact (filed.trans writing).trans (appendToFile_filed disk data _ _)
      · exact filed.trans (appendToFile_filed disk data _ _)

theorem readFromFile_filed (offset maxLength : Nat) (state : State) :
    Filed state (state.readFromFile offset maxLength).1 := by
  rw [State.readFromFile]
  split <;> exact ⟨rfl, rfl, rfl, .inl rfl⟩

theorem readThroughBuffer_filed (reader : List Nat) (offset maxLength bufferSize : Nat)
    (state : State) :
    Filed state (state.readThroughBuffer reader offset maxLength bufferSize).1 := by
  have round (offset bufferSize : Nat) (state : State) (source : List Cell) : Filed state
      { (state.readFromFile offset bufferSize).1 with
        readBuffer := (state.readFromFile offset bufferSize).1.readBuffer.write 0 source } :=
    (readFromFile_filed offset bufferSize state).trans ⟨rfl, rfl, rfl, .inl rfl⟩
  induction reader generalizing offset maxLength bufferSize state with
  | nil =>
      rw [State.readThroughBuffer]
      split
      · exact .refl _
      · simp only
        split <;> exact round _ _ _ _
  | cons wanted reader ih =>
      rw [State.readThroughBuffer]
      split
      · exact .refl _
      · simp only
        split
        · exact round _ _ _ _
        · split
          · exact round _ _ _ _
          · exact (round _ _ _ _).trans (ih _ _ _ _)

theorem read_filed (offset maxLength : Int) (state : State) :
    Filed state (state.read offset maxLength).1 := by
  rw [State.read]
  split
  · exact .refl _
  · split
    · split <;> exact .refl _
    · exact readFromFile_filed _ _ _

theorem readDirect_filed {platform : Platform} (reader : List Nat) (offset maxLength : Int)
    (state : State) : Filed state (state.readDirect platform reader offset maxLength).1 := by
  rw [State.readDirect]
  split
  · exact .refl _
  · split
    · split <;> exact .refl _
    · have grown (readBuffer : MemoryBuffer) : Filed state { state with readBuffer } :=
        ⟨rfl, rfl, rfl, .inl rfl⟩
      exact (grown _).trans (readThroughBuffer_filed reader _ _ _ _)

end

end ThreadIpc.ByteStore
