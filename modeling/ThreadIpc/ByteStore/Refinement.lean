import ThreadIpc.ByteStore.Reading
import ThreadIpc.Lib.Reachability
import Mathlib.Data.List.TakeWhile

/-!
# `ByteStore` as a sequence of bytes

A run goes beside the bytes of the adds that were reported as successful. Where no string has a zero
inside and no sum of sizes overflows, every read answers from these bytes, wherever they are kept.
-/

namespace ThreadIpc.ByteStore
open Lib
open Serialization (Conversion)
open Serialization.Serializer (utf8String)

inductive Action
  | addData (disk : Disk) (data : Nat → UInt8) (length : Int)
  | addDataDirect (writer : List WriterCall) (maxLength : Int)
  | addString (disk : Disk) (data : List UInt16)
  | reserve (disk : Disk) (length : Int)
  | getDataElement
  | createBlob
  | read (offset maxLength : Int)
  | readDirect (reader : List Nat) (offset maxLength : Int)
  | finalize

variable (conversion : Conversion) (platform : Platform)

def State.perform (state : State) : Action → Option (State × List UInt8)
  | .addData disk data length =>
      (state.addData platform disk data length).map fun (state, success) =>
        (state, if success then bytesAt data length else [])
  | .addDataDirect writer maxLength =>
      (state.addDataDirect platform writer maxLength).map fun (state, result) =>
        (state, result.wrote.take result.total)
  | .addString disk data =>
      (state.addString conversion platform disk data).map fun (state, success) =>
        (state, if success then (conversion.string16ToUTF8 data).getD [] else [])
  | .reserve disk length => some (state.reserve platform disk length, [])
  | .getDataElement => some ((state.getDataElement platform).1, [])
  | .createBlob => some (state, [])
  | .read offset maxLength => some ((state.read offset maxLength).1, [])
  | .readDirect reader offset maxLength =>
      some ((state.readDirect platform reader offset maxLength).1, [])
  | .finalize => some (state.finalize, [])

structure Run where
  store : Option State
  content : List UInt8

def Run.init : Run := ⟨some .init, []⟩

def step (run : Run) (action : Action) : Option Run :=
  run.store.map fun state => match state.perform conversion platform action with
    | none => ⟨none, run.content⟩
    | some (state, added) => ⟨some state, run.content ++ added⟩

def Action.IsSynchronous : Action → Prop
  | .addDataDirect writer _ => Synchronous writer
  | _ => True

/-- Beside what memory holds already, so many bytes can be counted in an `int64`. -/
def State.CanCount (state : State) (length : Int) : Prop :=
  state.isUsingData → length + state.data.size ≤ maxInt64

def Action.Harmless (state : State) : Action → Prop
  | .addData _ _ length => state.CanCount length
  | .addDataDirect _ maxLength => state.CanCount maxLength
  | .addString _ data => 0 ∉ data ∧ state.CanCount (utf8String conversion data).length
  | _ => True

structure Presents (content : List UInt8) (state : State) : Prop where
  length : state.length = content.length
  counts : state.length ≤ maxInt64
  read : ∀ offset maxLength : Int, 0 ≤ offset → 0 ≤ maxLength →
    (state.read offset maxLength).2 = some ((range content offset.toNat maxLength.toNat).map some)
  readDirect : ∀ reader (offset maxLength : Int), 0 ≤ offset → 0 ≤ maxLength → ∃ calls,
    (state.readDirect platform reader offset maxLength).2 = some calls ∧
      HandsOver (range content offset.toNat maxLength.toNat) calls

def Run.Correct (run : Run) : Prop :=
  ∃ state, run.store = some state ∧ Presents platform run.content state

section
variable {conversion : Conversion} {platform : Platform} {content : List UInt8} {state : State}

theorem Holds.presents (holds : Holds content state) : Presents platform content state where
  length := holds.length
  counts := holds.length ▸ holds.fits
  read _ _ offset maxLength := read_reads holds offset maxLength
  readDirect reader _ _ offset maxLength := readDirect_hands holds reader offset maxLength

theorem addData_defined {disk : Disk} {data : Nat → UInt8} {length : Int}
    (canCount : state.CanCount length) : state.addData platform disk data length ≠ none := by
  rw [State.addData]
  split
  · exact Option.some_ne_none _
  · split
    · exact Option.some_ne_none _
    · simp only
      split
      · rename_i inMemory
        rw [if_neg (Int.not_lt.mpr (canCount inMemory))]
        split <;> exact Option.some_ne_none _
      · exact Option.some_ne_none _

theorem addDataDirect_defined {writer : List WriterCall} {maxLength : Int}
    (canCount : state.CanCount maxLength) :
    state.addDataDirect platform writer maxLength ≠ none := by
  rw [State.addDataDirect]
  split
  · exact Option.some_ne_none _
  · simp only
    split
    · rename_i inMemory
      rw [if_neg (Int.not_lt.mpr (canCount inMemory))]
      split <;> exact Option.some_ne_none _
    · exact Option.some_ne_none _

theorem addData_canCount {disk : Disk} {data : Nat → UInt8} {length : Int} {result : State × Bool}
    (positive : 0 < length) (done : state.addData platform disk data length = some result) :
    state.CanCount length := by
  intro inMemory
  rw [State.addData, if_neg (by omega), if_neg positive.ne'] at done
  simp only at done
  rw [if_pos inMemory] at done
  split at done
  · contradiction
  · rename_i counted
    exact Int.not_lt.mp counted

theorem addDataDirect_canCount {writer : List WriterCall} {maxLength : Int}
    {result : State × DirectAdd} (nonneg : 0 ≤ maxLength)
    (done : state.addDataDirect platform writer maxLength = some result) :
    state.CanCount maxLength := by
  intro inMemory
  rw [State.addDataDirect, if_neg (Int.not_lt.mpr nonneg)] at done
  simp only at done
  rw [if_pos inMemory] at done
  split at done
  · contradiction
  · rename_i counted
    exact Int.not_lt.mp counted

theorem utf8String_whole {data : List UInt16} (noZero : 0 ∉ data) :
    utf8String conversion data = (conversion.string16ToUTF8 data).getD [] := by
  have whole : data.takeWhile (· != 0) = data := by
    rw [List.takeWhile_eq_self_iff]
    exact fun unit member => bne_iff_ne.mpr (ne_of_mem_of_not_mem member noZero)
  rw [utf8String, whole]

theorem perform_holds (holds : Holds content state) {action : Action}
    (synchronous : action.IsSynchronous) (harmless : action.Harmless conversion state) :
    ∃ after added, state.perform conversion platform action = some (after, added) ∧
      Holds (content ++ added) after := by
  have keeps {after : State} (holds : Holds content after) : Holds (content ++ []) after := by
    rw [List.append_nil]
    exact holds
  cases action with
  | addData disk data length =>
      obtain ⟨⟨after, success⟩, done⟩ := Option.ne_none_iff_exists'.mp
        (addData_defined harmless : state.addData platform disk data length ≠ none)
      refine ⟨after, _, ?_, addData_holds holds done⟩
      rw [State.perform, done]
      rfl
  | addDataDirect writer maxLength =>
      obtain ⟨⟨after, result⟩, done⟩ := Option.ne_none_iff_exists'.mp
        (addDataDirect_defined harmless : state.addDataDirect platform writer maxLength ≠ none)
      refine ⟨after, _, ?_, addDataDirect_adds holds synchronous done⟩
      rw [State.perform, done]
      rfl
  | addString disk data =>
      obtain ⟨noZero, canCount⟩ := harmless
      obtain ⟨⟨after, success⟩, done⟩ := Option.ne_none_iff_exists'.mp
        (addData_defined canCount : state.addString conversion platform disk data ≠ none)
      have done : state.addString conversion platform disk data = some (after, success) := done
      have added := addString_holds holds done
      rw [utf8String_whole noZero] at added
      refine ⟨after, _, ?_, added⟩
      rw [State.perform, done]
      rfl
  | reserve disk length => exact ⟨_, [], rfl, keeps (reserve_holds holds length)⟩
  | getDataElement => exact ⟨_, [], rfl, keeps (getDataElement_holds holds)⟩
  | createBlob => exact ⟨_, [], rfl, keeps holds⟩
  | read offset maxLength => exact ⟨_, [], rfl, keeps (read_holds holds offset maxLength)⟩
  | readDirect reader offset maxLength =>
      exact ⟨_, [], rfl, keeps (readDirect_holds holds reader offset maxLength)⟩
  | finalize => exact ⟨_, [], rfl, keeps (finalize_holds holds)⟩

/-- As long as the steps are harmless, the store shows the bytes of the successful adds. -/
theorem byteStore_refines_bytes {run : Run}
    (reach : Lib.Reachable (step conversion platform) (fun run action => action.IsSynchronous ∧
      ∀ state ∈ run.store, action.Harmless conversion state) .init run) :
    run.Correct platform := by
  have inv : ∃ state, run.store = some state ∧ Holds run.content state := by
    induction reach with
    | start => exact ⟨.init, rfl, init_holds⟩
    | next _ allowed moved ih =>
        obtain ⟨synchronous, harmless⟩ := allowed
        obtain ⟨state, store, holds⟩ := ih
        obtain ⟨after, added, performed, holds⟩ :=
          @perform_holds conversion platform _ _ holds _ synchronous (harmless state store)
        rw [step, store, Option.map_some, performed] at moved
        cases moved
        exact ⟨after, rfl, holds⟩
  obtain ⟨state, store, holds⟩ := inv
  exact ⟨state, store, holds.presents⟩

end

def ascii : Conversion where
  string16ToUTF8 data :=
    if data.all (· < 128) then some (data.map UInt16.toUInt8) else none
  utf8ToString16 utf8 := some (utf8.map UInt8.toUInt16)

def goodDisk : Disk := ⟨true, .complete, .complete⟩

def fullDisk : Disk := ⟨true, .failed 0, .failed 1⟩

instance (action : Action) : Decidable action.IsSynchronous :=
  match action with
  | .addDataDirect writer _ => inferInstanceAs (Decidable (∀ call ∈ writer, call.offered ≠ none))
  | .addData .. | .addString .. | .reserve .. | .getDataElement | .createBlob | .read ..
  | .readDirect .. | .finalize => inferInstanceAs (Decidable True)

instance (state : State) (length : Int) : Decidable (state.CanCount length) :=
  inferInstanceAs (Decidable (state.isUsingData → _))

instance (conversion : Conversion) (state : State) (action : Action) :
    Decidable (action.Harmless conversion state) :=
  match action with
  | .addData _ _ length | .addDataDirect _ length =>
      inferInstanceAs (Decidable (state.CanCount length))
  | .addString _ data =>
      inferInstanceAs (Decidable (0 ∉ data ∧ state.CanCount (utf8String conversion data).length))
  | .reserve .. | .getDataElement | .createBlob | .read .. | .readDirect .. | .finalize =>
      inferInstanceAs (Decidable True)

/-- Both moves to a file fail at first, and so does one write to it. -/
def mixedStorage : List Action :=
  [.addString goodDisk [97, 98], .getDataElement,
    .addDataDirect [⟨some [1, 2, 3], goodDisk⟩, ⟨some [4, 5], goodDisk⟩] 4,
    .reserve ⟨false, .complete, .complete⟩ 40000, .reserve fullDisk 40000, .read 1 3,
    .reserve goodDisk 40000, .addData fullDisk (fun _ => 7) 3, .read 2 1,
    .addDataDirect [⟨some [8], goodDisk⟩, ⟨some [9, 9], fullDisk⟩] 10, .createBlob,
    .readDirect [2, 3] 1 9, .addData goodDisk (fun _ => 6) 2, .finalize]

def mixed : Run :=
  Lib.final (step ascii .android) (fun run action => action.IsSynchronous ∧
    ∀ state ∈ run.store, action.Harmless ascii state) .init mixedStorage (by decide +kernel)

theorem mixed_correct :
    mixed.content = [97, 98, 1, 2, 3, 4, 8, 6, 6] ∧ mixed.Correct .android := by
  have reach : Lib.Reachable (step ascii .android) (fun run action => action.IsSynchronous ∧
      ∀ state ∈ run.store, action.Harmless ascii state) .init mixed :=
    Lib.reachable_final mixedStorage (by decide +kernel)
  exact ⟨by decide +kernel, byteStore_refines_bytes reach⟩

def cutString : Run :=
  Lib.final (step ascii .other) (fun _ action => action.IsSynchronous) .init
    [.addString goodDisk [97, 0, 98]] (by decide +kernel)

def overflown : Run :=
  Lib.final (step ascii .other) (fun _ action => action.IsSynchronous) .init
    [.addData goodDisk (fun _ => 7) 1, .addDataDirect [] maxInt64] (by decide +kernel)

/-- What is behind the zero of a string is lost, and the sum of two sizes overflows. -/
theorem string_cut_and_size_overflown :
    (Lib.Reachable (step ascii .other) (fun _ action => action.IsSynchronous) .init cutString ∧
      cutString.content = [97, 0, 98] ∧ cutString.store.map (·.length) = some 1 ∧
      ¬ cutString.Correct .other) ∧
    Lib.Reachable (step ascii .other) (fun _ action => action.IsSynchronous) .init overflown ∧
      overflown.store = none ∧ ¬ overflown.Correct .other := by
  have content : cutString.content = [97, 0, 98] := by decide +kernel
  have shown : cutString.store.map (·.length) = some 1 := by decide +kernel
  have unknown : overflown.store = none := by decide +kernel
  refine ⟨⟨Lib.reachable_final _ _, content, shown, ?_⟩, Lib.reachable_final _ _, unknown, ?_⟩
  · rintro ⟨state, store, presents⟩
    have length := presents.length
    rw [store, Option.map_some, Option.some.injEq] at shown
    rw [shown, content] at length
    contradiction
  · rintro ⟨state, store, _⟩
    exact nomatch unknown.symm.trans store

end ThreadIpc.ByteStore
