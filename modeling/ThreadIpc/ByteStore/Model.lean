import ThreadIpc.Lib.SeekFile
import ThreadIpc.Serialization.Model

/-!
# `MemoryBuffer`

The bytes up to `size_` are kept, those between it and `capacity_` hold nothing that counts.
Allocations succeed; each call of `realloc` may move the block, so they are numbered.
-/

namespace ThreadIpc.ByteStore
open Lib

/-- A byte of memory or of a file; nobody has written it yet when it is `none`. -/
abbrev Cell := Option UInt8

structure MemoryBuffer where
  capacity : Nat
  cells : List Cell
  reallocations : Nat
  deriving DecidableEq

namespace MemoryBuffer

def gInitialCapacity : Nat := 16

def empty : MemoryBuffer := ⟨0, [], 0⟩

def size (buffer : MemoryBuffer) : Nat := buffer.cells.length

/-- An `int64` can be doubled 63 times at most. -/
def doubled (num : Int) : Nat → Nat → Nat
  | 0, capacity => capacity
  | times + 1, capacity => if capacity < num then doubled num times (capacity * 2) else capacity

def reserve (num : Int) (buffer : MemoryBuffer) : MemoryBuffer :=
  if num < buffer.capacity then buffer
  else { buffer with
    capacity := doubled num 63 (if buffer.capacity = 0 then gInitialCapacity else buffer.capacity)
    reallocations := buffer.reallocations + 1 }

def resize (num : Nat) (buffer : MemoryBuffer) : MemoryBuffer :=
  { buffer.reserve num with cells := Lib.padded none num buffer.cells }

def append (data : List Cell) (buffer : MemoryBuffer) : MemoryBuffer :=
  { buffer.reserve (buffer.size + data.length) with cells := buffer.cells ++ data }

def clear (buffer : MemoryBuffer) : MemoryBuffer := { buffer with cells := [] }

def write (offset : Nat) (data : List Cell) (buffer : MemoryBuffer) : MemoryBuffer :=
  { buffer with cells := Lib.overwrite none offset data buffer.cells }

end MemoryBuffer

/-!
# `ByteStore`

Every operation holds `mutex_`. The assertions are compiled out. A signed overflow, behind which
nothing can be said, is the result `none`. A call of a `Writer` or of a `Reader` is what it offers
to write or to take; it respects the length that it is given, and one without further calls returns
zero. The file is open for reading and writing; it cannot grow past the largest `int64`.
-/

inductive Platform
  | android
  | other
  deriving DecidableEq

def Platform.kMaxBufferSize : Platform → Nat
  | .android => 32 * 1024
  | .other => 1024 * 1024

def maxInt64 : Nat := 2 ^ 63 - 1

abbrev File := SeekFile Cell

inductive WriteOutcome
  | complete
  | failed (written : Nat)
  deriving DecidableEq

def writeToFile (outcome : WriteOutcome) (source : List Cell) (file : File) : File × Bool :=
  match outcome with
  | .complete =>
      if file.position + source.length ≤ maxInt64 then (file.write (some 0) source, true)
      else (file, false)
  | .failed written => (file.write (some 0) (source.take written), false)

structure Disk where
  creates : Bool
  copy : WriteOutcome
  write : WriteOutcome
  deriving DecidableEq

inductive OpenAccessMode
  | read
  | write
  deriving DecidableEq

structure State where
  data : MemoryBuffer
  file : Option File
  fileOp : OpenAccessMode
  isFinalized : Bool
  preserveData : Bool
  readBuffer : MemoryBuffer
  writeBuffer : MemoryBuffer
  asyncAddLength : Nat
  length : Nat
  deriving DecidableEq

def State.init : State where
  data := .empty
  file := none
  fileOp := .write
  isFinalized := false
  preserveData := false
  readBuffer := .empty
  writeBuffer := .empty
  asyncAddLength := 0
  length := 0

structure WriterCall where
  /-- `ASYNC` when it is `none`. -/
  offered : Option (List UInt8)
  disk : Disk
  deriving DecidableEq

structure DirectAdd where
  total : Nat
  wrote : List UInt8
  deriving DecidableEq

inductive DataElement
  | filePath
  | bytes (data : List Cell)
  deriving DecidableEq

structure Blob where
  length : Nat
  deriving DecidableEq

namespace State

def isUsingData (state : State) : Bool := state.file.isNone

def openFile (disk : Disk) (state : State) : Option (State × File) :=
  match state.file with
  | some file => some (state, file)
  | none =>
      if disk.creates then
        let (file, copied) :=
          if state.data.cells = [] then (SeekFile.empty, true)
          else writeToFile disk.copy state.data.cells SeekFile.empty
        if copied then
          some (if state.preserveData then state else { state with data := state.data.clear }, file)
        else none
      else none

def appendToFile (disk : Disk) (data : List Cell) (file : File) (state : State) : State × Bool :=
  match writeToFile disk.write data file with
  | (written, true) =>
      ({ state with file := some written, length := state.length + data.length }, true)
  | (written, false) =>
      ({ state with file := some (written.truncate (some 0) file.position).seekEnd }, false)

def addDataToFile (disk : Disk) (data : List Cell) (state : State) : State × Bool :=
  match state.openFile disk with
  | none => (state, false)
  | some (state, file) =>
      if data = [] then ({ state with file := some file }, true)
      else if state.fileOp = .read then
        { state with fileOp := .write }.appendToFile disk data file.seekEnd
      else state.appendToFile disk data file

def bytesAt (data : Nat → UInt8) (length : Int) : List UInt8 :=
  (List.range length.toNat).map data

def addData (platform : Platform) (disk : Disk) (data : Nat → UInt8) (length : Int) (state : State) :
    Option (State × Bool) :=
  if length < 0 then some (state, false)
  else if length = 0 then some (state, true)
  else
    let bytes := (bytesAt data length).map some
    if state.isUsingData then
      if length + state.data.size > maxInt64 then none
      else if length + state.data.size ≤ platform.kMaxBufferSize then
        some ({ state with
          data := state.data.append bytes, length := state.length + length.toNat }, true)
      else some (state.addDataToFile disk bytes)
    else some (state.addDataToFile disk bytes)

def addToData : List WriterCall → (offset maxLength : Nat) → State → State × DirectAdd
  | [], offset, _, state => ({ state with data := state.data.resize offset }, ⟨0, []⟩)
  | call :: writer, offset, maxLength, state =>
      if maxLength = 0 then ({ state with data := state.data.resize offset }, ⟨0, []⟩)
      else match call.offered with
        | none => ({ state with asyncAddLength := maxLength }, ⟨0, []⟩)
        | some offered =>
            let bytes := offered.take maxLength
            if bytes = [] then ({ state with data := state.data.resize offset }, ⟨0, []⟩)
            else
              let (state, later) := addToData writer (offset + bytes.length)
                (maxLength - bytes.length) { state with
                  data := state.data.write offset (bytes.map some)
                  length := state.length + bytes.length }
              (state, ⟨bytes.length + later.total, bytes ++ later.wrote⟩)

def addToFile : List WriterCall → (maxLength bufferSize : Nat) → State → State × DirectAdd
  | [], _, _, state => (state, ⟨0, []⟩)
  | call :: writer, maxLength, bufferSize, state =>
      if maxLength = 0 then (state, ⟨0, []⟩)
      else match call.offered with
        | none =>
            ({ (state.addDataToFile call.disk []).1 with asyncAddLength := bufferSize }, ⟨0, []⟩)
        | some offered =>
            let bytes := offered.take bufferSize
            if bytes = [] then (state, ⟨0, []⟩)
            else
              let writeBuffer := state.writeBuffer.write 0 (bytes.map some)
              match { state with writeBuffer }.addDataToFile call.disk
                  (writeBuffer.cells.take bytes.length) with
              | (state, false) => (state, ⟨0, bytes⟩)
              | (state, true) =>
                  let maxLength := maxLength - bytes.length
                  let (state, later) := addToFile writer maxLength (min maxLength bufferSize) state
                  (state, ⟨bytes.length + later.total, bytes ++ later.wrote⟩)

def addDataDirect (platform : Platform) (writer : List WriterCall) (maxLength : Int)
    (state : State) : Option (State × DirectAdd) :=
  if maxLength < 0 then some (state, ⟨0, []⟩)
  else
    let throughFile :=
      let bufferSize := min maxLength.toNat platform.kMaxBufferSize
      let writeBuffer :=
        if state.writeBuffer.size < bufferSize then state.writeBuffer.resize bufferSize
        else state.writeBuffer
      addToFile writer maxLength.toNat bufferSize { state with writeBuffer }
    if state.isUsingData then
      if maxLength + state.data.size > maxInt64 then none
      else if maxLength + state.data.size ≤ platform.kMaxBufferSize then
        some (addToData writer state.data.size maxLength.toNat
          { state with data := state.data.resize (state.data.size + maxLength.toNat) })
      else some throughFile
    else some throughFile

def addString (conversion : Serialization.Conversion) (platform : Platform) (disk : Disk)
    (data : List UInt16) (state : State) : Option (State × Bool) :=
  let utf8 := Serialization.Serializer.utf8String conversion data
  state.addData platform disk (fun index => utf8.getD index 0) utf8.length

def createBlob (state : State) : Blob := ⟨state.length⟩

def finalize (state : State) : State :=
  { state with
    isFinalized := true
    writeBuffer := if state.writeBuffer.capacity = 0 then state.writeBuffer else .empty }

def getDataElement (platform : Platform) (state : State) : State × DataElement :=
  let state :=
    if !state.isFinalized && state.isUsingData && !state.preserveData then
      { state with data := state.data.reserve platform.kMaxBufferSize, preserveData := true }
    else state
  (state, if state.isUsingData then .bytes state.data.cells else .filePath)

def readFromFile (offset maxLength : Nat) (state : State) : State × List Cell :=
  match state.file with
  | none => (state, [])
  | some file =>
      let (file, source) := (file.seek offset).read maxLength
      ({ state with file := some file, fileOp := .read }, source)

/-- The number of bytes that were copied is returned, and `-1` where the result is `none`. -/
def read (offset maxLength : Int) (state : State) : State × Option (List Cell) :=
  if offset < 0 ∨ maxLength < 0 then (state, none)
  else if state.isUsingData then
    if state.data.size ≤ offset then (state, some [])
    else
      let maxLength :=
        if state.data.size - offset < maxLength then state.data.size - offset else maxLength
      (state, some ((state.data.cells.drop offset.toNat).take maxLength.toNat))
  else
    let (state, source) := state.readFromFile offset.toNat maxLength.toNat
    (state, some source)

structure ReaderCall where
  buffer : List Cell
  taken : Nat
  deriving DecidableEq

def readFromData (data : List Cell) : List Nat → (position maxLength : Nat) → List ReaderCall
  | [], position, maxLength =>
      if maxLength = 0 then [] else [⟨(data.drop position).take maxLength, 0⟩]
  | wanted :: reader, position, maxLength =>
      if maxLength = 0 then []
      else
        let buffer := (data.drop position).take maxLength
        let taken := min wanted buffer.length
        if taken = 0 then [⟨buffer, taken⟩]
        else ⟨buffer, taken⟩ :: readFromData data reader (position + taken) (maxLength - taken)

def readThroughBuffer : List Nat → (offset maxLength bufferSize : Nat) → State →
    State × List ReaderCall
  | reader, offset, maxLength, bufferSize, state =>
      if maxLength = 0 then (state, [])
      else
        let (state, source) := state.readFromFile offset bufferSize
        let state := { state with readBuffer := state.readBuffer.write 0 source }
        let buffer := state.readBuffer.cells.take source.length
        if source = [] then (state, [])
        else match reader with
          | [] => (state, [⟨buffer, 0⟩])
          | wanted :: reader =>
              let taken := min wanted buffer.length
              if taken = 0 then (state, [⟨buffer, taken⟩])
              else
                let maxLength := maxLength - taken
                let (state, calls) := readThroughBuffer reader (offset + taken) maxLength
                  (min maxLength bufferSize) state
                (state, ⟨buffer, taken⟩ :: calls)
  termination_by structural reader => reader

/-- The sum of what the reader took is returned, and `-1` where the result is `none`. -/
def readDirect (platform : Platform) (reader : List Nat) (offset maxLength : Int) (state : State) :
    State × Option (List ReaderCall) :=
  if offset < 0 ∨ maxLength < 0 then (state, none)
  else if state.isUsingData then
    if state.data.size ≤ offset then (state, some [])
    else
      let maxLength :=
        if state.data.size - offset < maxLength then state.data.size - offset else maxLength
      (state, some (readFromData state.data.cells reader offset.toNat maxLength.toNat))
  else
    let bufferSize := min maxLength.toNat platform.kMaxBufferSize
    let readBuffer :=
      if state.readBuffer.size < bufferSize then state.readBuffer.resize bufferSize
      else state.readBuffer
    let (state, calls) := readThroughBuffer reader offset.toNat maxLength.toNat bufferSize
      { state with readBuffer }
    (state, some calls)

def reserve (platform : Platform) (disk : Disk) (length : Int) (state : State) : State :=
  if state.isUsingData then
    if length > platform.kMaxBufferSize then (state.addDataToFile disk []).1
    else { state with data := state.data.reserve length }
  else state

end State

end ThreadIpc.ByteStore
