import ThreadIpc.Lib.LittleEndian

/-!
# `Serializer` and `Deserializer`

`size_t` has the width of the architecture, `int` has 32 bits and both wrap; integers are copied
in the byte order of a little-endian machine. A `Deserializer` is the offset of its `buffer_` in
the memory handed to the outermost one, its `length_` and its `read_pos_`; that memory is one
object and no object is larger than `PTRDIFF_MAX`. A copy from outside it and a `new char[n]` with
negative `n` stop the program, other allocations succeed. The conversions between UTF-8 and UTF-16
are parameters; the C strings given to them end at the first zero.
-/

namespace ThreadIpc.Serialization

inductive Arch
  | ilp32
  | lp64
  deriving DecidableEq, Repr

def Arch.sizeBits : Arch → Nat
  | .ilp32 => 32
  | .lp64 => 64

def Arch.wrap (arch : Arch) (size : Nat) : Nat :=
  size % 2 ^ arch.sizeBits

def Arch.toSize (arch : Arch) (size : Int32) : Nat :=
  (size.toInt % 2 ^ arch.sizeBits).toNat

structure Memory (arch : Arch) where
  bytes : List UInt8
  fits : bytes.length < 2 ^ (arch.sizeBits - 1)

structure Conversion where
  string16ToUTF8 : List UInt16 → Option (List UInt8)
  utf8ToString16 : List UInt8 → Option (List UInt16)

def SERIALIZABLE_NULL : Int32 := 0

def intBytes (data : Int32) : List UInt8 :=
  Lib.LittleEndian.encode 4 data.toUInt32.toNat

def int64Bytes (data : Int64) : List UInt8 :=
  Lib.LittleEndian.encode 8 data.toUInt64.toNat

def bytesInt (bytes : List UInt8) : Int32 :=
  (UInt32.ofNat (Lib.LittleEndian.decode bytes)).toInt32

def bytesInt64 (bytes : List UInt8) : Int64 :=
  (UInt64.ofNat (Lib.LittleEndian.decode bytes)).toInt64

inductive Value
  | bool (data : Bool)
  | int (data : Int32)
  | int64 (data : Int64)
  | bytes (data : List UInt8)
  | string (data : List UInt16)
  | null
  | object (classId : Int32) (fields : List Value)

namespace Serializer

def writeBytes (buffer data : List UInt8) : List UInt8 :=
  buffer ++ data

def writeInt (buffer : List UInt8) (data : Int32) : List UInt8 :=
  writeBytes buffer (intBytes data)

def writeInt64 (buffer : List UInt8) (data : Int64) : List UInt8 :=
  writeBytes buffer (int64Bytes data)

def writeBool (buffer : List UInt8) (data : Bool) : List UInt8 :=
  writeBytes buffer [if data then 1 else 0]

def utf8String (conversion : Conversion) (data : List UInt16) : List UInt8 :=
  (conversion.string16ToUTF8 (data.takeWhile (· != 0))).getD []

def writeString (conversion : Conversion) (buffer : List UInt8) (data : List UInt16) :
    List UInt8 :=
  let utf8 := utf8String conversion data
  writeBytes (writeInt buffer (Int32.ofNat utf8.length)) utf8

def storeInt (buffer : List UInt8) (position : Nat) (data : Int32) : List UInt8 :=
  buffer.take position ++ intBytes data ++ buffer.drop (position + 4)

def writeNull (buffer : List UInt8) : Bool × List UInt8 :=
  (true, writeInt (writeInt buffer SERIALIZABLE_NULL) 0)

def writeObject (buffer : List UInt8) (classId : Int32)
    (serialize : List UInt8 → Bool × List UInt8) : Bool × List UInt8 :=
  if classId = SERIALIZABLE_NULL then (false, buffer)
  else
    let saveBeginning := buffer.length
    let buffer := writeInt buffer classId
    let sizePosition := buffer.length
    let buffer := writeInt buffer 0
    let objDataPosition := buffer.length
    match serialize buffer with
    | (true, buffer) =>
        (true, storeInt buffer sizePosition (Int32.ofNat (buffer.length - objDataPosition)))
    | (false, buffer) => (false, buffer.take saveBeginning)

mutual
def write (conversion : Conversion) (buffer : List UInt8) : Value → Bool × List UInt8
  | .bool data => (true, writeBool buffer data)
  | .int data => (true, writeInt buffer data)
  | .int64 data => (true, writeInt64 buffer data)
  | .bytes data => (true, writeBytes buffer data)
  | .string data => (true, writeString conversion buffer data)
  | .null => writeNull buffer
  | .object classId fields =>
      writeObject buffer classId fun buffer => serialize conversion buffer fields

def serialize (conversion : Conversion) (buffer : List UInt8) : List Value → Bool × List UInt8
  | [] => (true, buffer)
  | field :: rest => match write conversion buffer field with
      | (true, buffer) => serialize conversion buffer rest
      | (false, buffer) => (false, buffer)
end

end Serializer

structure Deserializer where
  buffer_ : Nat
  length_ : Nat
  readPos_ : Nat
  deriving DecidableEq, Repr

inductive Fault
  | outOfBounds
  | badAlloc
  | assertFailed
  | stackOverflow
  deriving DecidableEq, Repr

namespace Deserializer
variable {arch : Arch}

def readBytes (memory : Memory arch) (reader : Deserializer) (length : Nat) :
    Except Fault (Option (List UInt8) × Deserializer) :=
  if arch.wrap (reader.readPos_ + length) > reader.length_ then .ok (none, reader)
  else
    let start := arch.wrap (reader.buffer_ + reader.readPos_)
    if length = 0 ∨ start + length ≤ memory.bytes.length then
      .ok (some ((memory.bytes.drop start).take length),
        { reader with readPos_ := arch.wrap (reader.readPos_ + length) })
    else .error .outOfBounds

def mapResult {α β : Type} (f : α → β) : Option α × Deserializer → Option β × Deserializer
  | (result, reader) => (result.map f, reader)

def readBool (memory : Memory arch) (reader : Deserializer) :
    Except Fault (Option Bool × Deserializer) :=
  (reader.readBytes memory 1).map (mapResult fun bytes => bytes != [0])

def readInt (memory : Memory arch) (reader : Deserializer) :
    Except Fault (Option Int32 × Deserializer) :=
  (reader.readBytes memory 4).map (mapResult bytesInt)

def readInt64 (memory : Memory arch) (reader : Deserializer) :
    Except Fault (Option Int64 × Deserializer) :=
  (reader.readBytes memory 8).map (mapResult bytesInt64)

def readString (conversion : Conversion) (memory : Memory arch) (reader : Deserializer) :
    Except Fault (Option (List UInt16) × Deserializer) := do
  match ← reader.readInt memory with
  | (none, reader) => .ok (none, reader)
  | (some size, reader) =>
      if size + 1 < 0 then .error .badAlloc
      else
        match ← reader.readBytes memory (arch.toSize size) with
        | (none, reader) => .ok (none, reader)
        | (some data, reader) =>
            .ok (conversion.utf8ToString16 (data.takeWhile (· != 0)), reader)

inductive Record
  | unreadable
  | null
  | unknownClass
  | object (classId : Int32) (deserializer : Deserializer)
  deriving DecidableEq, Repr

def openRecord (asserts : Bool) (registered : Int32 → Bool) (memory : Memory arch)
    (reader : Deserializer) : Except Fault (Record × Deserializer) := do
  match ← reader.readInt memory with
  | (none, reader) => .ok (.unreadable, reader)
  | (some classId, reader) => match ← reader.readInt memory with
      | (none, reader) => .ok (.unreadable, reader)
      | (some size, reader) =>
          if classId = SERIALIZABLE_NULL then
            if asserts ∧ size ≠ 0 then .error .assertFailed else .ok (.null, reader)
          else
            let objectDataPosition := reader.readPos_
            let reader := { reader with readPos_ := arch.wrap (reader.readPos_ + arch.toSize size) }
            if registered classId then
              .ok (.object classId
                ⟨arch.wrap (reader.buffer_ + objectDataPosition), arch.toSize size, 0⟩, reader)
            else .ok (.unknownClass, reader)

end Deserializer

inductive Program
  | done (ok : Bool)
  | readBool (next : Option Bool → Program)
  | readInt (next : Option Int32 → Program)
  | readInt64 (next : Option Int64 → Program)
  | readBytes (length : Nat) (next : Option (List UInt8) → Program)
  | readString (next : Option (List UInt16) → Program)
  | createAndReadObject (next : Option Value → Program)

namespace Program
variable {arch : Arch}

def keep (field : Option Value) :
    Option (List Value) × Deserializer → Option (List Value) × Deserializer
  | (rest, reader) => (rest.map (field.toList ++ ·), reader)

def run (conversion : Conversion) (memory : Memory arch)
    (readObject : Deserializer → Except Fault (Option Value × Deserializer)) :
    Program → Deserializer → Except Fault (Option (List Value) × Deserializer)
  | .done ok, reader => .ok (if ok then some [] else none, reader)
  | .readBool next, reader => do
      let (data, reader) ← reader.readBool memory
      (run conversion memory readObject (next data) reader).map (keep (data.map .bool))
  | .readInt next, reader => do
      let (data, reader) ← reader.readInt memory
      (run conversion memory readObject (next data) reader).map (keep (data.map .int))
  | .readInt64 next, reader => do
      let (data, reader) ← reader.readInt64 memory
      (run conversion memory readObject (next data) reader).map (keep (data.map .int64))
  | .readBytes length next, reader => do
      let (data, reader) ← reader.readBytes memory length
      (run conversion memory readObject (next data) reader).map (keep (data.map .bytes))
  | .readString next, reader => do
      let (data, reader) ← reader.readString conversion memory
      (run conversion memory readObject (next data) reader).map (keep (data.map .string))
  | .createAndReadObject next, reader => do
      let (data, reader) ← readObject reader
      (run conversion memory readObject (next data) reader).map (keep data)

end Program

def SERIALIZABLE_TEST_OBJECT : Int32 := 1
def SERIALIZABLE_STRING16 : Int32 := 3
def SERIALIZABLE_NOTIFICATION : Int32 := 8

def SerializationTest.deserialize : Program :=
  .readBool fun
    | none => .done false
    | some _ => .readInt fun
      | none => .done false
      | some _ => .readString fun
        | none => .done false
        | some _ => .readBytes 8 fun testBytes => .done testBytes.isSome

def SerializableString16.deserialize : Program :=
  .readString fun string => .done string.isSome

def NotificationMessage.deserialize : Program :=
  .readString fun
    | none => .done false
    | some _ => .createAndReadObject fun data => .done data.isSome

def constructors : Int32 → Option Program := fun classId =>
  if classId = SERIALIZABLE_TEST_OBJECT then some SerializationTest.deserialize
  else if classId = SERIALIZABLE_STRING16 then some SerializableString16.deserialize
  else if classId = SERIALIZABLE_NOTIFICATION then some NotificationMessage.deserialize
  else none

def Deserializer.createAndReadObject {arch : Arch} (asserts : Bool) (conversion : Conversion)
    (classes : Int32 → Option Program) (memory : Memory arch) :
    Nat → Deserializer → Except Fault (Option Value × Deserializer)
  | 0, _ => .error .stackOverflow
  | depth + 1, reader => do
      match ← reader.openRecord asserts (fun classId => (classes classId).isSome) memory with
      | (.unreadable, reader) | (.unknownClass, reader) => .ok (none, reader)
      | (.null, reader) => .ok (some .null, reader)
      | (.object classId deserializer, reader) =>
          let program := (classes classId).getD (.done false)
          let (fields, _) ← program.run conversion memory
            (createAndReadObject asserts conversion classes memory depth) deserializer
          .ok (fields.map (.object classId), reader)

end ThreadIpc.Serialization
