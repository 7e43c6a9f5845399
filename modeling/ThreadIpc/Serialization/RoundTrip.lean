import Mathlib.Data.List.TakeWhile
import ThreadIpc.Serialization.Encoding
import ThreadIpc.Serialization.Reader

namespace ThreadIpc.Serialization

def Conversion.ExactOn (conversion : Conversion) (valid : List UInt16 → Prop) : Prop :=
  ∀ data, valid data → 0 ∉ data →
    ∃ utf8, conversion.string16ToUTF8 data = some utf8 ∧ 0 ∉ utf8 ∧
      conversion.utf8ToString16 utf8 = some data

inductive Reads : Program → List Value → Prop
  | done : Reads (.done true) []
  | bool {next data rest} : Reads (next (some data)) rest →
      Reads (.readBool next) (.bool data :: rest)
  | int {next data rest} : Reads (next (some data)) rest →
      Reads (.readInt next) (.int data :: rest)
  | int64 {next data rest} : Reads (next (some data)) rest →
      Reads (.readInt64 next) (.int64 data :: rest)
  | bytes {next data rest} : Reads (next (some data)) rest →
      Reads (.readBytes data.length next) (.bytes data :: rest)
  | string {next data rest} : Reads (next (some data)) rest →
      Reads (.readString next) (.string data :: rest)
  | null {next rest} : Reads (next (some .null)) rest →
      Reads (.createAndReadObject next) (.null :: rest)
  | object {next classId fields rest} : Reads (next (some (.object classId fields))) rest →
      Reads (.createAndReadObject next) (.object classId fields :: rest)

namespace Value

def isRecord : Value → Bool
  | .null | .object _ _ => true
  | _ => false

mutual
def depth : Value → Nat
  | .null => 1
  | .object _ fields => fieldsDepth fields + 1
  | _ => 0

def fieldsDepth : List Value → Nat
  | [] => 0
  | field :: rest => max (depth field) (fieldsDepth rest)
end

section Readable
variable (conversion : Conversion) (valid : List UInt16 → Prop) (classes : Int32 → Option Program)

mutual
def Readable : Value → Prop
  | .string data => valid data ∧ 0 ∉ data
  | .object classId fields => classId ≠ SERIALIZABLE_NULL ∧
      (∃ program, classes classId = some program ∧ Reads program fields) ∧
      (payload conversion fields).length < 2 ^ 31 ∧ AllReadable fields
  | _ => True

def AllReadable : List Value → Prop
  | [] => True
  | field :: rest => Readable field ∧ AllReadable rest
end

end Readable

section Writable
variable {conversion : Conversion} {valid : List UInt16 → Prop}
  {classes : Int32 → Option Program}

mutual
theorem Readable.writable : (value : Value) → value.Readable conversion valid classes →
    value.Writable
  | .bool _, _ | .int _, _ | .int64 _, _ | .bytes _, _ | .string _, _ | .null, _ => trivial
  | .object _ fields, readable => ⟨readable.1, AllReadable.allWritable fields readable.2.2.2⟩

theorem AllReadable.allWritable : (fields : List Value) →
    AllReadable conversion valid classes fields → AllWritable fields
  | [], _ => trivial
  | field :: rest, readable =>
      ⟨Readable.writable field readable.1, AllReadable.allWritable rest readable.2⟩
end

end Writable

end Value

namespace Deserializer
variable {arch : Arch}

structure Faces (memory : Memory arch) (reader : Deserializer) (bytes : List UInt8) : Prop where
  inBounds : reader.InBounds memory
  enough : reader.readPos_ + bytes.length ≤ reader.length_
  next : reader.next memory bytes.length = bytes

variable {memory : Memory arch} {reader : Deserializer}

theorem Faces.left {front back : List UInt8} (faces : reader.Faces memory (front ++ back)) :
    reader.Faces memory front := by
  have enough := faces.enough
  have next := faces.next
  rw [List.length_append] at enough next
  refine ⟨faces.inBounds, by omega, ?_⟩
  have shorter := congrArg (List.take front.length) next
  rwa [Deserializer.next, List.take_take, Nat.min_eq_left (Nat.le_add_right _ _),
    List.take_left] at shorter

theorem Faces.right {front back : List UInt8} (faces : reader.Faces memory (front ++ back)) :
    (reader.advance front.length).Faces memory back := by
  have enough := faces.enough
  have next := faces.next
  rw [List.length_append] at enough next
  refine ⟨faces.inBounds.advance (by omega), by simp only [advance]; omega, ?_⟩
  have later := congrArg (List.drop front.length) next
  rw [Deserializer.next, List.drop_take, List.drop_drop, List.drop_left,
    Nat.add_sub_cancel_left] at later
  simpa only [Deserializer.next, advance, Nat.add_assoc] using later

theorem faces_of_bytes {before record after : List UInt8}
    (bytes : memory.bytes = before ++ record ++ after) :
    Faces memory ⟨0, memory.bytes.length, before.length⟩ record := by
  refine ⟨⟨by simp, ?_⟩, ?_, ?_⟩
  · simp [bytes]
  · simp [bytes]
  · simp [Deserializer.next, bytes]

theorem Faces.readBytes {data : List UInt8} (faces : reader.Faces memory data) :
    reader.readBytes memory data.length = .ok (some data, reader.advance data.length) := by
  rw [readBytes_enough faces.inBounds faces.enough, faces.next]

theorem Faces.readInt {data : Int32} (faces : reader.Faces memory (intBytes data)) :
    reader.readInt memory = .ok (some data, reader.advance 4) := by
  have enough := faces.enough
  have next := faces.next
  rw [length_intBytes] at enough next
  rw [readInt_enough faces.inBounds enough, next, bytesInt_intBytes]

theorem Faces.readInt64 {data : Int64} (faces : reader.Faces memory (int64Bytes data)) :
    reader.readInt64 memory = .ok (some data, reader.advance 8) := by
  have enough := faces.enough
  have next := faces.next
  rw [length_int64Bytes] at enough next
  rw [readInt64_enough faces.inBounds enough, next, bytesInt64_int64Bytes]

theorem Faces.readBool {data : Bool}
    (faces : reader.Faces memory [if data then 1 else 0]) :
    reader.readBool memory = .ok (some data, reader.advance 1) := by
  rw [readBool_enough faces.inBounds faces.enough]
  have next : reader.next memory 1 = [if data then 1 else 0] := faces.next
  rw [next]
  cases data <;> rfl

theorem Faces.sizeField {data : Int32} (faces : reader.Faces memory (intBytes data)) :
    reader.sizeField memory = data := by
  have next := faces.next
  rw [length_intBytes] at next
  rw [Deserializer.sizeField, next, bytesInt_intBytes]

theorem Faces.readString {conversion : Conversion} {valid : List UInt16 → Prop}
    (exact_ : conversion.ExactOn valid) {data : List UInt16}
    (readable : valid data ∧ 0 ∉ data)
    (short : ((Value.string data).encoding conversion).length < 2 ^ 31)
    (faces : reader.Faces memory ((Value.string data).encoding conversion)) :
    reader.readString conversion memory = .ok (some data,
      reader.advance ((Value.string data).encoding conversion).length) := by
  obtain ⟨isValid, noZero⟩ := readable
  obtain ⟨utf8, toUTF8, noZero8, back⟩ := exact_ data isValid noZero
  have whole : data.takeWhile (· != 0) = data := by
    rw [List.takeWhile_eq_self_iff]
    exact fun unit mem => bne_iff_ne.mpr (ne_of_mem_of_not_mem mem noZero)
  have whole8 : utf8.takeWhile (· != 0) = utf8 := by
    rw [List.takeWhile_eq_self_iff]
    exact fun byte mem => bne_iff_ne.mpr (ne_of_mem_of_not_mem mem noZero8)
  have written : Serializer.utf8String conversion data = utf8 := by
    rw [Serializer.utf8String, whole, toUTF8, Option.getD_some]
  simp only [Value.encoding, written, List.length_append, length_intBytes] at faces short ⊢
  have size : (Int32.ofNat utf8.length).toInt = utf8.length :=
    Int32.toInt_ofNat_of_lt (by omega)
  have size_nat : (Int32.ofNat utf8.length).toInt.toNat = utf8.length := by omega
  have payload := faces.right
  rw [length_intBytes] at payload
  have enough := payload.enough
  have sizeField := faces.left.sizeField
  have inside : reader.readPos_ + 4 + (reader.sizeField memory).toInt.toNat ≤ reader.length_ := by
    rw [sizeField, size_nat]
    exact enough
  rw [readString_enough faces.inBounds (by rw [sizeField]; omega) (by rw [sizeField]; omega) inside,
    sizeField, size_nat, payload.next, whole8, back, advance, advance, advance, Nat.add_assoc]

theorem Faces.openNull {asserts : Bool} {registered : Int32 → Bool} {conversion : Conversion}
    (faces : reader.Faces memory (Value.null.encoding conversion)) :
    reader.openRecord asserts registered memory = .ok (.null, reader.advance 8) := by
  simp only [Value.encoding] at faces
  have classId := faces.left.sizeField
  have sizeFaces := faces.right
  rw [length_intBytes] at sizeFaces
  have header := faces.enough
  rw [List.length_append, length_intBytes, length_intBytes] at header
  rw [openRecord_header faces.inBounds header]
  have isNull : reader.classIdField memory = SERIALIZABLE_NULL := classId
  simp only [isNull, sizeFaces.sizeField, if_true, ne_eq, not_true_eq_false, and_false, if_false]

theorem Faces.openObject (asserts : Bool) (registered : Int32 → Bool) {classId : Int32}
    {data : List UInt8} (notNull : classId ≠ SERIALIZABLE_NULL)
    (isRegistered : registered classId = true) (short : data.length < 2 ^ 31)
    (faces : reader.Faces memory
      (intBytes classId ++ (intBytes (Int32.ofNat data.length) ++ data))) :
    ∃ nested : Deserializer, nested.Faces memory data ∧ nested.length_ = data.length ∧
      reader.openRecord asserts registered memory =
        .ok (.object classId nested, reader.advance (8 + data.length)) := by
  have classId_here : reader.classIdField memory = classId := faces.left.sizeField
  have rest := faces.right
  rw [length_intBytes] at rest
  have size := Int32.toInt_ofNat_of_lt short
  have toSize : arch.toSize (Int32.ofNat data.length) = data.length := by
    rw [Arch.toSize_of_nonneg (by omega)]
    omega
  have payload := rest.right
  rw [length_intBytes] at payload
  have enough := payload.enough
  have header : reader.readPos_ + 8 ≤ reader.length_ := by
    simp only [advance] at enough
    omega
  have end_lt : reader.readPos_ + (8 + data.length) < 2 ^ arch.sizeBits :=
    faces.inBounds.position_lt (by simp only [advance] at enough; omega)
  have start_lt : reader.buffer_ + (reader.readPos_ + 8) < 2 ^ arch.sizeBits :=
    faces.inBounds.position_lt (by omega)
  refine ⟨⟨arch.wrap (reader.buffer_ + (reader.readPos_ + 8)), data.length, 0⟩, ?_, rfl, ?_⟩
  · have nested := payload.inBounds.nested enough
    refine ⟨nested, by simp, ?_⟩
    have here := payload.next
    simpa only [Deserializer.next, advance, Arch.wrap_of_lt start_lt, Nat.add_zero,
      Nat.add_assoc] using here
  · rw [openRecord_header faces.inBounds header]
    have skipped : (reader.advance 8).skipTo arch (Int32.ofNat data.length) =
        reader.advance (8 + data.length) := by
      simp only [skipTo, toSize, advance, Arch.wrap_of_lt end_lt, Nat.add_assoc]
    simp only [classId_here, notNull, if_false, isRegistered, if_true, rest.left.sizeField, toSize,
      skipped]
    rfl

end Deserializer

section RunProgram
variable {arch : Arch} {memory : Memory arch} {conversion : Conversion}
  {valid : List UInt16 → Prop} {classes : Int32 → Option Program}
  {readObject : Deserializer → Except Fault (Option Value × Deserializer)}

def ReadsBack (memory : Memory arch) (conversion : Conversion)
    (readObject : Deserializer → Except Fault (Option Value × Deserializer)) (value : Value) :
    Prop :=
  ∀ reader, reader.Faces memory (value.encoding conversion) →
    readObject reader = .ok (some value, reader.advance (value.encoding conversion).length)

theorem kept {field : Value} {rest : List Value} {reader : Deserializer}
    {later : Except Fault (Option (List Value) × Deserializer)}
    (ran : later = .ok (some rest, (reader.advance (field.encoding conversion).length).advance
      (Value.payload conversion rest).length)) :
    later.map (Program.keep (some field)) = .ok (some (field :: rest),
      reader.advance (Value.payload conversion (field :: rest)).length) := by
  rw [ran]
  simp [Except.map, Program.keep, Deserializer.advance, Value.payload, Nat.add_assoc]

theorem run_payload (exact_ : conversion.ExactOn valid) {program : Program} {fields : List Value}
    (reads : Reads program fields) (readable : Value.AllReadable conversion valid classes fields)
    (short : (Value.payload conversion fields).length < 2 ^ 31)
    (objects : ∀ field ∈ fields, field.isRecord = true →
      ReadsBack memory conversion readObject field)
    {reader : Deserializer} (faces : reader.Faces memory (Value.payload conversion fields)) :
    program.run conversion memory readObject reader =
      .ok (some fields, reader.advance (Value.payload conversion fields).length) := by
  induction reads generalizing reader with
  | done => rfl
  | @bool next data rest _ ih =>
      rw [Value.payload, List.length_append] at short
      have later := ih readable.2 (by omega)
        (fun field mem => objects field (List.mem_cons_of_mem _ mem)) faces.right
      have first := faces.left.readBool
      simp only [Program.run, first, bind, Except.bind, Option.map_some]
      exact kept later
  | @int next data rest _ ih =>
      rw [Value.payload, List.length_append] at short
      have later := ih readable.2 (by omega)
        (fun field mem => objects field (List.mem_cons_of_mem _ mem)) faces.right
      have first := faces.left.readInt
      simp only [Program.run, first, bind, Except.bind, Option.map_some]
      exact kept later
  | @int64 next data rest _ ih =>
      rw [Value.payload, List.length_append] at short
      have later := ih readable.2 (by omega)
        (fun field mem => objects field (List.mem_cons_of_mem _ mem)) faces.right
      have first := faces.left.readInt64
      simp only [Program.run, first, bind, Except.bind, Option.map_some]
      exact kept later
  | @bytes next data rest _ ih =>
      rw [Value.payload, List.length_append] at short
      have later := ih readable.2 (by omega)
        (fun field mem => objects field (List.mem_cons_of_mem _ mem)) faces.right
      have first := faces.left.readBytes
      simp only [Value.encoding] at first
      simp only [Program.run, first, bind, Except.bind, Option.map_some]
      exact kept later
  | @string next data rest _ ih =>
      rw [Value.payload, List.length_append] at short
      have later := ih readable.2 (by omega)
        (fun field mem => objects field (List.mem_cons_of_mem _ mem)) faces.right
      have first := faces.left.readString exact_ readable.1 (by omega)
      simp only [Program.run, first, bind, Except.bind, Option.map_some]
      exact kept later
  | @null next rest _ ih =>
      rw [Value.payload, List.length_append] at short
      have later := ih readable.2 (by omega)
        (fun field mem => objects field (List.mem_cons_of_mem _ mem)) faces.right
      have first := objects .null List.mem_cons_self rfl reader faces.left
      simp only [Program.run, first, bind, Except.bind]
      exact kept later
  | @object next classId fields rest _ ih =>
      rw [Value.payload, List.length_append] at short
      have later := ih readable.2 (by omega)
        (fun field mem => objects field (List.mem_cons_of_mem _ mem)) faces.right
      have first := objects (.object classId fields) List.mem_cons_self rfl reader faces.left
      simp only [Program.run, first, bind, Except.bind]
      exact kept later

end RunProgram

section Records
variable {arch : Arch} {asserts : Bool} {memory : Memory arch} {conversion : Conversion}
  {valid : List UInt16 → Prop} {classes : Int32 → Option Program}

mutual
theorem readsBack (exact_ : conversion.ExactOn valid) :
    (value : Value) → value.Readable conversion valid classes → value.isRecord = true →
      ∀ depth, value.depth ≤ depth → ReadsBack memory conversion
        (Deserializer.createAndReadObject asserts conversion classes memory depth) value
  | .null, _, _, 0, deep => by
      simp [Value.depth] at deep
  | .null, _, _, depth + 1, _ => by
      intro reader faces
      simp only [Deserializer.createAndReadObject, faces.openNull, bind, Except.bind]
      rfl
  | .object classId fields, _, _, 0, deep => by
      simp [Value.depth] at deep
  | .object classId fields, readable, _, depth + 1, deep => by
      obtain ⟨notNull, ⟨program, registered, reads⟩, short, fieldsReadable⟩ := readable
      intro reader faces
      obtain ⟨nested, nestedFaces, _, opened⟩ :=
        faces.openObject asserts (fun classId => (classes classId).isSome) notNull
          (by simp [registered]) short
      have objects := fieldsReadBack exact_ fields fieldsReadable depth
        (Nat.le_of_succ_le_succ deep)
      have ran := run_payload exact_ reads fieldsReadable short objects nestedFaces
      simp only [Deserializer.createAndReadObject, opened, bind, Except.bind, registered,
        Option.getD_some, ran, Option.map_some]
      simp [Value.encoding, Deserializer.advance]
      omega
  | .bool _, _, isRecord, _, _ | .int _, _, isRecord, _, _ | .int64 _, _, isRecord, _, _
  | .bytes _, _, isRecord, _, _ | .string _, _, isRecord, _, _ => by
      cases isRecord

theorem fieldsReadBack (exact_ : conversion.ExactOn valid) :
    (fields : List Value) → Value.AllReadable conversion valid classes fields →
      ∀ depth, Value.fieldsDepth fields ≤ depth → ∀ field ∈ fields, field.isRecord = true →
        ReadsBack memory conversion
          (Deserializer.createAndReadObject asserts conversion classes memory depth) field
  | [], _, _, _ => nofun
  | first :: rest, readable, depth, deep => by
      intro field mem isRecord
      rcases List.mem_cons.mp mem with same | later
      · rw [same] at isRecord ⊢
        exact readsBack exact_ first readable.1 isRecord depth ((le_max_left _ _).trans deep)
      · exact fieldsReadBack exact_ rest readable.2 depth ((le_max_right _ _).trans deep) field
          later isRecord
end

end Records

theorem createAndReadObject_of_writeObject {arch : Arch} {asserts : Bool}
    {conversion : Conversion} {valid : List UInt16 → Prop} (exact_ : conversion.ExactOn valid)
    {classes : Int32 → Option Program} {obj : Value} (isRecord : obj.isRecord = true)
    (readable : obj.Readable conversion valid classes) (before : List UInt8) :
    (Serializer.write conversion before obj).1 = true ∧
    ∃ record, (Serializer.write conversion before obj).2 = before ++ record ∧
      ∀ (memory : Memory arch) (after : List UInt8),
        memory.bytes = (Serializer.write conversion before obj).2 ++ after →
        ∀ depth, obj.depth ≤ depth →
          Deserializer.createAndReadObject asserts conversion classes memory depth
              ⟨0, memory.bytes.length, before.length⟩ =
            .ok (some obj, ⟨0, memory.bytes.length, before.length + record.length⟩) := by
  have written : Serializer.write conversion before obj = (true, before ++ obj.encoding conversion) :=
    Serializer.write_eq before obj (Value.Readable.writable obj readable)
  refine ⟨by rw [written], obj.encoding conversion, by rw [written], ?_⟩
  intro memory after bytes depth deep
  rw [written] at bytes
  have faces := Deserializer.faces_of_bytes bytes
  exact readsBack exact_ obj readable isRecord depth deep _ faces

theorem SerializationTest.reads (testBool : Bool) (testInt : Int32) (testString : List UInt16)
    {testBytes : List UInt8} (size : testBytes.length = 8) :
    Reads SerializationTest.deserialize
      [.bool testBool, .int testInt, .string testString, .bytes testBytes] := by
  have bytes : Reads (.readBytes testBytes.length fun read => .done read.isSome)
      [.bytes testBytes] := .bytes .done
  rw [size] at bytes
  exact .bool (.int (.string bytes))

theorem NotificationMessage.reads (topic : List UInt16) {data : Value}
    (isRecord : data.isRecord = true) :
    Reads NotificationMessage.deserialize [.string topic, data] := by
  apply Reads.string
  cases data with
  | null => exact .null .done
  | object classId fields => exact .object .done
  | _ => contradiction

def ascii : Conversion where
  string16ToUTF8 data :=
    if data.all (· < 128) then some (data.map UInt16.toUInt8) else none
  utf8ToString16 utf8 := some (utf8.map UInt8.toUInt16)

theorem ascii_exact : ascii.ExactOn fun data => ∀ unit ∈ data, unit < 128 := by
  intro data small noZero
  refine ⟨data.map UInt16.toUInt8, ?_, ?_, ?_⟩
  · simpa [ascii] using small
  · rw [List.mem_map]
    rintro ⟨unit, mem, zero⟩
    have lt := UInt16.lt_iff_toNat_lt.mp (small unit mem)
    have same : unit = 0 := by
      have toNat := congrArg UInt8.toNat zero
      rw [UInt16.toNat_toUInt8] at toNat
      apply UInt16.toNat_inj.mp
      simp at lt toNat ⊢
      omega
    exact noZero (same ▸ mem)
  · simp only [ascii, List.map_map, Option.some.injEq]
    conv_rhs => rw [← List.map_id data]
    apply List.map_congr_left
    intro unit mem
    have lt := UInt16.lt_iff_toNat_lt.mp (small unit mem)
    apply UInt16.toNat_inj.mp
    simp at lt ⊢
    omega

def notification : Value :=
  .object SERIALIZABLE_NOTIFICATION [.string [104, 105],
    .object SERIALIZABLE_TEST_OBJECT
      [.bool true, .int (-13), .string [116], .bytes [222, 173, 190, 239, 66, 66, 66, 66]]]

theorem notification_readable :
    notification.Readable ascii (fun data => ∀ unit ∈ data, unit < 128) constructors := by
  have topic : (∀ unit ∈ ([104, 105] : List UInt16), unit < 128) ∧
      0 ∉ ([104, 105] : List UInt16) := by simp
  have text : (∀ unit ∈ ([116] : List UInt16), unit < 128) ∧ 0 ∉ ([116] : List UInt16) := by simp
  exact ⟨by decide, ⟨_, rfl, NotificationMessage.reads _ rfl⟩, by decide,
    topic, ⟨by decide, ⟨_, rfl, SerializationTest.reads _ _ _ rfl⟩, by decide,
      trivial, trivial, text, trivial, trivial⟩, trivial⟩

def notificationMemory : Memory .lp64 where
  bytes := (Serializer.write ascii [7] notification).2 ++ [9]
  fits := by decide +kernel

theorem notification_round_trip :
    ∃ record, (Serializer.write ascii [7] notification).2 = [7] ++ record ∧
      Deserializer.createAndReadObject false ascii constructors notificationMemory 2
          ⟨0, notificationMemory.bytes.length, 1⟩ =
        .ok (some notification, ⟨0, notificationMemory.bytes.length, 1 + record.length⟩) := by
  obtain ⟨_, record, written, read⟩ := createAndReadObject_of_writeObject ascii_exact rfl
    notification_readable [7]
  exact ⟨record, written, read notificationMemory [9] rfl 2 (by decide)⟩

def truncatedMemory : Memory .lp64 :=
  ⟨[3, 0, 0, 0, 5, 0, 0, 0, 1, 0, 0, 0, 97], by decide⟩

theorem oversized_record {conversion : Conversion} {data : List UInt8} (size : data.length = 2 ^ 31)
    {memory : Memory .lp64}
    (bytes : memory.bytes = intBytes 1 ++ (intBytes (Int32.ofNat data.length) ++ data)) :
    Deserializer.createAndReadObject false conversion
        (fun _ => some (.readBytes (2 ^ 31) fun read => .done read.isSome)) memory 1
        ⟨0, memory.bytes.length, 0⟩ =
      .ok (some (.object 1 [.bytes data]), ⟨0, memory.bytes.length, 2 ^ 64 - 2 ^ 31 + 8⟩) := by
  have length : memory.bytes.length = 8 + 2 ^ 31 := by
    rw [bytes, List.length_append, List.length_append, length_intBytes, length_intBytes, size]
    omega
  have parts : memory.bytes =
      [] ++ (intBytes 1 ++ (intBytes (Int32.ofNat data.length) ++ data)) ++ [] := by
    simpa using bytes
  have faces : Deserializer.Faces memory ⟨0, memory.bytes.length, 0⟩
      (intBytes 1 ++ (intBytes (Int32.ofNat data.length) ++ data)) :=
    Deserializer.faces_of_bytes parts
  have rest := faces.right
  rw [length_intBytes] at rest
  have classId : Deserializer.classIdField memory ⟨0, memory.bytes.length, 0⟩ = 1 :=
    faces.left.sizeField
  have sizeField := rest.left.sizeField
  have payload := rest.right.next
  rw [size] at sizeField payload
  rw [length_intBytes] at payload
  have toSize : Arch.toSize .lp64 (Int32.ofNat (2 ^ 31)) = 2 ^ 64 - 2 ^ 31 := by decide +kernel
  have header : Deserializer.openRecord false (fun _ => true) memory
      ⟨0, memory.bytes.length, 0⟩ = .ok (.object 1 ⟨8, 2 ^ 64 - 2 ^ 31, 0⟩,
        ⟨0, memory.bytes.length, 2 ^ 64 - 2 ^ 31 + 8⟩) := by
    rw [Deserializer.openRecord_header faces.inBounds (by simp [length])]
    have notNull : (1 : Int32) ≠ SERIALIZABLE_NULL := by decide
    have start : Arch.wrap .lp64 (0 + (0 + 8)) = 8 := by decide +kernel
    have wrapped : Arch.wrap .lp64 (0 + 8 + (2 ^ 64 - 2 ^ 31)) = 2 ^ 64 - 2 ^ 31 + 8 := by
      decide +kernel
    simp only [classId, notNull, if_false, if_true, sizeField, toSize]
    simp only [Deserializer.skipTo, toSize, Deserializer.advance, start, wrapped]
  have read : Deserializer.readBytes memory ⟨8, 2 ^ 64 - 2 ^ 31, 0⟩ (2 ^ 31) =
      .ok (some data, ⟨8, 2 ^ 64 - 2 ^ 31, 2 ^ 31⟩) := by
    have copied : (memory.bytes.drop 8).take (2 ^ 31) = data := payload
    have inside : 8 + 2 ^ 31 ≤ memory.bytes.length := length.ge
    have start : Arch.wrap .lp64 (8 + 0) = 8 := by decide +kernel
    have stop : Arch.wrap .lp64 (0 + 2 ^ 31) = 2 ^ 31 := by decide +kernel
    have accepted : ¬ 2 ^ 31 > 2 ^ 64 - 2 ^ 31 := by decide +kernel
    simp only [Deserializer.readBytes, start, stop, accepted, if_false, inside, or_true, if_true,
      copied]
  simp only [Deserializer.createAndReadObject, Option.isSome_some, header, bind, Except.bind,
    Option.getD_some, Program.run, read]
  rfl

theorem write_bytesRecord (data : List UInt8) :
    Serializer.write ascii [] (.object 1 [.bytes data]) =
      (true, intBytes 1 ++ (intBytes (Int32.ofNat data.length) ++ data)) := by
  have writable : (Value.object 1 [.bytes data]).Writable := ⟨by decide, trivial, trivial⟩
  have payload : Value.payload ascii [.bytes data] = data := List.append_nil data
  rw [Serializer.write_eq [] _ writable, Value.encoding, payload, List.nil_append]

theorem round_trip_fails :
    (Serializer.write ascii [] (.object SERIALIZABLE_STRING16 [.string [97, 0, 98]]) =
        (true, truncatedMemory.bytes) ∧
      Deserializer.createAndReadObject false ascii constructors truncatedMemory 1 ⟨0, 13, 0⟩ =
        .ok (some (.object SERIALIZABLE_STRING16 [.string [97]]), ⟨0, 13, 13⟩) ∧
      Value.object SERIALIZABLE_STRING16 [.string [97]] ≠
        .object SERIALIZABLE_STRING16 [.string [97, 0, 98]]) ∧
    ∃ memory : Memory .lp64,
      Serializer.write ascii [] (.object 1 [.bytes (List.replicate (2 ^ 31) 0)]) =
        (true, memory.bytes) ∧
      Deserializer.createAndReadObject false ascii
          (fun _ => some (.readBytes (2 ^ 31) fun read => .done read.isSome)) memory 1
          ⟨0, memory.bytes.length, 0⟩ =
        .ok (some (.object 1 [.bytes (List.replicate (2 ^ 31) 0)]),
          ⟨0, memory.bytes.length, 2 ^ 64 - 2 ^ 31 + 8⟩) ∧
      memory.bytes.length = 2 ^ 31 + 8 := by
  refine ⟨⟨rfl, rfl, by simp⟩, ?_⟩
  have zeros : (List.replicate (2 ^ 31) (0 : UInt8)).length = 2 ^ 31 := List.length_replicate
  generalize List.replicate (2 ^ 31) (0 : UInt8) = data at zeros ⊢
  have length : (intBytes 1 ++ (intBytes (Int32.ofNat data.length) ++ data)).length =
      2 ^ 31 + 8 := by
    rw [List.length_append, List.length_append, length_intBytes, length_intBytes, zeros]
    omega
  have fits : 2 ^ 31 + 8 < 2 ^ (Arch.sizeBits .lp64 - 1) := by decide +kernel
  rw [← length] at fits
  exact ⟨⟨_, fits⟩, write_bytesRecord data, oversized_record zeros rfl, length⟩

end ThreadIpc.Serialization
