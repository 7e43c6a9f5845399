import ThreadIpc.Serialization.Model

namespace ThreadIpc.Serialization

@[simp] theorem length_intBytes (data : Int32) : (intBytes data).length = 4 := by
  simp [intBytes]

@[simp] theorem length_int64Bytes (data : Int64) : (int64Bytes data).length = 8 := by
  simp [int64Bytes]

theorem bytesInt_intBytes (data : Int32) : bytesInt (intBytes data) = data := by
  rw [bytesInt, intBytes, Lib.LittleEndian.decode_encode _ _ data.toUInt32.toNat_lt]
  simp

theorem bytesInt64_int64Bytes (data : Int64) : bytesInt64 (int64Bytes data) = data := by
  rw [bytesInt64, int64Bytes, Lib.LittleEndian.decode_encode _ _ data.toUInt64.toNat_lt]
  simp

namespace Value
variable (conversion : Conversion)

mutual
def encoding : Value → List UInt8
  | .bool data => [if data then 1 else 0]
  | .int data => intBytes data
  | .int64 data => int64Bytes data
  | .bytes data => data
  | .string data =>
      intBytes (Int32.ofNat (Serializer.utf8String conversion data).length) ++
        Serializer.utf8String conversion data
  | .null => intBytes SERIALIZABLE_NULL ++ intBytes 0
  | .object classId fields =>
      intBytes classId ++ (intBytes (Int32.ofNat (payload fields).length) ++ payload fields)

def payload : List Value → List UInt8
  | [] => []
  | field :: rest => encoding field ++ payload rest
end

mutual
def Writable : Value → Prop
  | .object classId fields => classId ≠ SERIALIZABLE_NULL ∧ AllWritable fields
  | _ => True

def AllWritable : List Value → Prop
  | [] => True
  | field :: rest => Writable field ∧ AllWritable rest
end

end Value

namespace Serializer
variable {conversion : Conversion}

theorem storeInt_after (front bytes back : List UInt8) (size : Int32) (placeholder : bytes.length = 4) :
    storeInt (front ++ bytes ++ back) front.length size = front ++ intBytes size ++ back := by
  have count : (front ++ bytes).length = front.length + 4 := by simp [placeholder]
  rw [storeInt, ← count, List.drop_left, List.append_assoc front bytes, List.take_left]

theorem writeObject_payload {buffer data : List UInt8} {classId : Int32}
    {serialize : List UInt8 → Bool × List UInt8} (notNull : classId ≠ SERIALIZABLE_NULL)
    (appends : ∀ buffer, serialize buffer = (true, buffer ++ data)) :
    writeObject buffer classId serialize =
      (true, buffer ++ (intBytes classId ++ (intBytes (Int32.ofNat data.length) ++ data))) := by
  have size : (writeInt (writeInt buffer classId) 0 ++ data).length -
      (writeInt (writeInt buffer classId) 0).length = data.length := by
    rw [List.length_append, Nat.add_sub_cancel_left]
  have stored : storeInt (writeInt (writeInt buffer classId) 0 ++ data)
      (writeInt buffer classId).length (Int32.ofNat data.length) =
        writeInt buffer classId ++ intBytes (Int32.ofNat data.length) ++ data :=
    storeInt_after _ _ _ _ (length_intBytes 0)
  simp only [writeObject, notNull, if_false, appends, size, stored]
  simp [writeInt, writeBytes]

mutual
theorem write_eq (buffer : List UInt8) :
    (value : Value) → value.Writable →
      write conversion buffer value = (true, buffer ++ value.encoding conversion)
  | .bool data, _ => rfl
  | .int data, _ => rfl
  | .int64 data, _ => rfl
  | .bytes data, _ => rfl
  | .string data, _ => by
      simp [write, writeString, writeInt, writeBytes, Value.encoding]
  | .null, _ => by
      simp [write, writeNull, writeInt, writeBytes, Value.encoding]
  | .object classId fields, writable => by
      rw [write, writeObject_payload writable.1 fun buffer => serialize_eq buffer fields writable.2]
      rfl

theorem serialize_eq (buffer : List UInt8) :
    (fields : List Value) → Value.AllWritable fields →
      serialize conversion buffer fields = (true, buffer ++ Value.payload conversion fields)
  | [], _ => by
      simp [serialize, Value.payload]
  | field :: rest, writable => by
      rw [serialize, write_eq buffer field writable.1]
      simp only
      rw [serialize_eq _ rest writable.2]
      simp [Value.payload]
end

end Serializer

end ThreadIpc.Serialization
