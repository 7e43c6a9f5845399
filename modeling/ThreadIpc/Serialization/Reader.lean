import ThreadIpc.Serialization.Model

namespace ThreadIpc.Serialization

variable {arch : Arch}

theorem Arch.wrap_of_lt {size : Nat} (fits : size < 2 ^ arch.sizeBits) : arch.wrap size = size :=
  Nat.mod_eq_of_lt fits

theorem Arch.double_lt {size other : Nat} (fits : size < 2 ^ (arch.sizeBits - 1))
    (small : other ≤ 2 ^ 31) : size + other < 2 ^ arch.sizeBits := by
  cases arch <;> simp only [Arch.sizeBits] at * <;> omega

theorem Arch.toSize_of_nonneg {size : Int32} (nonneg : 0 ≤ size.toInt) :
    arch.toSize size = size.toInt.toNat := by
  have upper := size.toInt_lt
  cases arch <;> simp only [Arch.toSize, Arch.sizeBits] <;> omega

namespace Deserializer

structure InBounds (memory : Memory arch) (reader : Deserializer) : Prop where
  buffer : reader.buffer_ + reader.length_ ≤ memory.bytes.length
  position : reader.readPos_ ≤ reader.length_

def advance (reader : Deserializer) (length : Nat) : Deserializer :=
  { reader with readPos_ := reader.readPos_ + length }

def next (memory : Memory arch) (reader : Deserializer) (length : Nat) : List UInt8 :=
  (memory.bytes.drop (reader.buffer_ + reader.readPos_)).take length

variable {memory : Memory arch} {reader : Deserializer}

theorem InBounds.advance (inBounds : reader.InBounds memory) {length : Nat}
    (enough : reader.readPos_ + length ≤ reader.length_) :
    (reader.advance length).InBounds memory :=
  ⟨inBounds.buffer, enough⟩

theorem InBounds.sum_lt (inBounds : reader.InBounds memory) {length : Nat}
    (small : length ≤ 2 ^ 31) : reader.readPos_ + length < 2 ^ arch.sizeBits := by
  apply Arch.double_lt _ small
  have buffer := inBounds.buffer
  have position := inBounds.position
  have fits := memory.fits
  omega

theorem readBytes_enough (inBounds : reader.InBounds memory) {length : Nat}
    (enough : reader.readPos_ + length ≤ reader.length_) :
    reader.readBytes memory length = .ok (some (reader.next memory length), reader.advance length) := by
  have buffer := inBounds.buffer
  have fits := Arch.double_lt memory.fits (Nat.zero_le _)
  have end_lt : reader.readPos_ + length < 2 ^ arch.sizeBits := by omega
  have start_lt : reader.buffer_ + reader.readPos_ < 2 ^ arch.sizeBits := by omega
  have inside : reader.buffer_ + reader.readPos_ + length ≤ memory.bytes.length := by omega
  simp only [readBytes, Arch.wrap_of_lt end_lt, Arch.wrap_of_lt start_lt, gt_iff_lt,
    not_lt.mpr enough, inside, or_true, if_true, if_false, Deserializer.next,
    Deserializer.advance]

theorem readBytes_refused {length : Nat}
    (refused : reader.length_ < arch.wrap (reader.readPos_ + length)) :
    reader.readBytes memory length = .ok (none, reader) := by
  simp only [readBytes, gt_iff_lt, refused, if_true]

theorem readBytes_short (inBounds : reader.InBounds memory) {length : Nat}
    (small : length ≤ 2 ^ 31) (short : reader.length_ < reader.readPos_ + length) :
    reader.readBytes memory length = .ok (none, reader) := by
  apply readBytes_refused
  rwa [Arch.wrap_of_lt (inBounds.sum_lt small)]

section Scalars

theorem readInt_enough (inBounds : reader.InBounds memory)
    (enough : reader.readPos_ + 4 ≤ reader.length_) :
    reader.readInt memory = .ok (some (bytesInt (reader.next memory 4)), reader.advance 4) := by
  rw [readInt, readBytes_enough inBounds enough]
  rfl

theorem readInt_short (inBounds : reader.InBounds memory)
    (short : reader.length_ < reader.readPos_ + 4) :
    reader.readInt memory = .ok (none, reader) := by
  rw [readInt, readBytes_short inBounds (by decide) short]
  rfl

theorem readInt64_enough (inBounds : reader.InBounds memory)
    (enough : reader.readPos_ + 8 ≤ reader.length_) :
    reader.readInt64 memory =
      .ok (some (bytesInt64 (reader.next memory 8)), reader.advance 8) := by
  rw [readInt64, readBytes_enough inBounds enough]
  rfl

theorem readInt64_short (inBounds : reader.InBounds memory)
    (short : reader.length_ < reader.readPos_ + 8) :
    reader.readInt64 memory = .ok (none, reader) := by
  rw [readInt64, readBytes_short inBounds (by decide) short]
  rfl

theorem readBool_enough (inBounds : reader.InBounds memory)
    (enough : reader.readPos_ + 1 ≤ reader.length_) :
    reader.readBool memory = .ok (some (reader.next memory 1 != [0]), reader.advance 1) := by
  rw [readBool, readBytes_enough inBounds enough]
  rfl

theorem readBool_short (inBounds : reader.InBounds memory)
    (short : reader.length_ < reader.readPos_ + 1) :
    reader.readBool memory = .ok (none, reader) := by
  rw [readBool, readBytes_short inBounds (by decide) short]
  rfl

end Scalars

def sizeField (memory : Memory arch) (reader : Deserializer) : Int32 :=
  bytesInt (reader.next memory 4)

section Strings
variable {conversion : Conversion}

theorem readString_short (inBounds : reader.InBounds memory)
    (short : reader.length_ < reader.readPos_ + 4) :
    reader.readString conversion memory = .ok (none, reader) := by
  rw [readString, readInt_short inBounds short]
  rfl

theorem succ_neg_iff {size : Int32} (nonneg : 0 ≤ size.toInt) :
    size + 1 < 0 ↔ size.toInt = 2 ^ 31 - 1 := by
  have upper := size.toInt_lt
  rw [Int32.lt_iff_toInt_lt, Int32.toInt_add]
  simp only [Int32.toInt_one, Int32.toInt_zero, Int.bmod]
  split <;> omega

theorem readString_enough (inBounds : reader.InBounds memory)
    (nonneg : 0 ≤ (reader.sizeField memory).toInt)
    (notMax : (reader.sizeField memory).toInt ≠ 2 ^ 31 - 1)
    (enough : reader.readPos_ + 4 + (reader.sizeField memory).toInt.toNat ≤ reader.length_) :
    reader.readString conversion memory =
      .ok (conversion.utf8ToString16
          (((reader.advance 4).next memory (reader.sizeField memory).toInt.toNat).takeWhile
            (· != 0)),
        (reader.advance 4).advance (reader.sizeField memory).toInt.toNat) := by
  have header : reader.readPos_ + 4 ≤ reader.length_ := by omega
  have allocates : ¬ reader.sizeField memory + 1 < 0 := mt (succ_neg_iff nonneg).mp notMax
  have payload := readBytes_enough (inBounds.advance header) enough
  simp only [readString, readInt_enough inBounds header, bind, Except.bind]
  rw [← sizeField, if_neg allocates, Arch.toSize_of_nonneg nonneg, payload]

theorem readString_refused (inBounds : reader.InBounds memory)
    (header : reader.readPos_ + 4 ≤ reader.length_)
    (nonneg : 0 ≤ (reader.sizeField memory).toInt)
    (notMax : (reader.sizeField memory).toInt ≠ 2 ^ 31 - 1)
    (short : reader.length_ < reader.readPos_ + 4 + (reader.sizeField memory).toInt.toNat) :
    reader.readString conversion memory = .ok (none, reader.advance 4) := by
  have upper := (reader.sizeField memory).toInt_lt
  have allocates : ¬ reader.sizeField memory + 1 < 0 := mt (succ_neg_iff nonneg).mp notMax
  have payload := readBytes_short (inBounds.advance header) (by omega) short
  simp only [readString, readInt_enough inBounds header, bind, Except.bind]
  rw [← sizeField, if_neg allocates, Arch.toSize_of_nonneg nonneg, payload]

theorem readString_overflow
    (inBounds : reader.InBounds memory) (header : reader.readPos_ + 4 ≤ reader.length_)
    (max : (reader.sizeField memory).toInt = 2 ^ 31 - 1) :
    reader.readString conversion memory = .error .badAlloc := by
  have overflows : reader.sizeField memory + 1 < 0 := (succ_neg_iff (by omega)).mpr max
  simp only [readString, readInt_enough inBounds header, bind, Except.bind]
  rw [← sizeField, if_pos overflows]

end Strings

section Records
variable {asserts : Bool} {registered : Int32 → Bool}

theorem openRecord_short (inBounds : reader.InBounds memory)
    (short : reader.length_ < reader.readPos_ + 8) :
    ∃ reader', reader'.InBounds memory ∧
      reader.openRecord asserts registered memory = .ok (.unreadable, reader') := by
  by_cases classId : reader.readPos_ + 4 ≤ reader.length_
  · refine ⟨reader.advance 4, inBounds.advance classId, ?_⟩
    have size := readInt_short (inBounds.advance classId)
      (show reader.length_ < reader.readPos_ + 4 + 4 by omega)
    simp only [openRecord, readInt_enough inBounds classId, size, bind, Except.bind]
  · refine ⟨reader, inBounds, ?_⟩
    simp only [openRecord, readInt_short inBounds (not_le.mp classId), bind, Except.bind]

def classIdField (memory : Memory arch) (reader : Deserializer) : Int32 :=
  bytesInt (reader.next memory 4)

def skipTo (arch : Arch) (reader : Deserializer) (size : Int32) : Deserializer :=
  { reader with readPos_ := arch.wrap (reader.readPos_ + arch.toSize size) }

theorem InBounds.skipTo (inBounds : reader.InBounds memory) {size : Int32}
    (back : arch.wrap (reader.readPos_ + arch.toSize size) ≤ reader.length_) :
    (reader.skipTo arch size).InBounds memory :=
  ⟨inBounds.buffer, back⟩

theorem InBounds.position_lt (inBounds : reader.InBounds memory) {position : Nat}
    (inside : position ≤ reader.buffer_ + reader.length_) : position < 2 ^ arch.sizeBits := by
  have buffer := inBounds.buffer
  have fits := Arch.double_lt memory.fits (Nat.zero_le _)
  omega

theorem InBounds.nested (inBounds : reader.InBounds memory) {length : Nat}
    (enough : reader.readPos_ + length ≤ reader.length_) :
    InBounds memory ⟨arch.wrap (reader.buffer_ + reader.readPos_), length, 0⟩ := by
  have buffer := inBounds.buffer
  have start_lt : reader.buffer_ + reader.readPos_ < 2 ^ arch.sizeBits :=
    inBounds.position_lt (by omega)
  refine ⟨?_, Nat.zero_le _⟩
  simp only [Arch.wrap_of_lt start_lt]
  omega

theorem openRecord_header (inBounds : reader.InBounds memory)
    (enough : reader.readPos_ + 8 ≤ reader.length_) :
    reader.openRecord asserts registered memory =
      let classId := reader.classIdField memory
      let size := (reader.advance 4).sizeField memory
      let reader := reader.advance 8
      if classId = SERIALIZABLE_NULL then
        if asserts ∧ size ≠ 0 then .error .assertFailed else .ok (.null, reader)
      else if registered classId then
        .ok (.object classId ⟨arch.wrap (reader.buffer_ + reader.readPos_), arch.toSize size, 0⟩,
          reader.skipTo arch size)
      else .ok (.unknownClass, reader.skipTo arch size) := by
  have classId := readInt_enough inBounds (show reader.readPos_ + 4 ≤ reader.length_ by omega)
  have inBounds' : (reader.advance 4).InBounds memory := inBounds.advance (by omega)
  have size := readInt_enough inBounds' (show reader.readPos_ + 4 + 4 ≤ reader.length_ by omega)
  simp only [openRecord, classId, size, bind, Except.bind]
  rfl

end Records

end Deserializer

end ThreadIpc.Serialization
