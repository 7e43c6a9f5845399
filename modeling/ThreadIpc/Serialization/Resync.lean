import ThreadIpc.Serialization.Atomicity
import ThreadIpc.Serialization.RoundTrip

/-!
# A stream of records

`CreateAndReadObject` moves past a record before its object reads, so that the next call starts at
the next record whatever the object did, as long as its `Deserialize` comes back at all.
-/

namespace ThreadIpc.Serialization

structure StreamRecord where
  classId : Int32
  payload : List UInt8
  small : payload.length < 2 ^ 31
  null : classId = SERIALIZABLE_NULL → payload = []

namespace StreamRecord

def bytes (stream : StreamRecord) : List UInt8 :=
  record stream.classId stream.payload

def allBytes (records : List StreamRecord) : List UInt8 :=
  records.flatMap bytes

def embedded (stream : StreamRecord) (reader : Deserializer) : Deserializer where
  buffer_ := reader.buffer_ + reader.readPos_ + 8
  length_ := stream.payload.length
  readPos_ := 0

def opened (stream : StreamRecord) (registered : Int32 → Bool) (reader : Deserializer) :
    Deserializer.Record :=
  if stream.classId = SERIALIZABLE_NULL then .null
  else if registered stream.classId then .object stream.classId (stream.embedded reader)
  else .unknownClass

theorem length_bytes (stream : StreamRecord) : stream.bytes.length = 8 + stream.payload.length := by
  simp only [bytes, record, List.length_append, length_intBytes]
  omega

theorem openRecord_eq {arch : Arch} {memory : Memory arch} {reader : Deserializer}
    (asserts : Bool) (registered : Int32 → Bool) (stream : StreamRecord)
    (faces : reader.Faces memory stream.bytes) :
    reader.openRecord asserts registered memory =
      .ok (stream.opened registered reader, reader.advance stream.bytes.length) := by
  have enough := faces.enough
  rw [length_bytes] at enough ⊢
  have header : reader.readPos_ + 8 ≤ reader.length_ := by omega
  have classId : reader.classIdField memory = stream.classId := faces.left.sizeField
  have rest := faces.right
  rw [length_intBytes] at rest
  have sizeField := rest.left.sizeField
  have toInt := Int32.toInt_ofNat_of_lt stream.small
  have toSize : arch.toSize (Int32.ofNat stream.payload.length) = stream.payload.length := by
    rw [Arch.toSize_of_nonneg (by omega)]
    omega
  have inBounds : (reader.advance 8).InBounds memory := faces.inBounds.advance header
  have start : arch.wrap ((reader.advance 8).buffer_ + (reader.advance 8).readPos_) =
      reader.buffer_ + reader.readPos_ + 8 := by
    rw [Arch.wrap_of_lt (inBounds.position_lt (by simp only [Deserializer.advance]; omega))]
    simp only [Deserializer.advance, Nat.add_assoc]
  have skipped : (reader.advance 8).skipTo arch (Int32.ofNat stream.payload.length) =
      reader.advance (8 + stream.payload.length) := by
    have fits : (reader.advance 8).readPos_ + stream.payload.length < 2 ^ arch.sizeBits :=
      inBounds.position_lt (by simp only [Deserializer.advance]; omega)
    rw [Deserializer.skipTo, toSize, Arch.wrap_of_lt fits]
    simp only [Deserializer.advance, Nat.add_assoc]
  rw [Deserializer.openRecord_header faces.inBounds header]
  simp only [classId, sizeField, start, skipped, toSize, opened, embedded]
  by_cases isNull : stream.classId = SERIALIZABLE_NULL
  · have empty := stream.null isNull
    simp only [isNull, if_true, empty, List.length_nil]
    rw [if_neg]
    rintro ⟨-, nonzero⟩
    exact nonzero rfl
  · simp only [isNull, if_false]
    cases registered stream.classId <;> rfl

end StreamRecord

section
variable {arch : Arch} (asserts : Bool) (conversion : Conversion)
variable (classes : Int32 → Option Program) (memory : Memory arch) (depth : Nat)

/-- `CreateAndReadObject` with its result, `*out` (`none` for NULL) and the deserializer after it. -/
def Deserializer.createAndReadInto (reader : Deserializer) :
    Except Fault (Bool × Option Value × Deserializer) := do
  match ← reader.openRecord asserts (fun classId => (classes classId).isSome) memory with
  | (.unreadable, reader) => .ok (false, none, reader)
  | (.null, reader) => .ok (true, none, reader)
  | (.unknownClass, reader) => .ok (false, none, reader)
  | (.object classId deserializer, reader) =>
      let program := (classes classId).getD (.done false)
      match ← program.run conversion memory
        (createAndReadObject asserts conversion classes memory depth) deserializer with
      | (some fields, _) => .ok (true, some (.object classId fields), reader)
      | (none, _) => .ok (false, none, reader)

def outcome : Bool × Option Value × Deserializer → Option Value × Deserializer
  | (false, _, reader) => (none, reader)
  | (true, out, reader) => (some (out.getD .null), reader)

theorem createAndReadObject_eq_into (reader : Deserializer) :
    reader.createAndReadObject asserts conversion classes memory (depth + 1) =
      (reader.createAndReadInto asserts conversion classes memory depth).map outcome := by
  rw [Deserializer.createAndReadObject, Deserializer.createAndReadInto]
  cases reader.openRecord asserts (fun classId => (classes classId).isSome) memory with
  | error fault => rfl
  | ok opened =>
      obtain ⟨record, reader⟩ := opened
      cases record with
      | unreadable => rfl
      | null => rfl
      | unknownClass => rfl
      | object classId deserializer =>
          simp only [bind, Except.bind]
          cases ((classes classId).getD (.done false)).run conversion memory
            (Deserializer.createAndReadObject asserts conversion classes memory depth)
            deserializer with
          | error fault => rfl
          | ok result =>
              obtain ⟨fields, nested⟩ := result
              cases fields <;> rfl

def StreamRecord.DeserializeReturns (reader : Deserializer) (stream : StreamRecord) : Prop :=
  stream.classId ≠ SERIALIZABLE_NULL → ∀ program, classes stream.classId = some program →
    ∃ result, program.run conversion memory
      (Deserializer.createAndReadObject asserts conversion classes memory depth)
      (stream.embedded reader) = .ok result

def StreamRecord.Resynchronised (reader : Deserializer) (stream : StreamRecord)
    (result : Bool × Option Value × Deserializer) : Prop :=
  result.2.2 = reader.advance stream.bytes.length ∧ (result.1 = false → result.2.1 = none)

variable {asserts conversion classes memory depth}

theorem createAndReadInto_returns_iff {reader : Deserializer} {stream : StreamRecord}
    (faces : reader.Faces memory stream.bytes) :
    (∃ result, reader.createAndReadInto asserts conversion classes memory depth = .ok result ∧
      stream.Resynchronised reader result) ↔
    stream.DeserializeReturns asserts conversion classes memory depth reader := by
  have open_ := stream.openRecord_eq asserts (fun classId => (classes classId).isSome) faces
  simp only [Deserializer.createAndReadInto, open_, bind, Except.bind, StreamRecord.opened,
    StreamRecord.DeserializeReturns]
  by_cases isNull : stream.classId = SERIALIZABLE_NULL
  · rw [if_pos isNull]
    refine iff_of_true ⟨_, rfl, rfl, ?_⟩ fun notNull => absurd isNull notNull
    intro failed
    cases failed
  · rw [if_neg isNull]
    by_cases registered : (classes stream.classId).isSome = true
    · obtain ⟨program, found⟩ := Option.isSome_iff_exists.mp registered
      rw [if_pos registered]
      simp only [found, Option.getD_some]
      cases ran : program.run conversion memory
        (Deserializer.createAndReadObject asserts conversion classes memory depth)
        (stream.embedded reader) with
      | error fault =>
          apply iff_of_false
          · rintro ⟨result, returned, -⟩
            cases returned
          · intro returns
            obtain ⟨result, returned⟩ := returns isNull program rfl
            rw [ran] at returned
            cases returned
      | ok result =>
          obtain ⟨fields, nested⟩ := result
          have returns : ∀ other, some program = some other → ∃ result,
              other.run conversion memory
                (Deserializer.createAndReadObject asserts conversion classes memory depth)
                (stream.embedded reader) = .ok result := by
            intro other same
            rw [← Option.some.inj same]
            exact ⟨_, ran⟩
          refine iff_of_true ?_ fun _ => returns
          cases fields with
          | none => exact ⟨_, rfl, rfl, fun _ => rfl⟩
          | some fields =>
              refine ⟨_, rfl, rfl, ?_⟩
              intro failed
              cases failed
    · rw [if_neg registered]
      refine iff_of_true ⟨_, rfl, rfl, fun _ => rfl⟩ ?_
      intro _ program found
      rw [found] at registered
      exact absurd rfl registered

variable (asserts conversion classes memory depth)

def Deserializer.readStream : Nat → Deserializer →
    Except Fault (List (Bool × Option Value × Deserializer))
  | 0, _ => .ok []
  | count + 1, reader => do
      let result ← reader.createAndReadInto asserts conversion classes memory depth
      let results ← readStream count result.2.2
      .ok (result :: results)

def StreamRecord.AllReturn : Deserializer → List StreamRecord → Prop
  | _, [] => True
  | reader, stream :: rest =>
      stream.DeserializeReturns asserts conversion classes memory depth reader ∧
        AllReturn (reader.advance stream.bytes.length) rest

def StreamRecord.AllResynchronised :
    Deserializer → List StreamRecord → List (Bool × Option Value × Deserializer) → Prop
  | _, [], results => results = []
  | _, _ :: _, [] => False
  | reader, stream :: rest, result :: results =>
      stream.Resynchronised reader result ∧
        AllResynchronised (reader.advance stream.bytes.length) rest results

variable {asserts conversion classes memory depth}

theorem readStream_returns_iff (done rest : List StreamRecord) {reader : Deserializer}
    (faces : reader.Faces memory (StreamRecord.allBytes (done ++ rest))) :
    (∃ results, reader.readStream asserts conversion classes memory depth done.length = .ok results ∧
      StreamRecord.AllResynchronised reader done results) ↔
    StreamRecord.AllReturn asserts conversion classes memory depth reader done := by
  induction done generalizing reader with
  | nil => exact iff_of_true ⟨[], rfl, rfl⟩ trivial
  | cons stream done ih =>
      have later := ih faces.right
      have here := @createAndReadInto_returns_iff arch asserts conversion classes memory depth reader
        stream faces.left
      simp only [StreamRecord.AllReturn, ← here, ← later, List.length_cons,
        Deserializer.readStream, bind, Except.bind]
      constructor
      · rintro ⟨results, ran, resynchronised⟩
        cases called : reader.createAndReadInto asserts conversion classes memory depth with
        | error fault =>
            rw [called] at ran
            cases ran
        | ok result =>
            simp only [called] at ran
            cases read : result.2.2.readStream asserts conversion classes memory depth
                done.length with
            | error fault =>
                rw [read] at ran
                cases ran
            | ok others =>
                rw [read] at ran
                cases ran
                rw [resynchronised.1.1] at read
                exact ⟨⟨result, rfl, resynchronised.1⟩, others, read, resynchronised.2⟩
      · rintro ⟨⟨result, called, resynchronised⟩, results, read, others⟩
        rw [← resynchronised.1] at read
        refine ⟨result :: results, ?_, resynchronised, others⟩
        simp only [called, read]

theorem stream_resynchronised_iff (done rest : List StreamRecord)
    (bytes : memory.bytes = StreamRecord.allBytes (done ++ rest)) :
    (∃ results, Deserializer.readStream asserts conversion classes memory depth done.length
        ⟨0, memory.bytes.length, 0⟩ = .ok results ∧
      StreamRecord.AllResynchronised ⟨0, memory.bytes.length, 0⟩ done results) ↔
    StreamRecord.AllReturn asserts conversion classes memory depth ⟨0, memory.bytes.length, 0⟩
      done := by
  have whole : memory.bytes = [] ++ StreamRecord.allBytes (done ++ rest) ++ [] := by
    rw [List.nil_append, List.append_nil, bytes]
  exact readStream_returns_iff done rest (Deserializer.faces_of_bytes whole)

end

section
variable {arch : Arch} {memory : Memory arch} {conversion : Conversion} {reader : Deserializer}

/-- `size + 1` or `size` itself, as a `size_t`, is then close to the largest one. -/
theorem readString_negative (inBounds : reader.InBounds memory)
    (header : reader.readPos_ + 4 ≤ reader.length_)
    (negative : (reader.sizeField memory).toInt < 0) :
    ∃ fault, reader.readString conversion memory = .error fault := by
  simp only [Deserializer.readString, Deserializer.readInt_enough inBounds header, bind, Except.bind]
  rw [← Deserializer.sizeField]
  by_cases allocates : reader.sizeField memory + 1 < 0
  · rw [if_pos allocates]
    exact ⟨_, rfl⟩
  · rw [if_neg allocates]
    have minusOne : (reader.sizeField memory).toInt = -1 := by
      rw [Int32.lt_iff_toInt_lt, Int32.toInt_add] at allocates
      have lower := (reader.sizeField memory).le_toInt
      simp only [Int32.toInt_one, Int32.toInt_zero, Int.bmod] at allocates
      split at allocates <;> omega
    have size : arch.toSize (reader.sizeField memory) = 2 ^ arch.sizeBits - 1 := by
      rw [Arch.toSize, minusOne]
      cases arch <;> rfl
    have buffer := inBounds.buffer
    have fits := Arch.double_lt memory.fits (Nat.zero_le _)
    have half : memory.bytes.length + 4 ≤ 2 ^ arch.sizeBits - 1 := by
      have small := memory.fits
      cases arch <;> simp only [Arch.sizeBits] at small ⊢ <;> omega
    have back : arch.wrap ((reader.advance 4).readPos_ + (2 ^ arch.sizeBits - 1)) =
        reader.readPos_ + 3 := by
      have sum : (reader.advance 4).readPos_ + (2 ^ arch.sizeBits - 1) =
          reader.readPos_ + 3 + 2 ^ arch.sizeBits := by
        simp only [Deserializer.advance]
        omega
      rw [sum, Arch.wrap, Nat.add_mod_right, Nat.mod_eq_of_lt (by omega)]
    rw [size, Deserializer.readBytes, back, if_neg]
    · simp only
      rw [if_neg]
      · exact ⟨_, rfl⟩
      · rintro (none | inside) <;> omega
    · show ¬ reader.readPos_ + 3 > reader.length_
      omega

theorem readString_returns_iff (inBounds : reader.InBounds memory) :
    (∃ result, reader.readString conversion memory = .ok result) ↔
      reader.length_ < reader.readPos_ + 4 ∨
        0 ≤ (reader.sizeField memory).toInt ∧ (reader.sizeField memory).toInt ≠ 2 ^ 31 - 1 := by
  by_cases short : reader.length_ < reader.readPos_ + 4
  · refine iff_of_true ?_ (.inl short)
    rw [Deserializer.readString_short inBounds short]
    exact ⟨_, rfl⟩
  · have header := not_lt.mp short
    by_cases negative : (reader.sizeField memory).toInt < 0
    · obtain ⟨fault, faulty⟩ := @readString_negative arch memory conversion reader inBounds header
        negative
      rw [faulty]
      refine iff_of_false (by rintro ⟨_, returned⟩; cases returned) ?_
      omega
    · by_cases max : (reader.sizeField memory).toInt = 2 ^ 31 - 1
      · rw [Deserializer.readString_overflow inBounds header max]
        refine iff_of_false (by rintro ⟨_, returned⟩; cases returned) ?_
        omega
      · have positive := not_lt.mp negative
        refine iff_of_true ?_ (.inr ⟨positive, max⟩)
        by_cases enough : reader.readPos_ + 4 + (reader.sizeField memory).toInt.toNat ≤
            reader.length_
        · rw [Deserializer.readString_enough inBounds positive max enough]
          exact ⟨_, rfl⟩
        · rw [Deserializer.readString_refused inBounds header positive max (not_le.mp enough)]
          exact ⟨_, rfl⟩

theorem StreamRecord.embedded_faces {stream : StreamRecord}
    (faces : reader.Faces memory stream.bytes) :
    (stream.embedded reader).Faces memory stream.payload := by
  have payload := faces.right.right
  rw [length_intBytes, length_intBytes] at payload
  have buffer := payload.inBounds.buffer
  have enough := payload.enough
  have next := payload.next
  simp only [Deserializer.advance] at buffer enough
  refine ⟨⟨?_, Nat.zero_le _⟩, (Nat.zero_add _).le, ?_⟩
  · simp only [StreamRecord.embedded]
    omega
  · rw [← next]
    simp only [StreamRecord.embedded, Deserializer.next, Deserializer.advance, Nat.add_assoc,
      Nat.add_zero]
    rw [List.length_take, List.length_drop]
    congr 1
    omega

theorem SerializableString16.returns_iff {asserts : Bool} {depth : Nat} {stream : StreamRecord}
    (string : stream.classId = SERIALIZABLE_STRING16) (faces : reader.Faces memory stream.bytes) :
    stream.DeserializeReturns asserts conversion constructors memory depth reader ↔
      stream.payload.length < 4 ∨
        0 ≤ (bytesInt (stream.payload.take 4)).toInt ∧
          (bytesInt (stream.payload.take 4)).toInt ≠ 2 ^ 31 - 1 := by
  have notNull : stream.classId ≠ SERIALIZABLE_NULL := by
    rw [string]
    decide
  have found : constructors stream.classId = some SerializableString16.deserialize := by
    rw [string]
    rfl
  have embedded := stream.embedded_faces faces
  have returns_iff : stream.DeserializeReturns asserts conversion constructors memory depth reader ↔
      ∃ result, (stream.embedded reader).readString conversion memory = .ok result := by
    simp only [StreamRecord.DeserializeReturns, found, Option.some.injEq, forall_eq', notNull,
      ne_eq, not_false_eq_true, true_implies, SerializableString16.deserialize, Program.run, bind,
      Except.bind]
    cases (stream.embedded reader).readString conversion memory with
    | error fault => exact iff_of_false (by rintro ⟨_, h⟩; cases h) (by rintro ⟨_, h⟩; cases h)
    | ok result => exact iff_of_true ⟨_, rfl⟩ ⟨_, rfl⟩
  have length : (stream.embedded reader).length_ < (stream.embedded reader).readPos_ + 4 ↔
      stream.payload.length < 4 := Iff.rfl
  rw [returns_iff, readString_returns_iff embedded.inBounds, length]
  refine or_congr_right' fun enough => ?_
  have sizeField : (stream.embedded reader).sizeField memory =
      bytesInt (stream.payload.take 4) := by
    have next := congrArg (List.take 4) embedded.next
    rw [Deserializer.next, List.take_take, Nat.min_eq_left (by omega)] at next
    rw [Deserializer.sizeField, Deserializer.next, next]
  rw [sizeField]

end

def mixedStream : List StreamRecord :=
  [⟨77, [1, 2, 3], by decide, by decide⟩, ⟨0, [], by decide, by decide⟩,
    ⟨SERIALIZABLE_STRING16, [1, 2], by decide, by decide⟩,
    ⟨SERIALIZABLE_STRING16, [1, 0, 0, 0, 97, 98], by decide, by decide⟩]

def mixedMemory : Memory .lp64 where
  bytes := StreamRecord.allBytes mixedStream
  fits := by decide +kernel

theorem mixedStream_resynchronised : ∃ results,
    Deserializer.readStream true ascii constructors mixedMemory 1 4
      ⟨0, mixedMemory.bytes.length, 0⟩ = .ok results ∧
    StreamRecord.AllResynchronised ⟨0, mixedMemory.bytes.length, 0⟩ mixedStream results := by
  have bytes : mixedMemory.bytes = StreamRecord.allBytes (mixedStream ++ []) := by
    rw [List.append_nil]
    rfl
  apply (stream_resynchronised_iff mixedStream [] bytes).mpr
  refine ⟨?_, ?_, ?_, ?_, trivial⟩
  · intro _ program found
    cases found
  · intro notNull
    exact absurd rfl notNull
  · intro _ program found
    cases found
    exact ⟨_, rfl⟩
  · intro _ program found
    cases found
    exact ⟨_, rfl⟩

def minusOneRecord : StreamRecord :=
  ⟨SERIALIZABLE_STRING16, [255, 255, 255, 255], by decide, by decide⟩

def minusOneMemory : Memory .lp64 where
  bytes := StreamRecord.allBytes [minusOneRecord]
  fits := by decide +kernel

theorem minusOne_not_resynchronised :
    Deserializer.createAndReadInto false ascii constructors minusOneMemory 1
        ⟨0, minusOneMemory.bytes.length, 0⟩ = .error .outOfBounds ∧
      ¬ ∃ results, Deserializer.readStream false ascii constructors minusOneMemory 1 1
          ⟨0, minusOneMemory.bytes.length, 0⟩ = .ok results ∧
        StreamRecord.AllResynchronised ⟨0, minusOneMemory.bytes.length, 0⟩ [minusOneRecord]
          results := by
  have faulty : Deserializer.createAndReadInto false ascii constructors minusOneMemory 1
      ⟨0, minusOneMemory.bytes.length, 0⟩ = .error .outOfBounds := by rfl
  refine ⟨faulty, ?_⟩
  rintro ⟨results, ran, -⟩
  simp only [Deserializer.readStream, faulty, bind, Except.bind] at ran
  cases ran

end ThreadIpc.Serialization
