import ThreadIpc.Serialization.Encoding

/-!
# `WriteObject` with objects that fail to serialize

`Serialize` is the sequence of writes a method makes, with its result; a nested object that cannot
be written ends it with `false`.
-/

namespace ThreadIpc.Serialization

inductive Serialize
  | returns (ok : Bool)
  | writeBool (data : Bool) (next : Serialize)
  | writeInt (data : Int32) (next : Serialize)
  | writeInt64 (data : Int64) (next : Serialize)
  | writeBytes (data : List UInt8) (next : Serialize)
  | writeString (data : List UInt16) (next : Serialize)
  | writeNull (next : Serialize)
  | writeObject (classId : Int32) (serialize next : Serialize)

structure Serializable where
  classId : Int32
  serialize : Serialize

def record (classId : Int32) (payload : List UInt8) : List UInt8 :=
  intBytes classId ++ (intBytes (Int32.ofNat payload.length) ++ payload)

/-- `if (!...) return false;` -/
def Serializer.orFail (written : Bool × List UInt8) (next : List UInt8 → Bool × List UInt8) :
    Bool × List UInt8 :=
  if written.1 then next written.2 else (false, written.2)

namespace Serialize
variable (conversion : Conversion)

def run : Serialize → List UInt8 → Bool × List UInt8
  | .returns ok, buffer => (ok, buffer)
  | .writeBool data next, buffer => run next (Serializer.writeBool buffer data)
  | .writeInt data next, buffer => run next (Serializer.writeInt buffer data)
  | .writeInt64 data next, buffer => run next (Serializer.writeInt64 buffer data)
  | .writeBytes data next, buffer => run next (Serializer.writeBytes buffer data)
  | .writeString data next, buffer => run next (Serializer.writeString conversion buffer data)
  | .writeNull next, buffer => run next (Serializer.writeNull buffer).2
  | .writeObject classId serialize next, buffer =>
      Serializer.orFail (Serializer.writeObject buffer classId (run serialize)) (run next)

def payload : Serialize → List UInt8
  | .returns _ => []
  | .writeBool data next => (if data then 1 else 0) :: payload next
  | .writeInt data next => intBytes data ++ payload next
  | .writeInt64 data next => int64Bytes data ++ payload next
  | .writeBytes data next => data ++ payload next
  | .writeString data next =>
      intBytes (Int32.ofNat (Serializer.utf8String conversion data).length) ++
        (Serializer.utf8String conversion data ++ payload next)
  | .writeNull next => record SERIALIZABLE_NULL [] ++ payload next
  | .writeObject classId serialize next => record classId (payload serialize) ++ payload next

def SizesRight : Serialize → Prop
  | .returns _ => True
  | .writeBool _ next | .writeInt _ next | .writeInt64 _ next | .writeBytes _ next
  | .writeString _ next | .writeNull next => SizesRight next
  | .writeObject _ serialize next =>
      (Int32.ofNat (serialize.payload conversion).length).toInt =
        (serialize.payload conversion).length ∧ SizesRight serialize ∧ SizesRight next

def Succeeds : Serialize → Prop
  | .returns ok => ok = true
  | .writeBool _ next | .writeInt _ next | .writeInt64 _ next | .writeBytes _ next
  | .writeString _ next | .writeNull next => Succeeds next
  | .writeObject classId serialize next =>
      classId ≠ SERIALIZABLE_NULL ∧ Succeeds serialize ∧ Succeeds next

end Serialize

def Serializer.writeSerializable (conversion : Conversion) (buffer : List UInt8) :
    Option Serializable → Bool × List UInt8
  | none => Serializer.writeNull buffer
  | some obj => Serializer.writeObject buffer obj.classId (obj.serialize.run conversion)

structure Appends (serialize : List UInt8 → Bool × List UInt8) (data : List UInt8) : Prop where
  extends_ : ∀ buffer, buffer <+: (serialize buffer).2
  exact_ : ∀ buffer, (serialize buffer).1 = true → (serialize buffer).2 = buffer ++ data

theorem Appends.of_write (write : List UInt8 → List UInt8)
    {next : List UInt8 → Bool × List UInt8} {bytes data : List UInt8}
    (writes : ∀ buffer, write buffer = buffer ++ bytes) (appends : Appends next data) :
    Appends (fun buffer => next (write buffer)) (bytes ++ data) where
  extends_ := by
    intro buffer
    have front : buffer <+: write buffer := by
      rw [writes]
      exact List.prefix_append _ _
    exact front.trans (appends.extends_ _)
  exact_ := by
    intro buffer ok
    rw [appends.exact_ _ ok, writes, List.append_assoc]

section
variable {classId : Int32} {data rest buffer : List UInt8}
variable {serialize next : List UInt8 → Bool × List UInt8}

theorem writeObject_fails (appends : Appends serialize data)
    (fails : (Serializer.writeObject buffer classId serialize).1 = false) :
    (Serializer.writeObject buffer classId serialize).2 = buffer := by
  unfold Serializer.writeObject at fails ⊢
  by_cases null : classId = SERIALIZABLE_NULL
  · rw [if_pos null]
  · rw [if_neg null] at fails ⊢
    have kept := appends.extends_ (Serializer.writeInt (Serializer.writeInt buffer classId) 0)
    simp only at fails ⊢
    cases wrote : serialize (Serializer.writeInt (Serializer.writeInt buffer classId) 0) with
    | mk ok after =>
        rw [wrote] at kept fails
        cases ok with
        | true => contradiction
        | false =>
            obtain ⟨tail, grown⟩ := kept
            simp only [Serializer.writeInt, Serializer.writeBytes, List.append_assoc] at grown
            show after.take buffer.length = buffer
            rw [← grown, List.take_left]

theorem writeObject_ok_iff : (Serializer.writeObject buffer classId serialize).1 = true ↔
    classId ≠ SERIALIZABLE_NULL ∧
      (serialize (Serializer.writeInt (Serializer.writeInt buffer classId) 0)).1 = true := by
  unfold Serializer.writeObject
  by_cases null : classId = SERIALIZABLE_NULL
  · simp [null]
  · rcases wrote : serialize (Serializer.writeInt (Serializer.writeInt buffer classId) 0)
      with ⟨ok, written⟩
    cases ok <;> simp [null, wrote]

theorem writeObject_succeeds (appends : Appends serialize data)
    (ok : (Serializer.writeObject buffer classId serialize).1 = true) :
    (Serializer.writeObject buffer classId serialize).2 = buffer ++ record classId data := by
  unfold Serializer.writeObject at ok ⊢
  by_cases null : classId = SERIALIZABLE_NULL
  · rw [if_pos null] at ok
    contradiction
  · rw [if_neg null] at ok ⊢
    have exact_ := appends.exact_ (Serializer.writeInt (Serializer.writeInt buffer classId) 0)
    simp only at ok ⊢
    cases wrote : serialize (Serializer.writeInt (Serializer.writeInt buffer classId) 0) with
    | mk result after =>
        rw [wrote] at exact_ ok
        cases result with
        | false => contradiction
        | true =>
            have grown : after = Serializer.writeInt (Serializer.writeInt buffer classId) 0 ++ data :=
              exact_ rfl
            have size : after.length -
                (Serializer.writeInt (Serializer.writeInt buffer classId) 0).length = data.length := by
              rw [grown, List.length_append, Nat.add_sub_cancel_left]
            show Serializer.storeInt after (Serializer.writeInt buffer classId).length
              (Int32.ofNat (after.length -
                (Serializer.writeInt (Serializer.writeInt buffer classId) 0).length)) = _
            rw [size, grown]
            exact (Serializer.storeInt_after _ _ _ _ (length_intBytes 0)).trans
              (by simp only [Serializer.writeInt, Serializer.writeBytes, record, List.append_assoc])

theorem Appends.writeObject (appends : Appends serialize data) (after : Appends next rest) :
    Appends (fun buffer => Serializer.orFail (Serializer.writeObject buffer classId serialize) next)
      (record classId data ++ rest) where
  extends_ := by
    intro buffer
    cases ok : (Serializer.writeObject buffer classId serialize).1 with
    | false =>
        have rewound := writeObject_fails appends ok
        rw [Serializer.orFail, ok, if_neg Bool.false_ne_true]
        exact ⟨[], (List.append_nil buffer).trans rewound.symm⟩
    | true =>
        have grown := writeObject_succeeds appends ok
        rw [Serializer.orFail, ok, if_pos rfl, grown]
        exact (List.prefix_append _ _).trans (after.extends_ _)
  exact_ := by
    intro buffer succeeds
    cases ok : (Serializer.writeObject buffer classId serialize).1 with
    | false =>
        rw [Serializer.orFail, ok, if_neg Bool.false_ne_true] at succeeds
        contradiction
    | true =>
        rw [Serializer.orFail, ok, if_pos rfl] at succeeds ⊢
        rw [after.exact_ _ succeeds, writeObject_succeeds appends ok, List.append_assoc]

end

namespace Serialize
variable {conversion : Conversion}

theorem run_appends (serialize : Serialize) :
    Appends (serialize.run conversion) (serialize.payload conversion) := by
  induction serialize with
  | returns ok => exact ⟨fun _ => List.prefix_rfl, fun _ _ => (List.append_nil _).symm⟩
  | writeBool data next ih => exact ih.of_write (Serializer.writeBool · data) fun _ => rfl
  | writeInt data next ih => exact ih.of_write (Serializer.writeInt · data) fun _ => rfl
  | writeInt64 data next ih => exact ih.of_write (Serializer.writeInt64 · data) fun _ => rfl
  | writeBytes data next ih => exact ih.of_write (Serializer.writeBytes · data) fun _ => rfl
  | writeString data next ih =>
      rw [payload, ← List.append_assoc]
      exact ih.of_write (Serializer.writeString conversion · data) fun _ => List.append_assoc ..
  | writeNull next ih =>
      exact ih.of_write (fun buffer => (Serializer.writeNull buffer).2) fun _ =>
        List.append_assoc ..
  | writeObject classId serialize next ih ihNext => exact ih.writeObject ihNext

theorem toInt_length {data : List UInt8} (small : data.length < 2 ^ 31) :
    (Int32.ofNat data.length).toInt = data.length :=
  Int32.toInt_ofNat_of_lt small

theorem sizesRight_of_small (serialize : Serialize)
    (small : (serialize.payload conversion).length < 2 ^ 31) : serialize.SizesRight conversion := by
  induction serialize with
  | returns ok => trivial
  | writeBool data next ih =>
      apply ih
      simp only [payload, List.length_cons] at small
      omega
  | writeInt data next ih | writeInt64 data next ih | writeBytes data next ih
  | writeString data next ih | writeNull next ih =>
      apply ih
      simp only [payload, List.length_append] at small
      omega
  | writeObject classId serialize next ih ihNext =>
      simp only [payload, record, List.length_append] at small
      have inner : (serialize.payload conversion).length < 2 ^ 31 := by omega
      exact ⟨toInt_length inner, ih inner, ihNext (by omega)⟩

theorem run_succeeds_iff (serialize : Serialize) (buffer : List UInt8) :
    (serialize.run conversion buffer).1 = true ↔ serialize.Succeeds := by
  induction serialize generalizing buffer with
  | returns ok => exact Iff.rfl
  | writeBool data next ih | writeInt data next ih | writeInt64 data next ih
  | writeBytes data next ih | writeString data next ih | writeNull next ih => exact ih _
  | writeObject classId serialize next ih ihNext =>
      have object := @writeObject_ok_iff classId buffer (serialize.run conversion)
      rw [ih] at object
      rw [run, Succeeds, Serializer.orFail, ← and_assoc, ← object]
      cases ok : (Serializer.writeObject buffer classId (serialize.run conversion)).1 with
      | false => simp
      | true =>
          rw [if_pos rfl, ihNext]
          exact (and_iff_right rfl).symm

end Serialize

namespace Serializable

def classIdOf : Option Serializable → Int32
  | none => SERIALIZABLE_NULL
  | some obj => obj.classId

def payloadOf (conversion : Conversion) : Option Serializable → List UInt8
  | none => []
  | some obj => obj.serialize.payload conversion

def SizesRight (conversion : Conversion) : Option Serializable → Prop
  | none => True
  | some obj =>
      (Int32.ofNat (obj.serialize.payload conversion).length).toInt =
        (obj.serialize.payload conversion).length ∧ obj.serialize.SizesRight conversion

def Succeeds : Option Serializable → Prop
  | none => True
  | some obj => obj.classId ≠ SERIALIZABLE_NULL ∧ obj.serialize.Succeeds

variable {conversion : Conversion}

theorem sizesRight_iff (obj : Option Serializable) :
    SizesRight conversion obj ↔ (payloadOf conversion obj).length < 2 ^ 31 := by
  cases obj with
  | none => exact iff_of_true trivial (show 0 < 2 ^ 31 by decide)
  | some obj =>
      constructor
      · rintro ⟨size, -⟩
        have upper := (Int32.ofNat (obj.serialize.payload conversion).length).toInt_lt
        rw [size] at upper
        show (obj.serialize.payload conversion).length < 2 ^ 31
        omega
      · intro small
        exact ⟨Serialize.toInt_length small, Serialize.sizesRight_of_small _ small⟩

theorem writeSerializable_succeeds_iff (buffer : List UInt8) (obj : Option Serializable) :
    (Serializer.writeSerializable conversion buffer obj).1 = true ↔ Succeeds obj := by
  cases obj with
  | none => exact iff_of_true rfl trivial
  | some obj =>
      rw [Serializer.writeSerializable, writeObject_ok_iff, Serialize.run_succeeds_iff]
      rfl

theorem writeSerializable_atomic (conversion : Conversion) (buffer : List UInt8)
    (obj : Option Serializable) :
    ((Serializer.writeSerializable conversion buffer obj).1 = false →
      (Serializer.writeSerializable conversion buffer obj).2 = buffer) ∧
    ((Serializer.writeSerializable conversion buffer obj).1 = true →
      (Serializer.writeSerializable conversion buffer obj).2 =
        buffer ++ record (classIdOf obj) (payloadOf conversion obj)) := by
  cases obj with
  | none =>
      constructor
      · intro fails
        cases fails
      · intro _
        exact List.append_assoc ..
  | some obj =>
      exact ⟨writeObject_fails obj.serialize.run_appends,
        writeObject_succeeds obj.serialize.run_appends⟩

end Serializable

theorem writeObject_atomic (conversion : Conversion) (buffer : List UInt8)
    (obj : Option Serializable) :
    ((Serializer.writeSerializable conversion buffer obj).1 = false →
      (Serializer.writeSerializable conversion buffer obj).2 = buffer) ∧
    ((Serializer.writeSerializable conversion buffer obj).1 = true →
      (Serializer.writeSerializable conversion buffer obj).2 = buffer ++
        record (Serializable.classIdOf obj) (Serializable.payloadOf conversion obj) ∧
      (Serializable.SizesRight conversion obj ↔
        (Serializable.payloadOf conversion obj).length < 2 ^ 31)) := by
  obtain ⟨rewound, appended⟩ := Serializable.writeSerializable_atomic conversion buffer obj
  refine ⟨rewound, ?_⟩
  intro ok
  exact ⟨appended ok, Serializable.sizesRight_iff obj⟩

/-- `SerializationTest` around data that cannot be serialized. -/
def failingNotification : Serializable :=
  ⟨8, .writeString [104, 105] (.writeObject 1 (.writeBool true (.returns false)) (.returns true))⟩

example (conversion : Conversion) :
    Serializer.writeSerializable conversion [7] (some failingNotification) = (false, [7]) := by
  have result : (Serializer.writeSerializable conversion [7] (some failingNotification)).1 = false := by
    rw [← Bool.not_eq_true, Serializable.writeSerializable_succeeds_iff]
    intro ok
    cases ok.2.2.1
  exact Prod.ext result ((Serializable.writeSerializable_atomic conversion [7] _).1 result)

theorem oversized_payload_written : ∃ (conversion : Conversion) (obj : Option Serializable),
    (Serializer.writeSerializable conversion [] obj).1 = true ∧
      (Serializable.payloadOf conversion obj).length = 2 ^ 31 ∧
      (Int32.ofNat (Serializable.payloadOf conversion obj).length).toInt = -2 ^ 31 ∧
      ¬ Serializable.SizesRight conversion obj := by
  have zeros : (List.replicate (2 ^ 31) (0 : UInt8)).length = 2 ^ 31 := List.length_replicate
  generalize List.replicate (2 ^ 31) (0 : UInt8) = data at zeros
  let obj : Option Serializable := some ⟨1, .writeBytes data (.returns true)⟩
  let conversion : Conversion := ⟨fun _ => none, fun _ => none⟩
  have length : (Serializable.payloadOf conversion obj).length = 2 ^ 31 := by
    show (data ++ []).length = 2 ^ 31
    rw [List.append_nil, zeros]
  refine ⟨conversion, obj, ?_, length, ?_, ?_⟩
  · rw [Serializable.writeSerializable_succeeds_iff]
    exact ⟨(show (1 : Int32) ≠ SERIALIZABLE_NULL by decide), rfl⟩
  · rw [length]
    decide +kernel
  · rw [Serializable.sizesRight_iff, length]
    exact lt_irrefl _

end ThreadIpc.Serialization
