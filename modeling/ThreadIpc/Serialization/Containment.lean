import ThreadIpc.Lib.Reachability
import ThreadIpc.Serialization.Reader

/-!
# Nested deserializers

A `Deserialize` method may make any calls in any order, so the caller of the innermost
`Deserializer` chooses the next call freely: a read, a nested object, which pushes its own
`Deserializer`, or the return of the `Deserialize` that runs.
-/

namespace ThreadIpc.Serialization

structure Setting where
  arch : Arch
  asserts : Bool
  registered : Int32 → Bool
  conversion : Conversion
  memory : Memory arch

structure Nest where
  current : Deserializer
  outer : List Deserializer
  returned : Option Bool
  deriving DecidableEq, Repr

inductive Machine
  | running (nest : Nest)
  | stopped (fault : Fault)
  deriving DecidableEq, Repr

inductive Call
  | readBool
  | readInt
  | readInt64
  | readBytes (length : Nat)
  | readString
  | createAndReadObject
  | deserializeReturns (ok : Bool)
  deriving DecidableEq, Repr

def Nest.after {α : Type} (nest : Nest) : Except Fault (Option α × Deserializer) → Machine
  | .error fault => .stopped fault
  | .ok (result, reader) =>
      .running { nest with current := reader, returned := some result.isSome }

def Nest.afterHeader (nest : Nest) :
    Except Fault (Deserializer.Record × Deserializer) → Machine
  | .error fault => .stopped fault
  | .ok (.unreadable, reader) | .ok (.unknownClass, reader) =>
      .running { nest with current := reader, returned := some false }
  | .ok (.null, reader) => .running { nest with current := reader, returned := some true }
  | .ok (.object _ deserializer, reader) =>
      .running { current := deserializer, outer := reader :: nest.outer, returned := none }

namespace Setting
variable (setting : Setting)

def step : Machine → Call → Option Machine
  | .stopped _, _ => none
  | .running nest, .readBool => some (nest.after (nest.current.readBool setting.memory))
  | .running nest, .readInt => some (nest.after (nest.current.readInt setting.memory))
  | .running nest, .readInt64 => some (nest.after (nest.current.readInt64 setting.memory))
  | .running nest, .readBytes length =>
      if length < 2 ^ setting.arch.sizeBits then
        some (nest.after (nest.current.readBytes setting.memory length))
      else none
  | .running nest, .readString =>
      some (nest.after (nest.current.readString setting.conversion setting.memory))
  | .running nest, .createAndReadObject =>
      some (nest.afterHeader
        (nest.current.openRecord setting.asserts setting.registered setting.memory))
  | .running nest, .deserializeReturns ok => match nest.outer with
      | [] => none
      | reader :: outer => some (.running ⟨reader, outer, some ok⟩)

def init : Machine :=
  .running ⟨⟨0, setting.memory.bytes.length, 0⟩, [], none⟩

def BadSize (reader : Deserializer) : Call → Prop
  | .readString => reader.readPos_ + 4 ≤ reader.length_ ∧
      ((reader.sizeField setting.memory).toInt < 0 ∨
        (reader.length_ : Int) < reader.readPos_ + 4 + (reader.sizeField setting.memory).toInt)
  | .createAndReadObject => reader.readPos_ + 8 ≤ reader.length_ ∧
      (((reader.advance 4).sizeField setting.memory).toInt < 0 ∨
        (reader.length_ : Int) <
          reader.readPos_ + 8 + ((reader.advance 4).sizeField setting.memory).toInt)
  | _ => False

def LengthsFit (reader : Deserializer) : Call → Prop
  | .readBytes length => reader.readPos_ + length ≤ reader.length_ ∨
      reader.length_ < setting.arch.wrap (reader.readPos_ + length)
  | .readString => setting.BadSize reader .readString →
      let size := (reader.sizeField setting.memory).toInt
      0 ≤ size ∧ size ≠ 2 ^ 31 - 1
  | .createAndReadObject => setting.BadSize reader .createAndReadObject →
      reader.classIdField setting.memory ≠ SERIALIZABLE_NULL ∧
      setting.registered (reader.classIdField setting.memory) = false ∧
      setting.arch.wrap (reader.readPos_ + 8 +
        setting.arch.toSize ((reader.advance 4).sizeField setting.memory)) ≤ reader.length_
  | _ => True

def lengthsFit : Machine → Call → Prop
  | .running nest, call => setting.LengthsFit nest.current call
  | .stopped _, _ => True

def Contained : Machine → Prop
  | .running nest => ∀ reader ∈ nest.current :: nest.outer, reader.InBounds setting.memory
  | .stopped fault => fault ≠ .outOfBounds

instance (reader : Deserializer) : (call : Call) → Decidable (setting.BadSize reader call)
  | .readString => inferInstanceAs (Decidable (_ ∧ (_ ∨ _)))
  | .createAndReadObject => inferInstanceAs (Decidable (_ ∧ (_ ∨ _)))
  | .readBool | .readInt | .readInt64 | .readBytes _ | .deserializeReturns _ =>
      inferInstanceAs (Decidable False)

instance (reader : Deserializer) : (call : Call) → Decidable (setting.LengthsFit reader call)
  | .readBytes _ => inferInstanceAs (Decidable (_ ∨ _))
  | .readString => inferInstanceAs (Decidable (setting.BadSize reader .readString → _ ∧ _))
  | .createAndReadObject =>
      inferInstanceAs (Decidable (setting.BadSize reader .createAndReadObject → _ ∧ _ ∧ _))
  | .readBool | .readInt | .readInt64 | .deserializeReturns _ => inferInstanceAs (Decidable True)

instance (call : Call) : (machine : Machine) → Decidable (setting.lengthsFit machine call)
  | .running nest => inferInstanceAs (Decidable (setting.LengthsFit nest.current call))
  | .stopped _ => inferInstanceAs (Decidable True)

variable {setting}

theorem contained_init : setting.Contained setting.init := by
  intro reader mem
  cases List.mem_singleton.mp mem
  exact ⟨by simp, Nat.zero_le _⟩

theorem contained_after {α : Type} {nest : Nest} {result : Option α} {reader : Deserializer}
    {read : Except Fault (Option α × Deserializer)} (contained : setting.Contained (.running nest))
    (ok : read = .ok (result, reader)) (inBounds : reader.InBounds setting.memory) :
    setting.Contained (nest.after read) := by
  subst ok
  intro other mem
  rcases List.mem_cons.mp mem with rfl | mem
  · exact inBounds
  · exact contained other (List.mem_cons_of_mem _ mem)

theorem contained_readString {nest : Nest} (contained : setting.Contained (.running nest))
    (fits : setting.LengthsFit nest.current .readString) :
    setting.Contained
      (nest.after (nest.current.readString setting.conversion setting.memory)) := by
  have inBounds := contained nest.current List.mem_cons_self
  by_cases header : nest.current.readPos_ + 4 ≤ nest.current.length_
  · by_cases bad : setting.BadSize nest.current .readString
    · obtain ⟨nonneg, notMax⟩ := fits bad
      have short := bad.2.resolve_left (not_lt.mpr nonneg)
      exact contained_after contained
        (Deserializer.readString_refused inBounds header nonneg notMax (by omega))
        (inBounds.advance header)
    · have nonneg : 0 ≤ (nest.current.sizeField setting.memory).toInt :=
        not_lt.mp fun negative => bad ⟨header, .inl negative⟩
      have enough : nest.current.readPos_ + 4 +
          (nest.current.sizeField setting.memory).toInt.toNat ≤ nest.current.length_ := by
        by_contra short
        exact bad ⟨header, .inr (by omega)⟩
      by_cases max : (nest.current.sizeField setting.memory).toInt = 2 ^ 31 - 1
      · rw [Deserializer.readString_overflow inBounds header max]
        exact nofun
      · exact contained_after contained
          (Deserializer.readString_enough inBounds nonneg max enough)
          ((inBounds.advance header).advance enough)
  · exact contained_after contained
      (Deserializer.readString_short inBounds (not_le.mp header)) inBounds

theorem contained_createAndReadObject {nest : Nest}
    (contained : setting.Contained (.running nest))
    (fits : setting.LengthsFit nest.current .createAndReadObject) :
    setting.Contained (nest.afterHeader
      (nest.current.openRecord setting.asserts setting.registered setting.memory)) := by
  have inBounds := contained nest.current List.mem_cons_self
  have replaced : ∀ {reader : Deserializer}, reader.InBounds setting.memory → ∀ returned,
      setting.Contained (.running { nest with current := reader, returned := returned }) := by
    intro reader readerInBounds returned other mem
    rcases List.mem_cons.mp mem with rfl | mem
    · exact readerInBounds
    · exact contained other (List.mem_cons_of_mem _ mem)
  by_cases header : nest.current.readPos_ + 8 ≤ nest.current.length_
  · rw [Deserializer.openRecord_header inBounds header]
    have inBounds' : (nest.current.advance 8).InBounds setting.memory := inBounds.advance header
    have good : ¬ setting.BadSize nest.current .createAndReadObject →
        (nest.current.advance 8).readPos_ +
            setting.arch.toSize ((nest.current.advance 4).sizeField setting.memory) ≤
          (nest.current.advance 8).length_ := by
      intro good
      have nonneg : 0 ≤ ((nest.current.advance 4).sizeField setting.memory).toInt :=
        not_lt.mp fun negative => good ⟨header, .inl negative⟩
      rw [Arch.toSize_of_nonneg nonneg]
      by_contra short
      exact good ⟨header, .inr (by simp only [Deserializer.advance] at *; omega)⟩
    have refused : setting.BadSize nest.current .createAndReadObject →
        setting.registered (nest.current.classIdField setting.memory) = false ∧
        setting.arch.wrap ((nest.current.advance 8).readPos_ +
            setting.arch.toSize ((nest.current.advance 4).sizeField setting.memory)) ≤
          (nest.current.advance 8).length_ := fun bad => (fits bad).2
    generalize (nest.current.advance 4).sizeField setting.memory = size at good refused ⊢
    have back : setting.arch.wrap ((nest.current.advance 8).readPos_ +
        setting.arch.toSize size) ≤ (nest.current.advance 8).length_ := by
      by_cases bad : setting.BadSize nest.current .createAndReadObject
      · exact (refused bad).2
      · have enough := good bad
        rwa [Arch.wrap_of_lt (inBounds'.position_lt (by omega))]
    simp only
    split
    · split
      · intro outside
        cases outside
      · exact replaced inBounds' _
    · split
      · rename_i registered
        have enough := good fun bad => by simp [(refused bad).1] at registered
        intro reader mem
        rcases List.mem_cons.mp mem with rfl | mem
        · exact inBounds'.nested enough
        · rcases List.mem_cons.mp mem with rfl | mem
          · exact inBounds'.skipTo back
          · exact contained reader (List.mem_cons_of_mem _ mem)
      · exact replaced (inBounds'.skipTo back) _
  · obtain ⟨reader, inBounds', unreadable⟩ :=
      Deserializer.openRecord_short inBounds (not_le.mp header)
    rw [unreadable]
    exact replaced inBounds' _

theorem contained_step {machine after : Machine} {call : Call}
    (contained : setting.Contained machine) (fits : setting.lengthsFit machine call)
    (moved : setting.step machine call = some after) : setting.Contained after := by
  cases machine with
  | stopped fault => contradiction
  | running nest =>
      have inBounds := contained nest.current List.mem_cons_self
      cases call with
      | readBool =>
          cases moved
          by_cases enough : nest.current.readPos_ + 1 ≤ nest.current.length_
          · exact contained_after contained (Deserializer.readBool_enough inBounds enough)
              (inBounds.advance enough)
          · exact contained_after contained
              (Deserializer.readBool_short inBounds (not_le.mp enough)) inBounds
      | readInt =>
          cases moved
          by_cases enough : nest.current.readPos_ + 4 ≤ nest.current.length_
          · exact contained_after contained (Deserializer.readInt_enough inBounds enough)
              (inBounds.advance enough)
          · exact contained_after contained
              (Deserializer.readInt_short inBounds (not_le.mp enough)) inBounds
      | readInt64 =>
          cases moved
          by_cases enough : nest.current.readPos_ + 8 ≤ nest.current.length_
          · exact contained_after contained (Deserializer.readInt64_enough inBounds enough)
              (inBounds.advance enough)
          · exact contained_after contained
              (Deserializer.readInt64_short inBounds (not_le.mp enough)) inBounds
      | readBytes length =>
          obtain ⟨_, ran⟩ := Option.ite_none_right_eq_some.mp moved
          cases ran
          rcases fits with enough | refused
          · exact contained_after contained (Deserializer.readBytes_enough inBounds enough)
              (inBounds.advance enough)
          · exact contained_after contained (Deserializer.readBytes_refused refused) inBounds
      | readString =>
          cases moved
          exact contained_readString contained fits
      | createAndReadObject =>
          cases moved
          exact contained_createAndReadObject contained fits
      | deserializeReturns ok =>
          simp only [step] at moved
          split at moved
          · contradiction
          · rename_i reader outer nested
            cases moved
            intro other mem
            exact contained other (List.mem_cons_of_mem _ (nested ▸ mem))

theorem badSize_returns_false {nest : Nest} {after : Machine} {call : Call}
    (contained : setting.Contained (.running nest)) (bad : setting.BadSize nest.current call)
    (fits : setting.LengthsFit nest.current call)
    (moved : setting.step (.running nest) call = some after) :
    ∃ reader, after = .running { nest with current := reader, returned := some false } := by
  have inBounds := contained nest.current List.mem_cons_self
  cases call with
  | readString =>
      cases moved
      obtain ⟨nonneg, notMax⟩ := fits bad
      have short := bad.2.resolve_left (not_lt.mpr nonneg)
      rw [Deserializer.readString_refused inBounds bad.1 nonneg notMax (by omega)]
      exact ⟨_, rfl⟩
  | createAndReadObject =>
      cases moved
      obtain ⟨notNull, unregistered, _⟩ := fits bad
      rw [Deserializer.openRecord_header inBounds bad.1]
      simp only [notNull, unregistered, if_false, Bool.false_eq_true]
      exact ⟨_, rfl⟩
  | readBool => exact bad.elim
  | readInt => exact bad.elim
  | readInt64 => exact bad.elim
  | readBytes length => exact bad.elim
  | deserializeReturns ok => exact bad.elim

end Setting

theorem deserializers_contained {setting : Setting} {machine : Machine}
    (reach : Lib.Reachable setting.step setting.lengthsFit setting.init machine) :
    setting.Contained machine ∧
    ∀ nest call after, machine = .running nest → setting.BadSize nest.current call →
      setting.lengthsFit machine call → setting.step machine call = some after →
      ∃ reader, after = .running { nest with current := reader, returned := some false } := by
  have contained : setting.Contained machine := reach.invariant Setting.contained_init
    fun _ _ _ contained fits moved => Setting.contained_step contained fits moved
  refine ⟨contained, ?_⟩
  rintro nest call after rfl bad fits moved
  exact Setting.badSize_returns_false contained bad fits moved

def untrusted (bytes : List UInt8) (fits : bytes.length < 2 ^ 63) : Setting where
  arch := .lp64
  asserts := false
  registered := fun classId => classId == 1
  conversion := ⟨fun _ => none, fun utf8 => some (utf8.map UInt8.toUInt16)⟩
  memory := ⟨bytes, fits⟩

def nestedString : Setting :=
  untrusted [1, 0, 0, 0, 8, 0, 0, 0, 4, 0, 0, 0, 116, 101, 120, 116, 1] (by decide)

def nestedStringRun : List Call :=
  [.createAndReadObject, .readString, .readInt, .deserializeReturns true, .readBool, .readString]

def nestedStringRead : Machine :=
  Lib.final nestedString.step nestedString.lengthsFit nestedString.init nestedStringRun
    (by decide +kernel)

theorem nestedStringRead_contained :
    nestedStringRead = .running ⟨⟨0, 17, 17⟩, [], some false⟩ ∧
    nestedString.Contained nestedStringRead := by
  have reach : Lib.Reachable nestedString.step nestedString.lengthsFit nestedString.init
      nestedStringRead := Lib.reachable_final nestedStringRun (by decide +kernel)
  exact ⟨by decide +kernel, (deserializers_contained reach).1⟩

def minusOneString : Setting :=
  untrusted [255, 255, 255, 255] (by decide)

theorem minusOneString_not_contained :
    ¬ ∀ machine, Lib.Reachable minusOneString.step Lib.anyAction minusOneString.init machine →
      minusOneString.Contained machine := by
  intro contained
  have read : minusOneString.step minusOneString.init .readString =
      some (.stopped .outOfBounds) := by decide +kernel
  exact contained _ (.next .start trivial read) rfl

end ThreadIpc.Serialization
