import ThreadIpc.SecurityModel.Model
import Mathlib.Algebra.Order.Ring.Int

namespace ThreadIpc.SecurityModel

def readBack : String16 → Int
  | [] => 0
  | unit :: rest => if unit = 45 then -leadingNumber rest 0 else leadingNumber (unit :: rest) 0

def IsDigit (unit : UInt16) : Prop := 48 ≤ unit ∧ unit ≤ 57

theorem digit_value (number : Nat) : (digit number).toNat = 48 + number % 10 := by
  rw [digit, UInt16.toNat_ofNat']
  omega

theorem digit_isDigit (number : Nat) : IsDigit (digit number) := by
  rw [IsDigit, UInt16.le_iff_toNat_le, UInt16.le_iff_toNat_le, digit_value]
  have below := Nat.mod_lt number (show 0 < 10 by decide)
  constructor
  · exact Nat.le_add_right _ _
  · exact Nat.add_le_add_left (Nat.le_of_lt_succ below) 48

theorem leadingNumber_digit (last : Nat) (rest : String16) (number : Int) :
    leadingNumber (digit last :: rest) number =
      leadingNumber rest (number * 10 + (last % 10 : Nat)) := by
  have isDigit : 48 ≤ digit last ∧ digit last ≤ 57 := digit_isDigit last
  rw [leadingNumber, if_pos isDigit, digit_value]
  congr 1
  omega

theorem leadingNumber_writeDigits (digits : Nat) {number : Nat} (fits : number < 10 ^ digits)
    (written : String16) :
    leadingNumber (writeDigits digits number written) 0 = leadingNumber written number := by
  induction digits generalizing number written with
  | zero =>
      have zero : number = 0 := by simpa using fits
      rw [writeDigits, zero]
      rfl
  | succ digits ih =>
      rw [writeDigits]
      split
      · rw [ih (Nat.div_lt_of_lt_mul (by rw [← Nat.pow_succ']; exact fits)), leadingNumber_digit]
        congr 1
        omega
      · rw [leadingNumber_digit]
        congr 1
        omega

theorem mem_writeDigits (digits number : Nat) {unit : UInt16} {written : String16}
    (member : unit ∈ writeDigits digits number written) : IsDigit unit ∨ unit ∈ written := by
  have split_ {number : Nat} {written : String16} (member : unit ∈ digit number :: written) :
      IsDigit unit ∨ unit ∈ written := by
    rcases List.mem_cons.mp member with rfl | later
    · exact .inl (digit_isDigit number)
    · exact .inr later
  induction digits generalizing number written with
  | zero => exact .inr member
  | succ digits ih =>
      rw [writeDigits] at member
      split at member
      · rcases ih _ member with isDigit | later
        · exact .inl isDigit
        · exact split_ later
      · exact split_ member

theorem writeDigits_ne_nil (digits number : Nat) {written : String16} (some_ : written ≠ []) :
    writeDigits digits number written ≠ [] := by
  induction digits generalizing number written with
  | zero => exact some_
  | succ digits ih =>
      rw [writeDigits]
      split
      · exact ih _ (List.cons_ne_nil _ _)
      · exact List.cons_ne_nil _ _

theorem writeDigits_cons (digits number : Nat) :
    ∃ unit rest, writeDigits (digits + 1) number [] = unit :: rest ∧ IsDigit unit := by
  have some_ : writeDigits (digits + 1) number [] ≠ [] := by
    rw [writeDigits]
    split
    · exact writeDigits_ne_nil _ _ (List.cons_ne_nil _ _)
    · exact List.cons_ne_nil _ _
  obtain ⟨unit, rest, written⟩ := List.exists_cons_of_ne_nil some_
  refine ⟨unit, rest, written, ?_⟩
  have member : unit ∈ writeDigits (digits + 1) number [] := written ▸ List.mem_cons_self
  exact (mem_writeDigits _ _ member).resolve_right List.not_mem_nil

theorem IsDigit.ne_minus {unit : UInt16} (isDigit : IsDigit unit) : unit ≠ 45 := by
  rintro rfl
  exact absurd isDigit.1 (by decide)

theorem readBack_fastIntToBuffer {number : Int} (below : number < 10 ^ 10)
    (above : -(10 ^ 10) < number) : readBack (fastIntToBuffer number) = number := by
  rw [fastIntToBuffer]
  split
  · rename_i nonneg
    obtain ⟨unit, rest, written, isDigit⟩ := writeDigits_cons 9 number.toNat
    have value := leadingNumber_writeDigits 10 (show number.toNat < 10 ^ 10 by omega) []
    rw [written] at value ⊢
    rw [readBack, if_neg isDigit.ne_minus, value, leadingNumber]
    exact Int.toNat_of_nonneg nonneg
  · split
    · rw [readBack, if_pos rfl, leadingNumber_digit, leadingNumber]
      omega
    · simp only
      rw [readBack, if_pos rfl, leadingNumber_writeDigits, leadingNumber_digit, leadingNumber]
      · omega
      · omega

theorem mem_integerToString16 {number : Int32} {unit : UInt16}
    (member : unit ∈ integerToString16 number) : IsDigit unit ∨ unit = 45 := by
  rw [integerToString16, fastIntToBuffer] at member
  have last {number : Nat} (member : unit ∈ [digit number]) : IsDigit unit :=
    List.mem_singleton.mp member ▸ digit_isDigit number
  split at member
  · exact .inl ((mem_writeDigits _ _ member).resolve_right List.not_mem_nil)
  · split at member
    · rcases List.mem_cons.mp member with minus | member
      · exact .inr minus
      · exact .inl (last member)
    · rcases List.mem_cons.mp member with minus | member
      · exact .inr minus
      · exact .inl ((mem_writeDigits _ _ member).elim id last)

theorem integerToString16_ne_nil (number : Int32) : integerToString16 number ≠ [] := by
  rw [integerToString16, fastIntToBuffer]
  split
  · obtain ⟨unit, rest, written, _⟩ := writeDigits_cons 9 number.toInt.toNat
    rw [written]
    exact List.cons_ne_nil _ _
  · split <;> exact List.cons_ne_nil _ _

theorem integerToString16_injective : Function.Injective integerToString16 := by
  intro first second same
  have bounds (number : Int32) : number.toInt < 10 ^ 10 ∧ -(10 ^ 10) < number.toInt := by
    have below := number.toInt_lt
    have above := number.le_toInt
    omega
  rw [← Int32.toInt_inj, ← readBack_fastIntToBuffer (bounds first).1 (bounds first).2,
    ← readBack_fastIntToBuffer (bounds second).1 (bounds second).2]
  exact congrArg readBack same

end ThreadIpc.SecurityModel
