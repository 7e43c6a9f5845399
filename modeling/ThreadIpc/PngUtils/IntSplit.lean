import Mathlib.Algebra.BigOperators.Ring.Finset
import ThreadIpc.Lib.Residues
import ThreadIpc.PngUtils.IntegralSplit

/-!
# `IntegralSplit` for lengths of any size

With its members of type `int`. A sum that does not fit has no result.
-/

namespace ThreadIpc.PngUtils

open Lib (cut part residue greatestResidue signed)

structure IntSplit where
  numSpans : Int
  totalError : Int
  stepError : Int
  smallSpan : Int
  deriving DecidableEq

def IntSplit.init (length numSpans : Int) : Option IntSplit :=
  if numSpans = 0 then none
  else (signed 32 (length.tdiv numSpans)).map fun smallSpan => {
    numSpans
    smallSpan
    stepError := length.tmod numSpans
    totalError := numSpans >>> (1 : Nat) }

def IntSplit.nextSpan (splitter : IntSplit) : Option (Int × IntSplit) := do
  let totalError ← signed 32 (splitter.totalError + splitter.stepError)
  if splitter.numSpans ≤ totalError then
    let totalError ← signed 32 (totalError - splitter.numSpans)
    let span ← signed 32 (splitter.smallSpan + 1)
    return (span, { splitter with totalError })
  else return (splitter.smallSpan, { splitter with totalError })

def IntSplit.nextSpans (splitter : IntSplit) : Nat → Option (List Int × IntSplit)
  | 0 => some ([], splitter)
  | calls + 1 => do
      let (spans, splitter) ← splitter.nextSpans calls
      let (span, splitter) ← splitter.nextSpan
      return (spans ++ [span], splitter)

def IntegralSplit.toInts (splitter : IntegralSplit) : IntSplit where
  numSpans := splitter.numSpans
  totalError := splitter.totalError
  stepError := splitter.stepError
  smallSpan := splitter.smallSpan

theorem signed_natural {number : Nat} (fits : number < 2 ^ 31) :
    signed 32 (number : Int) = some (number : Int) :=
  Lib.signed_eq (by omega) (by omega)

section
variable {length numSpans : Nat}

theorem init_toInts (fits : length < 2 ^ 31) (positive : 0 < numSpans) :
    IntSplit.init length numSpans = some (IntegralSplit.init length numSpans).toInts := by
  have quotient : length / numSpans < 2 ^ 31 := (Nat.div_le_self _ _).trans_lt fits
  have nonzero : (numSpans : Int) ≠ 0 := by omega
  rw [IntSplit.init, if_neg nonzero, ← Int.ofNat_tdiv, ← Int.ofNat_tmod, signed_natural quotient]
  rfl

theorem nextSpan_toInts {splitter : IntegralSplit}
    (small : 0 < splitter.stepError → splitter.smallSpan + 1 < 2 ^ 31)
    (error : splitter.totalError < splitter.numSpans) :
    splitter.toInts.nextSpan =
      if splitter.totalError + splitter.stepError < 2 ^ 31 then
        some ((splitter.nextSpan.1 : Int), splitter.nextSpan.2.toInts)
      else none := by
  simp only [IntSplit.nextSpan, IntegralSplit.toInts, ← Int.natCast_add]
  by_cases sum : splitter.totalError + splitter.stepError < 2 ^ 31
  · rw [if_pos sum, signed_natural sum, IntegralSplit.nextSpan]
    simp only [Option.bind_eq_bind, Option.bind_some, Int.ofNat_le]
    by_cases carry : splitter.numSpans ≤ splitter.totalError + splitter.stepError
    · have less := @signed_natural (splitter.totalError + splitter.stepError - splitter.numSpans)
        (by omega)
      have more := @signed_natural (splitter.smallSpan + 1) (small (by omega))
      rw [Int.ofNat_sub carry] at less
      rw [Int.natCast_succ] at more
      rw [if_pos carry, if_pos carry, less, Option.bind_some, more, ← Int.ofNat_sub carry]
      rfl
    · rw [if_neg carry, if_neg carry]
      rfl
  · have none_ : signed 32 (splitter.totalError + splitter.stepError : Nat) = none :=
      Lib.signed_eq_none_iff.mpr (Or.inr (by omega))
    rw [if_neg sum, none_]
    rfl

/-- The call after `k` others has a sum of the errors that an `int` holds. -/
def SumFits (length numSpans k : Nat) : Prop :=
  residue (numSpans / 2) length numSpans k + length % numSpans < 2 ^ 31

instance (k : Nat) : Decidable (SumFits length numSpans k) :=
  inferInstanceAs (Decidable (_ < _))

theorem nextSpan_after_toInts (fits : length < 2 ^ 31) (positive : 0 < numSpans) (k : Nat) :
    (IntegralSplit.after length numSpans k).toInts.nextSpan =
      if SumFits length numSpans k then
        some (((part (cut length numSpans) k).length : Int),
          (IntegralSplit.after length numSpans (k + 1)).toInts)
      else none := by
  have small (remains : 0 < length % numSpans) : length / numSpans + 1 < 2 ^ 31 := by
    have several : 1 < numSpans := by
      by_contra few
      have one : numSpans = 1 := by omega
      simp [one, Nat.mod_one] at remains
    have some_ : 0 < length := Nat.pos_of_ne_zero fun zero => by simp [zero] at remains
    have less := Nat.div_lt_self some_ several
    omega
  rw [nextSpan_toInts small (Nat.mod_lt _ positive), nextSpan_after positive, part,
    List.length_range']
  rfl

theorem nextSpans_toInts (fits : length < 2 ^ 31) (positive : 0 < numSpans) (calls : Nat) :
    (IntegralSplit.init length numSpans).toInts.nextSpans calls =
      if ∀ k < calls, SumFits length numSpans k then
        some ((List.range calls).map fun k => ((part (cut length numSpans) k).length : Int),
          (IntegralSplit.after length numSpans calls).toInts)
      else none := by
  induction calls with
  | zero => simp [IntSplit.nextSpans, init_eq_after positive]
  | succ calls ih =>
      rw [IntSplit.nextSpans, ih, List.range_succ, List.map_append]
      simp only [Nat.forall_lt_succ_right]
      by_cases front : ∀ k < calls, SumFits length numSpans k
      · rw [if_pos front, Option.bind_eq_bind, Option.bind_some,
          nextSpan_after_toInts fits positive]
        by_cases last : SumFits length numSpans calls
        · rw [if_pos last, if_pos ⟨front, last⟩]
          rfl
        · rw [if_neg last, if_neg fun both => last both.2]
          rfl
      · rw [if_neg front, if_neg fun both => front both.1]
        rfl

def Partitions (length numSpans : Int) : Prop :=
  ∃ splitter, IntSplit.init length numSpans = some splitter ∧
    ∀ calls, ∃ spans after, splitter.nextSpans calls = some (spans, after) ∧
      (∀ span ∈ spans, span = length / numSpans ∨ span = length / numSpans + 1) ∧
      0 ≤ after.totalError ∧ after.totalError < numSpans ∧
      (calls = numSpans → spans.sum = length)

theorem part_length_cases (positive : 0 < numSpans) (k : Nat) :
    (part (cut length numSpans) k).length = length / numSpans ∨
      (part (cut length numSpans) k).length = length / numSpans + 1 := by
  have span : (IntegralSplit.after length numSpans k).nextSpan.1 =
      cut length numSpans (k + 1) - cut length numSpans k :=
    congrArg Prod.fst (nextSpan_after positive k)
  rw [part, List.length_range', ← span, IntegralSplit.nextSpan]
  split
  · exact Or.inr rfl
  · exact Or.inl rfl

theorem sum_part_length (positive : 0 < numSpans) :
    ((List.range numSpans).map fun k => (part (cut length numSpans) k).length).sum = length := by
  have all := congrArg List.length (@Lib.flatMap_part_cut length numSpans positive)
  rwa [List.length_flatMap, List.length_range] at all

theorem partitions_iff_fits (fits : length < 2 ^ 31) (positive : 0 < numSpans) :
    Partitions length numSpans ↔ ∀ k, SumFits length numSpans k := by
  rw [Partitions, init_toInts fits positive]
  constructor
  · intro ⟨_, started, right⟩ k
    obtain ⟨spans, after, returned, _⟩ := right (k + 1)
    rw [← Option.some.inj started, nextSpans_toInts fits positive] at returned
    exact (Option.ite_none_right_eq_some.mp returned).1 k (Nat.lt_succ_self k)
  · intro all
    refine ⟨_, rfl, fun calls => ?_⟩
    rw [nextSpans_toInts fits positive, if_pos fun k _ => all k]
    refine ⟨_, _, rfl, ?_, Int.natCast_nonneg _, Int.ofNat_lt.mpr (Nat.mod_lt _ positive), ?_⟩
    · intro span member
      obtain ⟨k, _, rfl⟩ := List.mem_map.mp member
      exact_mod_cast part_length_cases positive k
    · intro complete
      have total := congrArg (Nat.cast : Nat → Int) (@sum_part_length length _ positive)
      rw [Int.ofNat_inj.mp complete, ← total, Nat.cast_list_sum, List.map_map]
      rfl

/-- The sums of the errors fit if the one with the greatest of the errors does. -/
theorem integralSplit_partitions_iff (length numSpans : Nat) (fits : length < 2 ^ 31)
    (positive : 0 < numSpans) :
    Partitions length numSpans ↔
      greatestResidue (numSpans / 2) length numSpans + length % numSpans < 2 ^ 31 := by
  obtain ⟨⟨last, reached⟩, greatest⟩ := @Lib.residue_isGreatest (numSpans / 2) length _ positive
  rw [partitions_iff_fits fits positive]
  constructor
  · intro all
    exact reached ▸ all last
  · intro bound k
    exact (Nat.add_le_add_right (greatest ⟨k, rfl⟩) _).trans_lt bound

theorem ten_in_three_partitions :
    Partitions 10 3 ↔ greatestResidue (3 / 2) 10 3 + 10 % 3 < 2 ^ 31 :=
  integralSplit_partitions_iff 10 3 (by decide) (by decide)

theorem integralSplit_overflows : ¬ Partitions 2147483646 2147483647 := by
  intro ⟨splitter, started, right⟩
  obtain ⟨spans, after, returned, _⟩ := right 1
  have first : ((IntSplit.init 2147483646 2147483647).bind fun splitter =>
      splitter.nextSpans 1) = none := by decide +kernel
  rw [started, Option.bind_some, returned] at first
  contradiction

end

end ThreadIpc.PngUtils
