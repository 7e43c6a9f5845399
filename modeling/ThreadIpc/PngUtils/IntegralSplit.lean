import ThreadIpc.Lib.Cuts
import ThreadIpc.Lib.Loops
import ThreadIpc.PngUtils.Model

namespace ThreadIpc.PngUtils

open Lib (cut part)

def IntegralSplit.after (length numSpans k : Nat) : IntegralSplit where
  numSpans
  smallSpan := length / numSpans
  stepError := length % numSpans
  totalError := (k * length + numSpans / 2) % numSpans

section
variable {length numSpans : Nat}

theorem init_eq_after (positive : 0 < numSpans) :
    IntegralSplit.init length numSpans = .after length numSpans 0 := by
  have half : numSpans / 2 < numSpans := Nat.div_lt_self positive Nat.one_lt_two
  rw [IntegralSplit.init, IntegralSplit.after, Nat.zero_mul, Nat.zero_add, Nat.mod_eq_of_lt half,
    Nat.shiftRight_eq_div_pow, Nat.pow_one]

theorem nextSpan_after (positive : 0 < numSpans) (k : Nat) :
    (IntegralSplit.after length numSpans k).nextSpan =
      (cut length numSpans (k + 1) - cut length numSpans k, .after length numSpans (k + 1)) := by
  have sum : (k + 1) * length + numSpans / 2 = k * length + numSpans / 2 + length := by
    rw [Nat.succ_mul]
    omega
  have quotient := @Nat.add_div (k * length + numSpans / 2) length _ positive
  have remainder := @Nat.add_mod_eq_ite numSpans (k * length + numSpans / 2) length
  simp only [IntegralSplit.nextSpan, IntegralSplit.after, cut, sum, quotient, remainder]
  by_cases carry : numSpans ≤ (k * length + numSpans / 2) % numSpans + length % numSpans
  · simp only [if_pos carry, Nat.add_assoc, Nat.add_sub_cancel_left]
    exact if_pos carry
  · simp only [if_neg carry, Nat.add_zero, Nat.add_sub_cancel_left]
    exact if_neg carry

theorem spans_after (positive : 0 < numSpans) (k turns : Nat) :
    (IntegralSplit.after length numSpans k).spans (cut length numSpans k) turns =
      (List.range' k turns).map fun k =>
        ⟨cut length numSpans k, cut length numSpans (k + 1) - cut length numSpans k⟩ := by
  induction turns generalizing k with
  | zero => rfl
  | succ turns ih =>
      have ahead : cut length numSpans k ≤ cut length numSpans (k + 1) :=
        Lib.cut_monotone (Nat.le_succ k)
      rw [IntegralSplit.spans, nextSpan_after positive]
      simp only [List.range'_succ, List.map_cons, Nat.add_sub_cancel' ahead]
      rw [ih]

theorem spans_init (positive : 0 < numSpans) (turns : Nat) :
    (IntegralSplit.init length numSpans).spans 0 turns = (List.range turns).map fun k =>
      ⟨cut length numSpans k, cut length numSpans (k + 1) - cut length numSpans k⟩ := by
  have spans := @spans_after length _ positive 0 turns
  rw [Lib.cut_zero positive] at spans
  rw [init_eq_after positive, spans, List.range_eq_range']

end

def Box.pixels (box : Box) : List (Nat × Nat) :=
  box.rows.numbers.flatMap fun y => box.columns.numbers.map fun x => (x, y)

structure Sizes where
  width : Nat
  height : Nat
  newWidth : Nat
  newHeight : Nat
  positive : 0 < newWidth ∧ 0 < newHeight
  smaller : newWidth ≤ width ∧ newHeight ≤ height
  bounded : width ≤ kMaxSize ∧ height ≤ kMaxSize

def Sizes.boxes (sizes : Sizes) : List Box :=
  PngUtils.boxes sizes.width sizes.height sizes.newWidth sizes.newHeight

def Sizes.pixels (sizes : Sizes) : List (Nat × Nat) :=
  (List.range sizes.height).flatMap fun y => (List.range sizes.width).map fun x => (x, y)

/-- The part of the input that an output pixel is to stand for. -/
def Sizes.region (sizes : Sizes) (i j : Nat) : List (Nat × Nat) :=
  (part (cut sizes.height sizes.newHeight) i).flatMap fun y =>
    (part (cut sizes.width sizes.newWidth) j).map fun x => (x, y)

theorem boxes_pixels (sizes : Sizes) : sizes.boxes.map Box.pixels =
    (List.range sizes.newHeight).flatMap fun i =>
      (List.range sizes.newWidth).map fun j => sizes.region i j := by
  rw [Sizes.boxes, boxes, spans_init sizes.positive.1, spans_init sizes.positive.2,
    List.flatMap_map, List.map_flatMap]
  simp only [List.map_map]
  rfl

theorem mem_boxes_iff (sizes : Sizes) (property : List (Nat × Nat) → Prop) :
    (∀ box ∈ sizes.boxes, property box.pixels) ↔
      ∀ i < sizes.newHeight, ∀ j < sizes.newWidth, property (sizes.region i j) := by
  rw [← List.forall_mem_map, boxes_pixels]
  simp only [List.mem_flatMap, List.mem_map, List.mem_range]
  grind

theorem boxes_perm (sizes : Sizes) : (sizes.boxes.flatMap Box.pixels).Perm sizes.pixels := by
  have rows := @Lib.flatMap_part_cut sizes.height _ sizes.positive.2
  have columns := @Lib.flatMap_part_cut sizes.width _ sizes.positive.1
  have row (i : Nat) : ((List.range sizes.newWidth).flatMap fun j => sizes.region i j).Perm
      ((part (cut sizes.height sizes.newHeight) i).flatMap fun y =>
        (List.range sizes.width).map fun x => (x, y)) := by
    rw [← columns]
    simp only [Sizes.region, List.map_flatMap]
    exact Lib.flatMap_comm _ _ _
  have spread : sizes.boxes.flatMap Box.pixels = (sizes.boxes.map Box.pixels).flatMap id := by
    rw [List.flatMap_map]
    rfl
  rw [spread, boxes_pixels, List.flatMap_assoc]
  simp only [List.flatMap_map, id]
  refine (List.Perm.flatMap_left _ fun i _ => row i).trans ?_
  rw [← List.flatMap_assoc, rows]
  exact List.Perm.refl _

end ThreadIpc.PngUtils
