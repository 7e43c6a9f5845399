import Mathlib.Algebra.Order.Floor.Div
import Mathlib.Order.Monotone.Basic

/-!
# A length in parts

Nearly equal parts, each of which starts where the exact cut is rounded to.
-/

namespace ThreadIpc.Lib

def cut (length parts k : Nat) : Nat := (k * length + parts / 2) / parts

def part (cuts : Nat → Nat) (k : Nat) : List Nat := List.range' (cuts k) (cuts (k + 1) - cuts k)

theorem flatMap_part {cuts : Nat → Nat} (mono : Monotone cuts) (n : Nat) :
    (List.range n).flatMap (part cuts) = List.range' (cuts 0) (cuts n - cuts 0) := by
  induction n with
  | zero => simp
  | succ n ih =>
      have ahead := mono (Nat.zero_le n)
      have next : cuts n ≤ cuts (n + 1) := mono (Nat.le_succ n)
      have start : cuts n = cuts 0 + 1 * (cuts n - cuts 0) := by omega
      have length : cuts n - cuts 0 + (cuts (n + 1) - cuts n) = cuts (n + 1) - cuts 0 := by omega
      rw [List.range_succ, List.flatMap_append, ih, List.flatMap_singleton, part, ← length,
        ← List.range'_append, ← start]

section
variable {length parts : Nat}

theorem cut_zero (positive : 0 < parts) : cut length parts 0 = 0 := by
  rw [cut, Nat.zero_mul, Nat.zero_add]
  exact Nat.div_eq_of_lt (Nat.div_lt_self positive Nat.one_lt_two)

theorem cut_parts (positive : 0 < parts) : cut length parts parts = length := by
  rw [cut, Nat.mul_add_div positive, Nat.div_eq_of_lt (Nat.div_lt_self positive Nat.one_lt_two),
    Nat.add_zero]

theorem cut_monotone : Monotone (cut length parts) := by
  intro k l le
  apply Nat.div_le_div_right
  exact Nat.add_le_add_right (Nat.mul_le_mul_right length le) _

theorem flatMap_part_cut (positive : 0 < parts) :
    (List.range parts).flatMap (part (cut length parts)) = List.range length := by
  rw [flatMap_part cut_monotone, cut_zero positive, cut_parts positive, Nat.sub_zero,
    List.range_eq_range']

theorem cut_succ_le (positive : 0 < parts) (k : Nat) :
    cut length parts (k + 1) ≤ cut length parts k + length ⌈/⌉ parts := by
  have covers : length ≤ parts * (length ⌈/⌉ parts) := (ceilDiv_le_iff_le_mul positive).mp le_rfl
  calc cut length parts (k + 1)
      ≤ (k * length + parts / 2 + parts * (length ⌈/⌉ parts)) / parts := by
        apply Nat.div_le_div_right
        rw [Nat.succ_mul]
        omega
    _ = cut length parts k + length ⌈/⌉ parts := Nat.add_mul_div_left _ _ positive

theorem part_length_le (positive : 0 < parts) (k : Nat) :
    (part (cut length parts) k).length ≤ length ⌈/⌉ parts := by
  rw [part, List.length_range']
  exact Nat.sub_le_iff_le_add'.mpr (cut_succ_le positive k)

theorem part_length_pos (positive : 0 < parts) (enough : parts ≤ length) (k : Nat) :
    0 < (part (cut length parts) k).length := by
  rw [part, List.length_range', Nat.sub_pos_iff_lt, Nat.lt_iff_add_one_le]
  calc cut length parts k + 1
      = (k * length + parts / 2 + parts) / parts := (Nat.add_div_right _ positive).symm
    _ ≤ cut length parts (k + 1) := by
        apply Nat.div_le_div_right
        rw [Nat.succ_mul]
        omega

theorem exists_part_length (positive : 0 < parts) :
    ∃ k < parts, (part (cut length parts) k).length = length ⌈/⌉ parts := by
  by_contra shorter
  push Not at shorter
  have reach (k : Nat) (inside : k ≤ parts) :
      cut length parts k ≤ k * (length ⌈/⌉ parts - 1) := by
    induction k with
    | zero => rw [cut_zero positive, Nat.zero_mul]
    | succ k ih =>
        have front := ih (Nat.le_of_succ_le inside)
        have short := shorter k inside
        have most := @part_length_le length _ positive k
        have ahead : cut length parts k ≤ cut length parts (k + 1) := cut_monotone (Nat.le_succ k)
        rw [part, List.length_range'] at short most
        rw [Nat.succ_mul]
        omega
  have all := reach parts le_rfl
  rw [cut_parts positive, ← ceilDiv_le_iff_le_mul positive] at all
  have none_ : length ⌈/⌉ parts = 0 := by omega
  have first := @part_length_le length _ positive 0
  exact shorter 0 positive (by omega)

end

end ThreadIpc.Lib
