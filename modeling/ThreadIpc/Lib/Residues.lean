import Mathlib.Data.Nat.ModEq
import Mathlib.Order.Bounds.Basic

/-!
# The residues of an arithmetic progression
-/

namespace ThreadIpc.Lib

def residue (start step modulus k : Nat) : Nat := (k * step + start) % modulus

def greatestResidue (start step modulus : Nat) : Nat :=
  modulus - modulus.gcd step + start % modulus.gcd step

section
variable {start step modulus : Nat}

theorem residue_mod_gcd (k : Nat) :
    residue start step modulus k % modulus.gcd step = start % modulus.gcd step := by
  have multiple : k * step % modulus.gcd step = 0 :=
    Nat.mod_eq_zero_of_dvd ((Nat.gcd_dvd_right _ _).mul_left k)
  rw [residue, Nat.mod_mod_of_dvd _ (Nat.gcd_dvd_left _ _), Nat.add_mod, multiple, Nat.zero_add,
    Nat.mod_mod]

theorem exists_residue {target : Nat} (below : target < modulus)
    (congruent : target ≡ start [MOD modulus.gcd step]) :
    ∃ k, residue start step modulus k = target := by
  obtain ⟨meeting, onTarget, onStart⟩ := Nat.chineseRemainder' congruent
  -- behind the start, where the progression gets to it
  have far : start ≤ meeting + start * modulus * step := by
    rcases Nat.eq_zero_or_pos step with rfl | positive
    · have same : meeting = start := by simpa using onStart
      simp [same]
    · have once : start * 1 ≤ start * (modulus * step) :=
        Nat.mul_le_mul_left start (Nat.mul_pos (Nat.zero_lt_of_lt below) positive)
      rw [Nat.mul_assoc]
      omega
  have onStart : start ≡ meeting + start * modulus * step [MOD step] := by
    simpa [Nat.ModEq] using onStart.symm
  obtain ⟨k, steps⟩ := (Nat.modEq_iff_dvd' far).mp onStart
  apply Exists.intro k
  have reached : k * step + start = meeting + start * modulus * step := by
    rw [Nat.mul_comm k, ← steps, Nat.sub_add_cancel far]
  have whole : start * modulus * step % modulus = 0 :=
    Nat.mod_eq_zero_of_dvd ((Nat.dvd_mul_left modulus start).mul_right step)
  calc residue start step modulus k
      = (meeting + start * modulus * step) % modulus := by rw [residue, reached]
    _ = meeting % modulus := by rw [Nat.add_mod, whole, Nat.add_zero, Nat.mod_mod]
    _ = target % modulus := onTarget
    _ = target := Nat.mod_eq_of_lt below

theorem residue_isGreatest (positive : 0 < modulus) :
    IsGreatest (Set.range (residue start step modulus)) (greatestResidue start step modulus) := by
  have divisor : 0 < modulus.gcd step := Nat.gcd_pos_of_pos_left _ positive
  have remainder := Nat.mod_lt start divisor
  have fits : modulus.gcd step ≤ modulus := Nat.gcd_le_left _ positive
  constructor
  · apply exists_residue
    · rw [greatestResidue]
      omega
    · have whole : (modulus - modulus.gcd step) % modulus.gcd step = 0 :=
        Nat.mod_eq_zero_of_dvd (Nat.dvd_sub (Nat.gcd_dvd_left _ _) (Nat.dvd_refl _))
      rw [greatestResidue, Nat.ModEq, Nat.add_mod, whole, Nat.zero_add, Nat.mod_mod, Nat.mod_mod]
  · rintro _ ⟨k, rfl⟩
    have below : residue start step modulus k < modulus := Nat.mod_lt _ positive
    have quotient := Nat.div_add_mod (residue start step modulus k) (modulus.gcd step)
    rw [residue_mod_gcd] at quotient
    obtain ⟨count, multiple⟩ := Nat.gcd_dvd_left modulus step
    have fewer : residue start step modulus k / modulus.gcd step < count := by
      apply Nat.div_lt_of_lt_mul
      rwa [← multiple]
    have bound := Nat.mul_le_mul_left (modulus.gcd step) (Nat.le_sub_one_of_lt fewer)
    rw [Nat.mul_sub_one, ← multiple] at bound
    rw [greatestResidue]
    omega

end

end ThreadIpc.Lib
