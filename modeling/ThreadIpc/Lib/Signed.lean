import Mathlib.Algebra.Ring.Int.Defs

namespace ThreadIpc.Lib

/-- What a signed computation comes to, which is nothing if the type is too small for it. -/
def signed (bits : Nat) (number : Int) : Option Int :=
  if -2 ^ (bits - 1) ≤ number ∧ number < 2 ^ (bits - 1) then some number else none

section
variable {bits : Nat} {number : Int}

theorem signed_eq (low : -2 ^ (bits - 1) ≤ number) (high : number < 2 ^ (bits - 1)) :
    signed bits number = some number :=
  if_pos ⟨low, high⟩

@[simp] theorem signed_eq_none_iff :
    signed bits number = none ↔ number < -2 ^ (bits - 1) ∨ 2 ^ (bits - 1) ≤ number := by
  simp only [signed, ite_eq_right_iff, reduceCtorEq, imp_false, not_and_or, Int.not_le, Int.not_lt]

end

end ThreadIpc.Lib
