import Mathlib.Algebra.Order.Ring.Nat

namespace ThreadIpc.Lib.LittleEndian

def encode : Nat → Nat → List UInt8
  | 0, _ => []
  | width + 1, value => UInt8.ofNat value :: encode width (value / 256)

def decode : List UInt8 → Nat
  | [] => 0
  | byte :: rest => byte.toNat + 256 * decode rest

@[simp] theorem length_encode (width value : Nat) : (encode width value).length = width := by
  induction width generalizing value with
  | zero => rfl
  | succ width ih => simp [encode, ih]

theorem decode_encode (width value : Nat) (fits : value < 256 ^ width) :
    decode (encode width value) = value := by
  induction width generalizing value with
  | zero => exact (Nat.lt_one_iff.mp fits).symm
  | succ width ih =>
      have rest_fits : value / 256 < 256 ^ width := by
        rw [pow_succ'] at fits
        exact Nat.div_lt_of_lt_mul fits
      simp only [encode, decode, ih _ rest_fits, UInt8.toNat_ofNat']
      omega

end ThreadIpc.Lib.LittleEndian
