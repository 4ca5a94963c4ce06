import Mathlib.Algebra.Ring.Nat

/-! The bytes of a number, the least one first. -/

namespace Bytes

def ofNat : Nat → Nat → List UInt8
  | 0, _ => []
  | width + 1, n => UInt8.ofNat n :: ofNat width (n / 256)

def toUInt32 (bytes : List UInt8) : UInt32 := bytes.foldr (fun b v => v * 256 + b.toUInt32) 0

@[simp] theorem length_ofNat (width n : Nat) : (ofNat width n).length = width := by
  induction width generalizing n with
  | zero => rfl
  | succ width ih => rw [ofNat, List.length_cons, ih]

theorem toUInt32_ofNat (width n : Nat) : toUInt32 (ofNat width n) = UInt32.ofNat (n % 256 ^ width) := by
  induction width generalizing n with
  | zero => rw [Nat.pow_zero, Nat.mod_one]; rfl
  | succ width ih =>
    have hdigits : n % 256 ^ (width + 1) = n / 256 % 256 ^ width * 256 + n % 256 := by
      rw [Nat.pow_succ', Nat.mod_mul, Nat.add_comm, Nat.mul_comm]
    have hlast : (UInt8.ofNat n).toUInt32 = UInt32.ofNat (n % 256) := by
      apply UInt32.toNat_inj.mp
      simp only [UInt8.toNat_toUInt32, UInt8.toNat_ofNat', UInt32.toNat_ofNat']
      omega
    have hrest := ih (n / 256)
    rw [toUInt32] at hrest
    rw [ofNat, toUInt32, List.foldr_cons, hrest, hdigits, UInt32.ofNat_add, UInt32.ofNat_mul, hlast]
    rfl

theorem toUInt32_ofNat_of_lt {width n : Nat} (h : n < 256 ^ width) : toUInt32 (ofNat width n) = UInt32.ofNat n := by
  rw [toUInt32_ofNat, Nat.mod_eq_of_lt h]

end Bytes
