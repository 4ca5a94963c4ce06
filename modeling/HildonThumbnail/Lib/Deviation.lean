import Mathlib.Algebra.BigOperators.Field
import Mathlib.Algebra.BigOperators.Ring.Finset
import Mathlib.Algebra.Order.BigOperators.Group.Finset
import Mathlib.Algebra.Order.Field.Basic
import Mathlib.Tactic.FieldSimp
import Mathlib.Tactic.Ring

/-! How far finitely many numbers are from their mean, and from any other number. -/

namespace Deviation

variable {ι K : Type*} [Field K] (s : Finset ι) (x : ι → K)

def mean : K := (∑ i ∈ s, x i) / s.card

def squares (c : K) : K := ∑ i ∈ s, (x i - c) ^ 2

def sampleVariance : K := squares s x (mean s x) / (s.card - 1)

variable {s}

theorem card_mul_mean (hs : (s.card : K) ≠ 0) : s.card * mean s x = ∑ i ∈ s, x i := mul_div_cancel₀ _ hs

/-- About another number than the mean the squares grow by its distance. -/
theorem squares_eq (hs : (s.card : K) ≠ 0) (c : K) :
    squares s x c = squares s x (mean s x) + s.card * (mean s x - c) ^ 2 := by
  have hexpand : ∀ b, squares s x b = ∑ i ∈ s, x i ^ 2 - 2 * b * ∑ i ∈ s, x i + s.card * b ^ 2 := by
    intro b
    calc squares s x b = ∑ i ∈ s, (x i ^ 2 - 2 * b * x i + b ^ 2) := Finset.sum_congr rfl fun i _ => by ring
      _ = _ := by
        rw [Finset.sum_add_distrib, Finset.sum_sub_distrib, ← Finset.mul_sum, Finset.sum_const, nsmul_eq_mul]
  rw [hexpand c, hexpand (mean s x), ← card_mul_mean x hs]
  ring

theorem mean_add_const (hs : (s.card : K) ≠ 0) (d : K) : mean s (fun i => x i + d) = mean s x + d := by
  rw [mean, mean, Finset.sum_add_distrib, Finset.sum_const, nsmul_eq_mul, add_div, mul_div_cancel_left₀ d hs]

theorem squares_add_const (c d : K) : squares s (fun i => x i + d) (c + d) = squares s x c :=
  Finset.sum_congr rfl fun i _ => by rw [add_sub_add_right_eq_sub]

theorem mean_congr {y : ι → K} (h : ∀ i ∈ s, x i = y i) : mean s x = mean s y := by
  rw [mean, mean, Finset.sum_congr rfl h]

theorem squares_congr {y : ι → K} (h : ∀ i ∈ s, x i = y i) (c : K) : squares s x c = squares s y c :=
  Finset.sum_congr rfl fun i hi => by rw [h i hi]

theorem squares_of_eq {a : K} (h : ∀ i ∈ s, x i = a) (c : K) : squares s x c = s.card * (a - c) ^ 2 := by
  rw [squares_congr x h, squares, Finset.sum_const, nsmul_eq_mul]

theorem mean_of_eq (hs : (s.card : K) ≠ 0) {a : K} (h : ∀ i ∈ s, x i = a) : mean s x = a := by
  rw [mean_congr x h, mean, Finset.sum_const, nsmul_eq_mul, mul_div_cancel_left₀ a hs]

section Bounds
variable [LinearOrder K] [IsStrictOrderedRing K] {a : K}

theorem le_mean (hs : s.Nonempty) (h : ∀ i ∈ s, a ≤ x i) : a ≤ mean s x := by
  have hcard : (0 : K) < s.card := Nat.cast_pos.mpr hs.card_pos
  have hsum := Finset.card_nsmul_le_sum s x a h
  rw [nsmul_eq_mul] at hsum
  rw [mean, le_div_iff₀ hcard, mul_comm]
  exact hsum

end Bounds

end Deviation
