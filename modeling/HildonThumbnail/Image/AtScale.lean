import HildonThumbnail.Image.CroppedSize
import Mathlib.Algebra.Order.Round

/-! The size that `at_scale_size_prepared_cb` of
daemon/plugins/pixbuf-io-loader.c sets when it keeps the aspect ratio. -/

namespace HildonThumbnail

section
variable {w h width height : Int}

/-- The side of the box that the image fills, and the other side in
proportion. -/
structure FitsBox (w h width height : Int) (size : Int × Int) : Prop where
  pos : 1 ≤ size.1 ∧ 1 ≤ size.2
  within : size.1 ≤ width ∧ size.2 ≤ height
  proportional : (size.1 = width ∧ size.2 = max 1 (round (h * width / w : ℚ))) ∨
    (size.2 = height ∧ size.1 = max 1 (round (w * height / h : ℚ)))

theorem doubleToInt_half_add {q : ℚ} (hq : 0 ≤ q) : doubleToInt (1 / 2 + q) = round q := by
  have hnonneg : (0 : ℚ) ≤ 1 / 2 + q := by positivity
  rw [doubleToInt, if_pos hnonneg, round_eq, add_comm]

/-- Half a pixel does not carry a side over a whole number it does not exceed. -/
theorem round_le_of_le {q : ℚ} {n : Int} (hq : q ≤ n) : round q ≤ n := by
  have hlt : ⌊q + 1 / 2⌋ < n + 1 := by
    rw [Int.floor_lt]
    push_cast
    linarith
  rw [round_eq]
  omega

/-- One side of the image brought to `side` brings the other to `q`. -/
theorem scaled_le {p n side bound : Int} (hn : 1 ≤ n) (h : (p : ℚ) * side ≤ n * bound) :
    (p * side / n : ℚ) ≤ bound := by
  have hpos : (0 : ℚ) < n := by exact_mod_cast hn
  rw [div_le_iff₀ hpos]
  linarith

theorem atScale_fitsBox (hw : 1 ≤ w) (hh : 1 ≤ h) (hwidth : 1 ≤ width) (hheight : 1 ≤ height) :
    ∃ size, atScaleSizePrepared width height true w h = some size ∧ FitsBox w h width height size := by
  have hw' : (0 : ℚ) < w := by exact_mod_cast hw
  have hh' : (0 : ℚ) < h := by exact_mod_cast hh
  have hwidth' : (0 : ℚ) < width := by exact_mod_cast hwidth
  have hheight' : (0 : ℚ) < height := by exact_mod_cast hheight
  have hpos : w > 0 ∧ h > 0 := ⟨by omega, by omega⟩
  rw [atScaleSizePrepared, if_pos hpos, if_pos ⟨rfl, .inl (by omega)⟩, if_neg (by omega), if_neg (by omega)]
  by_cases hhigh : (h : ℚ) * width > w * height
  · have hle : round (w * height / h : ℚ) ≤ width := by
      apply round_le_of_le
      apply scaled_le hh
      exact hhigh.le
    rw [if_pos hhigh, doubleToInt_half_add (by positivity)]
    exact ⟨_, rfl, ⟨⟨by omega, by omega⟩, ⟨by omega, by omega⟩, .inr ⟨by omega, max_comm _ _⟩⟩⟩
  · have hle : round (h * width / w : ℚ) ≤ height := by
      apply round_le_of_le
      apply scaled_le hw
      exact not_lt.mp hhigh
    rw [if_neg hhigh, doubleToInt_half_add (by positivity)]
    exact ⟨_, rfl, ⟨⟨by omega, by omega⟩, ⟨by omega, by omega⟩, .inl ⟨by omega, max_comm _ _⟩⟩⟩

theorem atScale_fitsBox_strip :
    ∃ size, atScaleSizePrepared 256 128 true 3000 7 = some size ∧ FitsBox 3000 7 256 128 size :=
  atScale_fitsBox (by decide) (by decide) (by decide) (by decide)

end

end HildonThumbnail
