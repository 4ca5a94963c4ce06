import Mathlib.Algebra.Order.Field.Basic
import Mathlib.Algebra.Order.Field.Rat
import Mathlib.Tactic.FieldSimp
import Mathlib.Tactic.Linarith
import Mathlib.Tactic.Ring

/-! The cropper of the thumbnails (`hildon_thumbnail_crop_resize` in daemon/utils.c,
the same text as `crop_resize` in gst-thumb-pipe.c and thumber-gdk-pixbuf.c), with
its doubles as exact numbers. -/

namespace HildonThumbnail

/-- The product of two numbers of type `int`. -/
def intMul (x y : Int) : Int := (x * y).bmod (2 ^ 32)

/-- The size of the new pixbuf, and how `gdk_pixbuf_scale` fills it. -/
structure Scaled where
  nx : Int
  ny : Int
  offx : ℚ
  offy : ℚ
  scax : ℚ
  scay : ℚ

inductive Resized
  | source
  | scaled (dest : Scaled)

def hildonThumbnailCropResize (a b width height : Int) : Resized :=
  let x := width
  let y := height
  if a < x ∧ b < y then .source
  else
    let nx := if a < x then a else x
    let u := nx
    let ny := if b < y then b else y
    let v := ny
    let (na, offx, offy) : ℚ × ℚ × ℚ :=
      if intMul a y < intMul b x then
        let nb : ℚ := (a : ℚ) * v / u
        (a, 0, (b - nb) / 2)
      else
        let na : ℚ := (b : ℚ) * u / v
        (na, (a - na) / 2, 0)
    let scax : ℚ := nx / na
    .scaled ⟨nx, ny, -offx * scax, -offy * scax, scax, scax⟩

def Resized.size (a b : Int) : Resized → Int × Int
  | .source => (a, b)
  | .scaled dest => (dest.nx, dest.ny)

namespace Scaled

def originX (r : Scaled) : ℚ := 0 - r.offx / r.scax
def originY (r : Scaled) : ℚ := 0 - r.offy / r.scay
def shownX (r : Scaled) : ℚ := r.nx / r.scax
def shownY (r : Scaled) : ℚ := r.ny / r.scay

end Scaled

/-- A stretch of a side, inside it and with the same left over at both ends. -/
structure Centred (side origin shown : ℚ) : Prop where
  start : 0 ≤ origin
  finish : origin + shown ≤ side
  centre : origin = side - (origin + shown)

/-- What is shown of a source of `a` times `b` pixels in at most `width` times
`height` pixels. -/
structure ShowsCentre (a b width height : Int) (r : Scaled) : Prop where
  size : r.nx = min a width ∧ r.ny = min b height
  scale : r.scax = r.scay ∧ 0 < r.scax ∧ r.scax ≤ 1
  horizontal : Centred a r.originX r.shownX
  vertical : Centred b r.originY r.shownY
  spans : r.shownX = a ∨ r.shownY = b

theorem intMul_eq {x y : Int} (hx : 1 ≤ x) (hy : 1 ≤ y) (h : x * y < 2 ^ 31) : intMul x y = x * y := by
  have hpos : 0 < x * y := Int.mul_pos (by omega) (by omega)
  rw [intMul]
  exact Int.bmod_eq_of_le (by omega) (by omega)

theorem centred_of_shown_le {side shown offset scale : ℚ} (hscale : 0 < scale) (hoff : offset = (side - shown) / 2)
    (hle : shown ≤ side) : Centred side (0 - -offset * scale / scale) shown := by
  have horigin : 0 - -offset * scale / scale = offset := by
    field_simp
    ring
  rw [horigin, hoff]
  constructor <;> linarith

section
variable {a b width height : Int}

theorem showsCentre_of {u v : Int} {offx offy scale : ℚ} (hu : u = min a width) (hv : v = min b height)
    (hscale : 0 < scale ∧ scale ≤ 1) (hoffx : offx = (a - u / scale) / 2) (hoffy : offy = (b - v / scale) / 2)
    (hx : (u : ℚ) / scale ≤ a) (hy : (v : ℚ) / scale ≤ b) (hspans : (u : ℚ) / scale = a ∨ (v : ℚ) / scale = b) :
    ShowsCentre a b width height ⟨u, v, -offx * scale, -offy * scale, scale, scale⟩ where
  size := ⟨hu, hv⟩
  scale := ⟨rfl, hscale⟩
  horizontal := centred_of_shown_le hscale.1 hoffx hx
  vertical := centred_of_shown_le hscale.1 hoffy hy
  spans := hspans

theorem cropResize_of_small (h : a < width ∧ b < height) :
    hildonThumbnailCropResize a b width height = .source := by
  rw [hildonThumbnailCropResize, if_pos h]

theorem cropped_side_eq : (if a < width then a else width) = min a width := by
  split_ifs <;> omega

theorem cropResize_size (a b width height : Int) :
    (hildonThumbnailCropResize a b width height).size a b = (min a width, min b height) := by
  rw [hildonThumbnailCropResize]
  split_ifs <;> simp only [Resized.size, Prod.mk.injEq] <;> omega

/-- The side that is cut is cut to no more than there is of it. -/
theorem mul_min_le (ha : 1 ≤ a) (hhigh : a * height ≤ b * width) : a * min b height ≤ b * min a width := by
  rcases le_total a width with hle | hle
  · rw [min_eq_left hle, Int.mul_comm b a]
    exact Int.mul_le_mul_of_nonneg_left (min_le_left b height) (by omega)
  · rw [min_eq_right hle]
    have hmul : a * min b height ≤ a * height := Int.mul_le_mul_of_nonneg_left (min_le_right b height) (by omega)
    omega

theorem scale_bounds {n side : Int} (hn : 1 ≤ n) (hle : n ≤ side) : 0 < (n : ℚ) / side ∧ (n : ℚ) / side ≤ 1 := by
  have hn : (0 : ℚ) < n := by exact_mod_cast hn
  have hle : (n : ℚ) ≤ side := by exact_mod_cast hle
  have hside : (0 : ℚ) < side := by linarith
  exact ⟨div_pos hn hside, (div_le_one hside).mpr hle⟩

theorem cut_le {p q u v : ℚ} (hp : 0 < p) (hu : 0 < u) (h : p * v ≤ q * u) : v / (u / p) ≤ q := by
  have hcut : v / (u / p) = p * v / u := by field_simp
  rw [hcut, div_le_iff₀ hu]
  exact h

theorem cropResize_large_shows (ha : 1 ≤ a) (hb : 1 ≤ b) (hw : 1 ≤ width) (hh : 1 ≤ height)
    (hah : a * height < 2 ^ 31) (hbw : b * width < 2 ^ 31) (hlarge : ¬ (a < width ∧ b < height)) :
    ∃ r, hildonThumbnailCropResize a b width height = .scaled r ∧ ShowsCentre a b width height r := by
  have hu : 1 ≤ min a width := by omega
  have hv : 1 ≤ min b height := by omega
  have hpos {n : Int} (hn : 1 ≤ n) : (0 : ℚ) < n := by exact_mod_cast hn
  have ha' : (0 : ℚ) < a := hpos ha
  have hb' : (0 : ℚ) < b := hpos hb
  have hu' : (0 : ℚ) < (min a width : Int) := hpos hu
  have hv' : (0 : ℚ) < (min b height : Int) := hpos hv
  rw [hildonThumbnailCropResize, if_neg hlarge]
  dsimp only
  rw [cropped_side_eq, cropped_side_eq, intMul_eq ha hh hah, intMul_eq hb hw hbw]
  by_cases hhigh : a * height < b * width
  · rw [if_pos hhigh]
    refine ⟨_, rfl, ?_⟩
    have hcut : (a : ℚ) * (min b height : Int) ≤ (b : ℚ) * (min a width : Int) := by
      exact_mod_cast mul_min_le ha (le_of_lt hhigh)
    have hwidth : ((min a width : Int) : ℚ) / ((min a width : Int) / a) = a := by field_simp
    refine showsCentre_of rfl rfl (scale_bounds hu (min_le_left a width)) ?_ ?_ hwidth.le (cut_le ha' hu' hcut)
      (.inl hwidth)
    · rw [hwidth]
      ring
    · field_simp
  · rw [if_neg hhigh]
    refine ⟨_, rfl, ?_⟩
    have hcut : (b : ℚ) * (min a width : Int) ≤ (a : ℚ) * (min b height : Int) := by
      exact_mod_cast mul_min_le hb (not_lt.mp hhigh)
    have hscale : ((min a width : Int) : ℚ) / ((b : ℚ) * (min a width : Int) / (min b height : Int)) =
        (min b height : Int) / b := by field_simp
    have hheight : ((min b height : Int) : ℚ) / ((min b height : Int) / b) = b := by field_simp
    rw [hscale]
    refine showsCentre_of rfl rfl (scale_bounds hv (min_le_left b height)) ?_ ?_ (cut_le hb' hv' hcut) hheight.le
      (.inr hheight)
    · field_simp
    · rw [hheight]
      ring

/-- The largest part of the middle of the source, at the smallest scale. -/
theorem cropResize_shows (a b width height : Int) (ha : 1 ≤ a) (hb : 1 ≤ b) (hw : 1 ≤ width) (hh : 1 ≤ height)
    (hah : a * height < 2 ^ 31) (hbw : b * width < 2 ^ 31) :
    (a < width ∧ b < height → hildonThumbnailCropResize a b width height = .source) ∧
      (¬ (a < width ∧ b < height) →
        ∃ r, hildonThumbnailCropResize a b width height = .scaled r ∧ ShowsCentre a b width height r) :=
  ⟨cropResize_of_small, cropResize_large_shows ha hb hw hh hah hbw⟩

theorem cropResize_shows_landscape :
    ((200 : Int) < 124 ∧ (150 : Int) < 124 → hildonThumbnailCropResize 200 150 124 124 = .source) ∧
    (¬ ((200 : Int) < 124 ∧ (150 : Int) < 124) →
      ∃ r, hildonThumbnailCropResize 200 150 124 124 = .scaled r ∧ ShowsCentre 200 150 124 124 r) :=
  cropResize_shows 200 150 124 124 (by decide) (by decide) (by decide) (by decide) (by decide) (by decide)

end

end HildonThumbnail
