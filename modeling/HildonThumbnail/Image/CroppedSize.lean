import HildonThumbnail.Image.CropResize
import Mathlib.Data.Rat.Floor

/-! The sizes of the cropped thumbnails of the gdk-pixbuf plugin and of the epeg
plugin, for an image without an embedded orientation. -/

namespace HildonThumbnail

/-- A double as an `int`: what stands after the point is dropped. -/
def doubleToInt (q : ℚ) : Int := if 0 ≤ q then ⌊q⌋ else ⌈q⌉

/-- The size that the callback sets, if it does not return at once. -/
def atScaleSizePrepared (infoWidth infoHeight : Int) (preserveAspectRatio : Bool) (width height : Int) :
    Option (Int × Int) :=
  if width > 0 ∧ height > 0 then
    let (width, height) : Int × Int :=
      if preserveAspectRatio = true ∧ (infoWidth > 0 ∨ infoHeight > 0) then
        if infoWidth < 0 then (doubleToInt (width * infoHeight / height), infoHeight)
        else if infoHeight < 0 then (infoWidth, doubleToInt (height * infoWidth / width))
        else if (height : ℚ) * infoWidth > width * infoHeight then
          (doubleToInt (1 / 2 + width * infoHeight / height), infoHeight)
        else (infoWidth, doubleToInt (1 / 2 + height * infoWidth / width))
      else (if infoWidth > 0 then infoWidth else width, if infoHeight > 0 then infoHeight else height)
    some (max width 1, max height 1)
  else none

def gdkPixbufNewFromFileAtScale (infoWidth infoHeight : Int) (preserveAspectRatio : Bool) (width height : Int) :
    Int × Int :=
  (atScaleSizePrepared infoWidth infoHeight preserveAspectRatio width height).getD (width, height)

/-- `MAX_PIX`, `MAX_W` and `MAX_H`. -/
structure LoadInfo where
  maxPix : Int
  maxW : Int
  maxH : Int

def loadInfo (haveOsso : Bool) : LoadInfo :=
  if haveOsso then ⟨5000000, 5000, 5000⟩ else ⟨5000000 * (100 / 5), 10000, 10000⟩

def toGuint (n : Int) : Int := n % 2 ^ 32

def maxPixCheck (linfo : LoadInfo) (width height : Int) : Bool :=
  if linfo.maxPix = 0 ∧ linfo.maxW = 0 ∧ linfo.maxH = 0 then false
  else
    decide (toGuint (intMul width height) > linfo.maxPix) || decide (toGuint width > linfo.maxW) ||
      decide (toGuint height > linfo.maxH)

/-- Changed in NB#118963 comment #38. -/
def gdkpixbufCropped (a b : Int) : Int × Int :=
  if a < 124 ∨ b < 124 then
    let (aWanted, bWanted) : Int × Int :=
      if (b : ℚ) * 124 > a * 124 then (doubleToInt (1 / 2 + a * 124 / b), 124)
      else (124, doubleToInt (1 / 2 + b * 124 / a))
    (if aWanted > 0 then aWanted else 1, if bWanted > 0 then bWanted else 1)
  else (hildonThumbnailCropResize a b 124 124).size a b

/-- There is none where the loader is stopped. -/
def gdkpixbufCroppedSize (haveOsso : Bool) (w h : Int) : Option (Int × Int) :=
  if maxPixCheck (loadInfo haveOsso) w h then none else some (gdkpixbufCropped w h)

def wantedSize (a b width height : Int) : Int × Int :=
  if a < width ∧ b < height then (width, height)
  else
    let rw := a.tdiv width
    let rh := b.tdiv height
    if rw = rh then (a.tdiv rh, b.tdiv rw)
    else if rw > rh then (width, b.tdiv rw)
    else (a.tdiv rh, height)

/-- In the first case the image that is loaded is the thumbnail. -/
def epegCroppedSize (ow oh : Int) : Int × Int :=
  if ow ≤ 256 ∨ oh ≤ 256 then
    if ow < 124 ∧ oh < 124 then (ow, oh) else gdkPixbufNewFromFileAtScale 124 124 true ow oh
  else
    let (ww, wh) := wantedSize ow oh 256 256
    (hildonThumbnailCropResize ww wh 124 124).size ww wh

def Accepted (haveOsso : Bool) (w h : Int) : Prop := haveOsso = true → w ≤ 5000 ∧ h ≤ 5000 ∧ w * h ≤ 5000000

/-- One side is small and the other is not; or both are at least 124 and at most
one is above 256, and the image is nearly a square; or both are above 256 and the
shorter side is not below 124 after the division. -/
def CroppedAlike (w h : Int) : Prop :=
  (min w h < 124 ∧ 124 ≤ max w h) ∨
    (124 ≤ min w h ∧ min w h ≤ 256 ∧ 247 * max w h ≤ 248 * min w h) ∨
      (256 < min w h ∧ 124 * (max w h / 256) ≤ min w h)

section
variable {w h : Int}

def fitted (w h : Int) : Int × Int :=
  if w < h then (max (doubleToInt (1 / 2 + w * 124 / h)) 1, 124)
    else (124, max (doubleToInt (1 / 2 + h * 124 / w)) 1)

theorem atScale_eq_fitted (hw : 1 ≤ w) (hh : 1 ≤ h) :
    gdkPixbufNewFromFileAtScale 124 124 true w h = fitted w h := by
  have hpos : w > 0 ∧ h > 0 := ⟨by omega, by omega⟩
  have hcompare : (h : ℚ) * (124 : Int) > w * (124 : Int) ↔ w < h := by
    rw [gt_iff_lt, ← Int.cast_mul, ← Int.cast_mul, Int.cast_lt]
    omega
  rw [gdkPixbufNewFromFileAtScale, atScaleSizePrepared, if_pos hpos, if_pos ⟨rfl, .inl (by decide)⟩,
    if_neg (by decide), if_neg (by decide)]
  simp only [hcompare]
  by_cases hlt : w < h
  · rw [if_pos hlt, fitted, if_pos hlt]
    rfl
  · rw [if_neg hlt, fitted, if_neg hlt]
    rfl

theorem gdkpixbufCropped_eq_fitted (hsmall : w < 124 ∨ h < 124) : gdkpixbufCropped w h = fitted w h := by
  have hcompare : (h : ℚ) * 124 > w * 124 ↔ w < h := by
    rw [gt_iff_lt, mul_lt_mul_iff_left₀ (by norm_num), Int.cast_lt]
  have hpositive (n : Int) : (if n > 0 then n else 1) = max n 1 := by
    split_ifs <;> omega
  rw [gdkpixbufCropped, if_pos hsmall]
  simp only [hcompare, hpositive]
  by_cases hlt : w < h
  · rw [if_pos hlt, fitted, if_pos hlt]
    rfl
  · rw [if_neg hlt, fitted, if_neg hlt]
    rfl

theorem gdkpixbufCropped_of_large (hw : 124 ≤ w) (hh : 124 ≤ h) : gdkpixbufCropped w h = (124, 124) := by
  rw [gdkpixbufCropped, if_neg (by omega), cropResize_size, min_eq_right hw, min_eq_right hh]

/-- Rounded, the shorter side is 124 too. -/
theorem doubleToInt_eq_iff {p q : Int} (hp : 1 ≤ p) (hle : p ≤ q) :
    max (doubleToInt (1 / 2 + p * 124 / q)) 1 = 124 ↔ 247 * q ≤ 248 * p := by
  have hp' : (1 : ℚ) ≤ p := by exact_mod_cast hp
  have hle' : (p : ℚ) ≤ q := by exact_mod_cast hle
  have hq' : (0 : ℚ) < q := by linarith
  have hfrac : (p : ℚ) * 124 / q ≤ 124 := (div_le_iff₀ hq').mpr (by linarith)
  have hnonneg : (0 : ℚ) ≤ 1 / 2 + p * 124 / q := by positivity
  have hfloor : doubleToInt (1 / 2 + p * 124 / q) = ⌊(1 / 2 + p * 124 / q : ℚ)⌋ := if_pos hnonneg
  have hmax : max (doubleToInt (1 / 2 + p * 124 / q)) 1 = 124 ↔ ⌊(1 / 2 + p * 124 / q : ℚ)⌋ = 124 := by
    rw [hfloor]
    omega
  have hupper : (1 / 2 + p * 124 / q : ℚ) < (124 : Int) + 1 := by
    push_cast
    linarith
  rw [hmax, Int.floor_eq_iff, and_iff_left hupper]
  calc ((124 : Int) : ℚ) ≤ 1 / 2 + p * 124 / q
      ↔ 247 / 2 ≤ (p : ℚ) * 124 / q := by
        push_cast
        constructor <;> intro h <;> linarith
    _ ↔ 247 / 2 * (q : ℚ) ≤ p * 124 := le_div_iff₀ hq'
    _ ↔ ((247 * q : Int) : ℚ) ≤ (248 * p : Int) := by
        push_cast
        constructor <;> intro h <;> linarith
    _ ↔ 247 * q ≤ 248 * p := Int.cast_le

theorem fitted_eq_square_iff (hw : 1 ≤ w) (hh : 1 ≤ h) :
    fitted w h = (124, 124) ↔ 247 * max w h ≤ 248 * min w h := by
  rw [fitted]
  by_cases hlt : w < h
  · rw [if_pos hlt, Prod.mk.injEq, max_eq_right hlt.le, min_eq_left hlt.le]
    exact (and_iff_left rfl).trans (doubleToInt_eq_iff hw hlt.le)
  · have hle : h ≤ w := not_lt.mp hlt
    rw [if_neg hlt, Prod.mk.injEq, max_eq_left hle, min_eq_right hle]
    exact (and_iff_right rfl).trans (doubleToInt_eq_iff hh hle)

theorem fitted_has_124 (w h : Int) : (fitted w h).1 = 124 ∨ (fitted w h).2 = 124 := by
  rw [fitted]
  split_ifs
  · exact .inr rfl
  · exact .inl rfl

theorem tdiv_256 (hw : 1 ≤ w) : w.tdiv 256 = w / 256 := Int.tdiv_eq_ediv_of_nonneg (by omega)

theorem min_div_eq_iff {p r : Int} (hp : 0 ≤ p) (hr : 0 < r) : min (p.tdiv r) 124 = 124 ↔ 124 * r ≤ p := by
  have hle : 124 ≤ p / r ↔ 124 * r ≤ p := Int.le_ediv_iff_mul_le hr
  rw [min_eq_right_iff, Int.tdiv_eq_ediv_of_nonneg hp, hle]

/-- The decoded image is cut to a square if it is high and wide enough. -/
theorem epegCropped_of_large (hw : 256 < w) (hh : 256 < h) :
    epegCroppedSize w h = (124, 124) ↔ 124 * (max w h / 256) ≤ min w h := by
  have hwide := tdiv_256 (show 1 ≤ w by omega)
  have hhigh := tdiv_256 (show 1 ≤ h by omega)
  rw [epegCroppedSize, if_neg (by omega), wantedSize, if_neg (by omega)]
  simp only [cropResize_size, Prod.mk.injEq]
  rw [hwide, hhigh]
  by_cases heq : w / 256 = h / 256
  · rw [if_pos heq]
    simp only []
    rw [min_div_eq_iff (by omega) (by omega), min_div_eq_iff (by omega) (by omega)]
    omega
  · rw [if_neg heq]
    by_cases hlt : w / 256 > h / 256
    · rw [if_pos hlt]
      simp only []
      rw [min_div_eq_iff (by omega) (by omega)]
      omega
    · rw [if_neg hlt]
      simp only []
      rw [min_div_eq_iff (by omega) (by omega)]
      omega

theorem maxPixCheck_eq_false_iff (haveOsso : Bool) (hw : 1 ≤ w) (hh : 1 ≤ h) (hw' : w ≤ 10000) (hh' : h ≤ 10000) :
    maxPixCheck (loadInfo haveOsso) w h = false ↔ Accepted haveOsso w h := by
  have harea : w * h ≤ 10000 * 10000 := Int.mul_le_mul hw' hh' (by omega) (by omega)
  have hpos : 0 < w * h := Int.mul_pos (by omega) (by omega)
  have hmul : toGuint (intMul w h) = w * h := by
    rw [intMul_eq hw hh (by omega), toGuint]
    omega
  have hwide : toGuint w = w := by
    rw [toGuint]
    omega
  have hhigh : toGuint h = h := by
    rw [toGuint]
    omega
  rw [maxPixCheck, hmul, hwide, hhigh]
  cases haveOsso with
  | false =>
    simp only [loadInfo, Accepted]
    simp
    omega
  | true =>
    simp only [loadInfo, Accepted]
    simp
    omega

theorem cropped_eq_iff (hw : 1 ≤ w) (hh : 1 ≤ h) :
    gdkpixbufCropped w h = epegCroppedSize w h ↔ CroppedAlike w h := by
  rw [CroppedAlike]
  by_cases hsmall : w < 124 ∨ h < 124
  · rw [gdkpixbufCropped_eq_fitted hsmall, epegCroppedSize, if_pos (by omega)]
    by_cases hboth : w < 124 ∧ h < 124
    · have hne : fitted w h ≠ (w, h) := by
        intro heq
        rcases fitted_has_124 w h with hside | hside
        · rw [heq] at hside
          omega
        · rw [heq] at hside
          omega
      rw [if_pos hboth, iff_false_left hne]
      omega
    · rw [if_neg hboth, atScale_eq_fitted hw hh, iff_true_left rfl]
      omega
  · rw [gdkpixbufCropped_of_large (by omega) (by omega), eq_comm]
    by_cases hmedium : w ≤ 256 ∨ h ≤ 256
    · rw [epegCroppedSize, if_pos hmedium, if_neg (by omega), atScale_eq_fitted hw hh, fitted_eq_square_iff hw hh]
      omega
    · rw [epegCropped_of_large (by omega) (by omega)]
      omega

/-- The thresholds of the two plugins differ, and so does what they do below them. -/
theorem croppedSize_eq_iff (haveOsso : Bool) (w h : Int) (hw : 1 ≤ w) (hw' : w ≤ 10000) (hh : 1 ≤ h)
    (hh' : h ≤ 10000) :
    gdkpixbufCroppedSize haveOsso w h = some (epegCroppedSize w h) ↔ Accepted haveOsso w h ∧ CroppedAlike w h := by
  rw [gdkpixbufCroppedSize, ← maxPixCheck_eq_false_iff haveOsso hw hh hw' hh', ← cropped_eq_iff hw hh]
  cases maxPixCheck (loadInfo haveOsso) w h <;> simp

theorem croppedSize_differs : ¬ ∀ (haveOsso : Bool) (w h : Int), 1 ≤ w → w ≤ 10000 → 1 ≤ h → h ≤ 10000 →
    gdkpixbufCroppedSize haveOsso w h = some (epegCroppedSize w h) := by
  intro hall
  have hh := hall false 200 400 (by decide) (by decide) (by decide) (by decide)
  have hcropped : gdkpixbufCropped 200 400 = epegCroppedSize 200 400 := by
    rw [gdkpixbufCroppedSize, if_neg (by decide)] at hh
    exact Option.some.inj hh
  have halike := (cropped_eq_iff (by decide) (by decide)).mp hcropped
  rw [CroppedAlike] at halike
  omega

theorem croppedSize_eq_photo : gdkpixbufCroppedSize false 2592 1944 = some (epegCroppedSize 2592 1944) :=
  (croppedSize_eq_iff false 2592 1944 (by decide) (by decide) (by decide) (by decide)).mpr
    ⟨by simp [Accepted], by
      rw [CroppedAlike]
      omega⟩

end

end HildonThumbnail
