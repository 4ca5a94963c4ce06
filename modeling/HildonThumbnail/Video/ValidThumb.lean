import HildonThumbnail.Lib.Deviation
import Mathlib.Algebra.Order.Field.Rat
import Mathlib.Tactic.Linarith
import Mathlib.Tactic.NormNum

/-! Whether a frame has enough contrast to be a thumbnail (`check_for_valid_thumb` in
gst-thumb-pipe.c), with its floats as exact numbers. -/

namespace HildonThumbnail

namespace ValidThumb

/-- A frame of 24 bits a pixel without gaps between its rows. -/
structure Frame where
  width : Nat
  height : Nat
  pixels : List UInt8
  size : pixels.length = 3 * width * height

namespace Frame

variable (f : Frame)

def rowstride : Nat := 3 * f.width
def count : Nat := f.width * f.height
def byte (i : Nat) : UInt8 := f.pixels.getD i 0
def sample (i : Nat) : ℚ := (f.byte i).toNat

def first (j : Nat) : ℚ := f.sample (3 * j)
def firsts : List Nat := (List.range f.count).map fun j => (f.byte (3 * j)).toNat
def lowest : Nat := f.firsts.min?.getD 0
def highest : Nat := f.firsts.max?.getD 0

def mean : ℚ := Deviation.mean (Finset.range f.count) f.first
def squares : ℚ := Deviation.squares (Finset.range f.count) f.first f.mean
def sampleVariance : ℚ := Deviation.sampleVariance (Finset.range f.count) f.first

end Frame

/-- `for (i = 0; i < samples; i=i+3)`, adding up. -/
def sumLoop (term : Nat → ℚ) (samples i : Nat) (sum : ℚ) : ℚ :=
  if i < samples then sumLoop term samples (i + 3) (sum + term i) else sum
termination_by samples - i

def validVarianceThreshold : ℚ := 256

def checkForValidThumb (f : Frame) : Bool :=
  let samples := f.rowstride * f.height
  let avg := sumLoop f.sample samples 0 0 / samples
  let variance := sumLoop (fun i => (f.sample i - avg) * (f.sample i - avg)) samples 0 0
  decide (variance / ((samples : ℚ) - 1) > validVarianceThreshold)

/-- The other frame has so much more of the first component in every pixel. -/
structure Lit (f g : Frame) (d : ℤ) : Prop where
  width : g.width = f.width
  height : g.height = f.height
  first : ∀ j < f.count, ((g.byte (3 * j)).toNat : ℤ) = (f.byte (3 * j)).toNat + d
  others : ∀ i, i % 3 ≠ 0 → g.byte i = f.byte i

/-- The frame is judged by its contrast, and however it is lit. -/
structure Judged (f : Frame) : Prop where
  variance : checkForValidThumb f = true ↔ 256 < f.sampleVariance
  flat : (∀ j < f.count, f.byte (3 * j) = f.byte 0) → checkForValidThumb f = false
  lit : ∀ g d, Lit f g d → checkForValidThumb g = checkForValidThumb f

theorem Frame.sampleVariance_eq (f : Frame) : f.sampleVariance = f.squares / ((f.count : ℚ) - 1) := by
  rw [Frame.sampleVariance, Deviation.sampleVariance, Finset.card_range]
  rfl

theorem sumLoop_eq (term : Nat → ℚ) (n i : Nat) (sum : ℚ) :
    sumLoop term (3 * (i + n)) (3 * i) sum = sum + ∑ j ∈ Finset.range n, term (3 * (i + j)) := by
  induction n generalizing i sum with
  | zero =>
    rw [sumLoop, if_neg (by omega)]
    simp
  | succ n ih =>
    rw [sumLoop, if_pos (by omega), show 3 * (i + (n + 1)) = 3 * (i + 1 + n) by omega,
      show 3 * i + 3 = 3 * (i + 1) by omega, ih, Finset.sum_range_succ', add_assoc]
    congr 1
    rw [add_comm, Nat.add_zero]
    congr 1
    exact Finset.sum_congr rfl fun j _ => by rw [show i + 1 + j = i + (j + 1) by omega]

theorem sumLoop_samples (f : Frame) (term : Nat → ℚ) :
    sumLoop term (f.rowstride * f.height) 0 0 = ∑ j ∈ Finset.range f.count, term (3 * j) := by
  have hloop := sumLoop_eq term f.count 0 0
  have hsamples : 3 * (0 + f.count) = f.rowstride * f.height := by
    rw [Frame.rowstride, Frame.count, Nat.zero_add, Nat.mul_assoc]
  rw [hsamples, zero_add] at hloop
  simpa only [Nat.mul_zero, Nat.zero_add] using hloop

theorem Lit.count {f g : Frame} {d : ℤ} (h : Lit f g d) : g.count = f.count := by
  rw [Frame.count, Frame.count, h.width, h.height]

section
variable {f : Frame} (hcount : 2 ≤ f.count)
include hcount

theorem count_ne_zero : ((Finset.range f.count).card : ℚ) ≠ 0 := by
  rw [Finset.card_range]
  exact Nat.cast_ne_zero.mpr (by omega)

/-- The sums run over the pixels, but they are divided by the number of bytes. -/
theorem checkForValidThumb_eq_true_iff :
    checkForValidThumb f = true ↔
      256 * (3 * (f.count : ℚ) - 1) < f.squares + f.count * (2 / 3 * f.mean) ^ 2 := by
  have hN : (2 : ℚ) ≤ f.count := by exact_mod_cast hcount
  have hcard : ((Finset.range f.count).card : ℚ) = f.count := by rw [Finset.card_range]
  have hsamples : ((f.rowstride * f.height : Nat) : ℚ) = 3 * f.count := by
    rw [Frame.rowstride, Frame.count, Nat.mul_assoc]
    push_cast
    rfl
  have havg : sumLoop f.sample (f.rowstride * f.height) 0 0 / (f.rowstride * f.height : Nat) = f.mean / 3 := by
    have hmean := Deviation.card_mul_mean f.first (count_ne_zero hcount)
    rw [hcard] at hmean
    rw [sumLoop_samples, hsamples,
      show (∑ j ∈ Finset.range f.count, f.sample (3 * j)) = f.count * f.mean from hmean.symm]
    field_simp
  have hsum :
      sumLoop (fun i => (f.sample i - f.mean / 3) * (f.sample i - f.mean / 3)) (f.rowstride * f.height) 0 0 =
      f.squares + f.count * (2 / 3 * f.mean) ^ 2 := by
    have hsquares := Deviation.squares_eq f.first (count_ne_zero hcount) (f.mean / 3)
    rw [hcard, show Deviation.mean (Finset.range f.count) f.first = f.mean from rfl,
      show f.mean - f.mean / 3 = 2 / 3 * f.mean by ring] at hsquares
    rw [sumLoop_samples]
    exact (Finset.sum_congr rfl fun j _ => (sq _).symm).trans hsquares
  simp only [checkForValidThumb, havg, hsum, decide_eq_true_eq, validVarianceThreshold, gt_iff_lt]
  rw [hsamples, lt_div_iff₀ (by linarith)]

theorem sampleVariance_gt_iff : 256 < f.sampleVariance ↔ 256 * ((f.count : ℚ) - 1) < f.squares := by
  have hN : (2 : ℚ) ≤ f.count := by exact_mod_cast hcount
  rw [f.sampleVariance_eq, lt_div_iff₀ (by linarith)]

/-- One colour all over is contrast enough if it is bright. -/
theorem checkForValidThumb_flat {a : ℚ} (hflat : ∀ j < f.count, f.first j = a) :
    checkForValidThumb f = true ↔ 256 * (3 * (f.count : ℚ) - 1) < 4 / 9 * (f.count * a ^ 2) := by
  have hsame : ∀ j ∈ Finset.range f.count, f.first j = a := fun j hj => hflat j (Finset.mem_range.mp hj)
  have hmean : f.mean = a := Deviation.mean_of_eq f.first (count_ne_zero hcount) hsame
  have hsquares : f.squares = 0 := by
    rw [Frame.squares, Deviation.squares_of_eq f.first hsame, hmean, sub_self, zero_pow two_ne_zero, mul_zero]
  rw [checkForValidThumb_eq_true_iff hcount, hsquares, hmean, zero_add,
    show (f.count : ℚ) * (2 / 3 * a) ^ 2 = 4 / 9 * (f.count * a ^ 2) by ring]

/-- The same light on every pixel does not change the contrast, but it may change the answer. -/
theorem checkForValidThumb_lit {g : Frame} {d : ℤ} (h : Lit f g d) :
    g.sampleVariance = f.sampleVariance ∧
      (checkForValidThumb g = true ↔
        256 * (3 * (f.count : ℚ) - 1) < f.squares + f.count * (2 / 3 * (f.mean + d)) ^ 2) := by
  have hsize := h.count
  have hfirst : ∀ j ∈ Finset.range f.count, g.first j = f.first j + d := by
    intro j hj
    have hlit := h.first j (Finset.mem_range.mp hj)
    rw [Frame.first, Frame.sample, Frame.first, Frame.sample]
    exact_mod_cast hlit
  have hmean : g.mean = f.mean + d := by
    rw [Frame.mean, hsize, Deviation.mean_congr g.first hfirst]
    exact Deviation.mean_add_const f.first (count_ne_zero hcount) d
  have hsquares : g.squares = f.squares := by
    rw [Frame.squares, hsize, hmean, Deviation.squares_congr g.first hfirst]
    exact Deviation.squares_add_const f.first f.mean d
  constructor
  · rw [g.sampleVariance_eq, f.sampleVariance_eq, hsize, hsquares]
  · rw [checkForValidThumb_eq_true_iff (hsize ▸ hcount), hsize, hmean, hsquares]

theorem lowest_spec : (∃ j < f.count, (f.byte (3 * j)).toNat = f.lowest) ∧
    ∀ j < f.count, f.lowest ≤ (f.byte (3 * j)).toNat := by
  have hsome : f.firsts.min? ≠ none := by
    rw [ne_eq, List.min?_eq_none_iff, Frame.firsts, List.map_eq_nil_iff, List.range_eq_nil]
    omega
  obtain ⟨low, hlow⟩ := Option.ne_none_iff_exists'.mp hsome
  obtain ⟨hmem, hle⟩ := List.min?_eq_some_iff.mp hlow
  rw [Frame.lowest, hlow, Option.getD_some]
  simp only [Frame.firsts, List.mem_map, List.mem_range] at hmem hle
  exact ⟨hmem, fun j hj => hle _ ⟨j, hj, rfl⟩⟩

theorem highest_spec : (∃ j < f.count, (f.byte (3 * j)).toNat = f.highest) ∧
    ∀ j < f.count, (f.byte (3 * j)).toNat ≤ f.highest := by
  have hsome : f.firsts.max? ≠ none := by
    rw [ne_eq, List.max?_eq_none_iff, Frame.firsts, List.map_eq_nil_iff, List.range_eq_nil]
    omega
  obtain ⟨high, hhigh⟩ := Option.ne_none_iff_exists'.mp hsome
  obtain ⟨hmem, hle⟩ := List.max?_eq_some_iff.mp hhigh
  rw [Frame.highest, hhigh, Option.getD_some]
  simp only [Frame.firsts, List.mem_map, List.mem_range] at hmem hle
  exact ⟨hmem, fun j hj => hle _ ⟨j, hj, rfl⟩⟩

theorem lowest_le_mean : (f.lowest : ℚ) ≤ f.mean := by
  refine Deviation.le_mean f.first ⟨0, Finset.mem_range.mpr (by omega)⟩ fun j hj => ?_
  exact Nat.cast_le.mpr ((lowest_spec hcount).2 j (Finset.mem_range.mp hj))

/-- No frame is darker than the one without its lowest component, nor brighter
than the one whose highest component is at its end. -/
theorem Lit.bounds {g : Frame} {d : ℤ} (h : Lit f g d) : -(f.lowest : ℤ) ≤ d ∧ d ≤ 255 - f.highest := by
  obtain ⟨i, hi, hlow⟩ := (lowest_spec hcount).1
  obtain ⟨j, hj, hhigh⟩ := (highest_spec hcount).1
  have hlit := h.first i hi
  have hlit' := h.first j hj
  have hlt := (g.byte (3 * j)).toNat_lt
  omega

end

def Frame.lit (f : Frame) (d : ℤ) : Frame where
  width := f.width
  height := f.height
  pixels := f.pixels.mapIdx fun i b => if i % 3 = 0 then UInt8.ofNat (b.toNat + d).toNat else b
  size := List.length_mapIdx.trans f.size

section
variable {f : Frame} (hcount : 2 ≤ f.count)
include hcount

theorem lit_lit {d : ℤ} (hlow : -(f.lowest : ℤ) ≤ d) (hhigh : d ≤ 255 - f.highest) : Lit f (f.lit d) d where
  width := rfl
  height := rfl
  first j hj := by
    have hlt : 3 * j < f.pixels.length := by
      have hlen : f.pixels.length = 3 * f.count := by rw [f.size, Frame.count, Nat.mul_assoc]
      omega
    have hlit : (f.lit d).byte (3 * j) = UInt8.ofNat ((f.byte (3 * j)).toNat + d).toNat := by
      simp [Frame.byte, Frame.lit, List.getD_eq_getElem?_getD, List.getElem?_mapIdx, List.getElem?_eq_getElem hlt]
    have hle := (lowest_spec hcount).2 j hj
    have hge := (highest_spec hcount).2 j hj
    rw [hlit, UInt8.toNat_ofNat']
    omega
  others i hi := by
    cases hget : f.pixels[i]? <;>
      simp [Frame.byte, Frame.lit, List.getD_eq_getElem?_getD, List.getElem?_mapIdx, hget, hi]

theorem highest_le : f.highest ≤ 255 := by
  obtain ⟨j, hj, hhigh⟩ := (highest_spec hcount).1
  have hlt := (f.byte (3 * j)).toNat_lt
  omega

theorem lowest_le_highest : f.lowest ≤ f.highest := by
  obtain ⟨j, hj, hlow⟩ := (lowest_spec hcount).1
  have hle := (highest_spec hcount).2 j hj
  omega

theorem sampleVariance_flat (hflat : ∀ j < f.count, f.byte (3 * j) = f.byte 0) : f.sampleVariance = 0 := by
  have hsame : ∀ j ∈ Finset.range f.count, f.first j = f.sample 0 := by
    intro j hj
    rw [Frame.first, Frame.sample, hflat j (Finset.mem_range.mp hj), Frame.sample]
  have hmean : f.mean = f.sample 0 := Deviation.mean_of_eq f.first (count_ne_zero hcount) hsame
  have hsquares : f.squares = 0 := by
    rw [Frame.squares, Deviation.squares_of_eq f.first hsame, hmean, sub_self, zero_pow two_ne_zero, mul_zero]
  rw [f.sampleVariance_eq, hsquares, zero_div]

/-- A frame that is judged rightly however it is lit is judged by its contrast. -/
theorem judged_iff_lit : Judged f ↔ ∀ g d, Lit f g d → (checkForValidThumb g = true ↔ 256 < f.sampleVariance) := by
  constructor
  · intro h g d hlit
    rw [h.lit g d hlit]
    exact h.variance
  · intro h
    have hself : Lit f f 0 := ⟨rfl, rfl, fun j _ => (add_zero _).symm, fun i _ => rfl⟩
    have hright := h f 0 hself
    refine ⟨hright, fun hflat => ?_, fun g d hlit => ?_⟩
    · rw [Bool.eq_false_iff, ne_eq, hright, sampleVariance_flat hcount hflat]
      norm_num
    · rw [Bool.eq_iff_iff, h g d hlit, hright]

theorem lit_darkest : Lit f (f.lit (-(f.lowest : ℤ))) (-(f.lowest : ℤ)) := by
  have hle := lowest_le_highest hcount
  have hle' := highest_le hcount
  exact lit_lit hcount (le_refl _) (by omega)

theorem lit_brightest : Lit f (f.lit (255 - (f.highest : ℤ))) (255 - (f.highest : ℤ)) := by
  have hle := lowest_le_highest hcount
  have hle' := highest_le hcount
  exact lit_lit hcount (by omega) (le_refl _)

/-- The brighter a frame is lit, the sooner it passes. -/
theorem passes_lit_iff {g : Frame} {d : ℤ} (h : Lit f g d) : checkForValidThumb g = true ↔
    9 * (256 * (3 * (f.count : ℚ) - 1) - f.squares) < 4 * f.count * (f.mean + d) ^ 2 := by
  rw [(checkForValidThumb_lit hcount h).2]
  constructor
  · intro hlt
    linarith
  · intro hlt
    linarith

theorem passes_always_iff : (∀ g d, Lit f g d → checkForValidThumb g = true) ↔
    9 * (256 * (3 * (f.count : ℚ) - 1) - f.squares) < 4 * f.count * (f.mean - f.lowest) ^ 2 := by
  have hdarkest := passes_lit_iff hcount (lit_darkest hcount)
  push_cast at hdarkest
  rw [← sub_eq_add_neg] at hdarkest
  constructor
  · intro h
    exact hdarkest.mp (h _ _ (lit_darkest hcount))
  · intro h g d hlit
    have hlow := lowest_le_mean hcount
    have hd : (-(f.lowest : ℚ)) ≤ d := by exact_mod_cast (Lit.bounds hcount hlit).1
    have hsquare : (f.mean - f.lowest) ^ 2 ≤ (f.mean + d) ^ 2 := pow_le_pow_left₀ (by linarith) (by linarith) 2
    exact (passes_lit_iff hcount hlit).mpr (h.trans_le (mul_le_mul_of_nonneg_left hsquare (by positivity)))

theorem passes_never_iff : (∀ g d, Lit f g d → ¬ checkForValidThumb g = true) ↔
    4 * f.count * (f.mean + (255 - f.highest)) ^ 2 ≤ 9 * (256 * (3 * (f.count : ℚ) - 1) - f.squares) := by
  have hbrightest := passes_lit_iff hcount (lit_brightest hcount)
  push_cast at hbrightest
  constructor
  · intro h
    exact not_lt.mp fun hlt => h _ _ (lit_brightest hcount) (hbrightest.mpr hlt)
  · intro h g d hlit hpass
    obtain ⟨hbelow, habove⟩ := Lit.bounds hcount hlit
    have hlow := lowest_le_mean hcount
    have hd : (-(f.lowest : ℚ)) ≤ d := by exact_mod_cast hbelow
    have hd' : (d : ℚ) ≤ 255 - f.highest := by exact_mod_cast habove
    have hsquare : (f.mean + d) ^ 2 ≤ (f.mean + (255 - f.highest)) ^ 2 :=
      pow_le_pow_left₀ (by linarith) (by linarith) 2
    have hlt := (passes_lit_iff hcount hlit).mp hpass
    exact absurd (hlt.trans_le (mul_le_mul_of_nonneg_left hsquare (by positivity))) (not_lt.mpr h)

/-- A frame with contrast is judged by it if it passes in the darkest light, one
without contrast if it does not pass in the brightest. -/
theorem checkForValidThumb_right_iff : Judged f ↔
    (256 * ((f.count : ℚ) - 1) < f.squares ∧
      9 * (256 * (3 * (f.count : ℚ) - 1) - f.squares) < 4 * f.count * (f.mean - f.lowest) ^ 2) ∨
    (f.squares ≤ 256 * ((f.count : ℚ) - 1) ∧
      4 * f.count * (f.mean + (255 - f.highest)) ^ 2 ≤ 9 * (256 * (3 * (f.count : ℚ) - 1) - f.squares)) := by
  rw [judged_iff_lit hcount]
  by_cases hcontrast : 256 * ((f.count : ℚ) - 1) < f.squares
  · simp only [(sampleVariance_gt_iff hcount).mpr hcontrast, iff_true, hcontrast, true_and, hcontrast.not_ge,
      false_and, or_false]
    exact passes_always_iff hcount
  · have hno : ¬ 256 < f.sampleVariance := fun h => hcontrast ((sampleVariance_gt_iff hcount).mp h)
    simp only [hno, iff_false, hcontrast, false_and, false_or, not_lt.mp hcontrast, true_and]
    exact passes_never_iff hcount

end

def blackWhite : Frame where
  width := 2
  height := 1
  pixels := [0, 0, 0, 255, 255, 255]
  size := rfl

theorem checkForValidThumb_blackWhite : Judged blackWhite :=
  (checkForValidThumb_right_iff (f := blackWhite) (by decide)).mpr (.inl (by
    have hcount : blackWhite.count = 2 := rfl
    have hlowest : blackWhite.lowest = 0 := rfl
    have hblack : blackWhite.first 0 = 0 := by simp [Frame.first, Frame.sample, Frame.byte, blackWhite]
    have hwhite : blackWhite.first 1 = 255 := by simp [Frame.first, Frame.sample, Frame.byte, blackWhite]
    have hmean : blackWhite.mean = 255 / 2 := by
      rw [Frame.mean, Deviation.mean, hcount, Finset.card_range, Finset.sum_range_succ, Finset.sum_range_one,
        hblack, hwhite]
      norm_num
    have hsquares : blackWhite.squares = 255 ^ 2 / 2 := by
      rw [Frame.squares, hmean, Deviation.squares, hcount, Finset.sum_range_succ, Finset.sum_range_one,
        hblack, hwhite]
      norm_num
    rw [hcount, hlowest, hmean, hsquares]
    norm_num))

def white : Frame where
  width := 2
  height := 1
  pixels := [255, 255, 255, 255, 255, 255]
  size := rfl

theorem first_white : ∀ j < white.count, white.first j = 255 := by
  intro j hj
  have hcases : j = 0 ∨ j = 1 := by
    have hlt : j < 2 := hj
    omega
  rcases hcases with rfl | rfl <;> simp [Frame.first, Frame.sample, Frame.byte, white]

/-- White all over passes for a frame with contrast. -/
theorem checkForValidThumb_white : ¬ Judged white := by
  have haccepted : checkForValidThumb white = true := by
    rw [checkForValidThumb_flat (by decide) first_white, show white.count = 2 from rfl]
    norm_num
  have hflat : ∀ j < white.count, white.byte (3 * j) = white.byte 0 := by decide
  intro h
  rw [h.flat hflat] at haccepted
  cases haccepted

end ValidThumb

end HildonThumbnail
