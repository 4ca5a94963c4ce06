import HildonThumbnail.Image.CroppedSize

/-! The divisions of `wanted_size` in the epeg plugin: none is by zero, and how
large the sides get. -/

namespace HildonThumbnail

/-- The quotient of two `int`s. A division by zero has no result. -/
def intDiv (a b : Int) : Option Int := if b = 0 then none else some (a.tdiv b)

/-- `wanted_size` with its divisions in the order of the source. -/
def wantedSizeDividing (a b width height : Int) : Option (Int × Int) :=
  if a < width ∧ b < height then some (width, height)
  else do
    let rw ← intDiv a width
    let rh ← intDiv b height
    if rw = rh then
      let h ← intDiv b rw
      let w ← intDiv a rh
      return (w, h)
    else if rw > rh then
      let h ← intDiv b rw
      return (width, h)
    else
      let w ← intDiv a rh
      return (w, height)

section
variable {a b width height : Int}

theorem intDiv_of_pos (hb : 0 < b) : intDiv a b = some (a.tdiv b) := if_neg (by omega)

theorem one_le_tdiv_iff (ha : 1 ≤ a) (hb : 1 ≤ b) : 1 ≤ a.tdiv b ↔ b ≤ a := by
  rw [Int.tdiv_eq_ediv_of_nonneg (by omega), Int.le_ediv_iff_mul_le (by omega), one_mul]

/-- The larger one of the two quotients is positive, and only by it is divided:
the branches of the source with what is known in them. -/
inductive WantedSides (a b width height : Int) : Int → Int → Prop
  | small (hw : a < width) (hh : b < height) : WantedSides a b width height width height
  | alike (heq : a.tdiv width = b.tdiv height) (hpos : 1 ≤ a.tdiv width) :
    WantedSides a b width height (a.tdiv (b.tdiv height)) (b.tdiv (a.tdiv width))
  | wide (hgt : a.tdiv width > b.tdiv height) (hpos : 1 ≤ a.tdiv width) :
    WantedSides a b width height width (b.tdiv (a.tdiv width))
  | high (hlt : a.tdiv width < b.tdiv height) (hpos : 1 ≤ b.tdiv height) :
    WantedSides a b width height (a.tdiv (b.tdiv height)) height

theorem wantedSizeDividing_cases (ha : 1 ≤ a) (hb : 1 ≤ b) (hw : 1 ≤ width) (hh : 1 ≤ height) :
    ∃ w h, wantedSizeDividing a b width height = some (w, h) ∧ WantedSides a b width height w h := by
  rw [wantedSizeDividing]
  by_cases hsmall : a < width ∧ b < height
  · rw [if_pos hsmall]
    exact ⟨width, height, rfl, .small hsmall.1 hsmall.2⟩
  · have hlarge : 1 ≤ a.tdiv width ∨ 1 ≤ b.tdiv height := by
      rw [one_le_tdiv_iff ha hw, one_le_tdiv_iff hb hh]
      omega
    have hwide : 0 ≤ a.tdiv width := Int.tdiv_nonneg (by omega) (by omega)
    have hhigh : 0 ≤ b.tdiv height := Int.tdiv_nonneg (by omega) (by omega)
    rw [if_neg hsmall, intDiv_of_pos hw, intDiv_of_pos hh]
    simp only [Option.bind_eq_bind, Option.bind_some]
    by_cases heq : a.tdiv width = b.tdiv height
    · rw [if_pos heq, intDiv_of_pos (by omega), intDiv_of_pos (by omega)]
      exact ⟨_, _, rfl, .alike heq (by omega)⟩
    · rw [if_neg heq]
      by_cases hgt : a.tdiv width > b.tdiv height
      · rw [if_pos hgt, intDiv_of_pos (by omega)]
        exact ⟨_, _, rfl, .wide hgt (by omega)⟩
      · rw [if_neg hgt, intDiv_of_pos (by omega)]
        exact ⟨_, _, rfl, .high (by omega) (by omega)⟩

theorem WantedSides.eq {w h : Int} (hs : WantedSides a b width height w h) (ha : 1 ≤ a) (hb : 1 ≤ b)
    (hw : 1 ≤ width)
    (hh : 1 ≤ height) : wantedSize a b width height = (w, h) := by
  have hwide := one_le_tdiv_iff ha hw
  have hhigh := one_le_tdiv_iff hb hh
  rw [wantedSize]
  cases hs with
  | small hlow hnarrow => rw [if_pos ⟨hlow, hnarrow⟩]
  | alike heq hpos =>
    rw [if_neg (by omega)]
    simp only [if_pos heq]
  | wide hgt hpos =>
    rw [if_neg (by omega)]
    simp only [if_neg (show ¬ a.tdiv width = b.tdiv height by omega), if_pos hgt]
  | high hlt hpos =>
    rw [if_neg (by omega)]
    simp only [if_neg (show ¬ a.tdiv width = b.tdiv height by omega),
      if_neg (show ¬ a.tdiv width > b.tdiv height by omega)]

theorem wantedSizeDividing_eq (ha : 1 ≤ a) (hb : 1 ≤ b) (hw : 1 ≤ width) (hh : 1 ≤ height) :
    wantedSizeDividing a b width height = some (wantedSize a b width height) := by
  obtain ⟨w, h, heq, hs⟩ := wantedSizeDividing_cases ha hb hw hh
  rw [heq, hs.eq ha hb hw hh]

theorem WantedSides.pos {w h : Int} (hs : WantedSides a b width height w h) (ha : 1 ≤ a) (hb : 1 ≤ b)
    (hw : 1 ≤ width)
    (hh : 1 ≤ height) (hwide : a.tdiv width ≤ b) (hhigh : b.tdiv height ≤ a) : 1 ≤ w ∧ 1 ≤ h := by
  cases hs with
  | small => exact ⟨hw, hh⟩
  | alike heq hpos => exact ⟨(one_le_tdiv_iff ha (heq ▸ hpos)).mpr hhigh, (one_le_tdiv_iff hb hpos).mpr hwide⟩
  | wide hgt hpos => exact ⟨hw, (one_le_tdiv_iff hb hpos).mpr hwide⟩
  | high hlt hpos => exact ⟨(one_le_tdiv_iff ha hpos).mpr hhigh, hh⟩

theorem WantedSides.le {w h : Int} (hs : WantedSides a b width height w h) (ha : 1 ≤ a) (hb : 1 ≤ b)
    (hwide : width ≤ a) (hhigh : height ≤ b) : w ≤ a ∧ h ≤ b := by
  have hw (r : Int) : a.tdiv r ≤ a := Int.tdiv_le_self r (by omega)
  have hh (r : Int) : b.tdiv r ≤ b := Int.tdiv_le_self r (by omega)
  cases hs with
  | small hlow _ => omega
  | alike => exact ⟨hw _, hh _⟩
  | wide => exact ⟨hwide, hh _⟩
  | high => exact ⟨hw _, hhigh⟩

end

/-- The last part is about the sides of a JPEG, for the box that the plugin asks for. -/
theorem wantedSize_sides (a b width height : Int) (ha : 1 ≤ a) (hb : 1 ≤ b) (hw : 1 ≤ width) (hh : 1 ≤ height) :
    ∃ w h, wantedSizeDividing a b width height = some (w, h) ∧
      (a.tdiv width ≤ b → b.tdiv height ≤ a → 1 ≤ w ∧ 1 ≤ h) ∧
        (width ≤ a → height ≤ b → w ≤ a ∧ h ≤ b) ∧
          (width = 256 → height = 256 → 256 < a → a ≤ 65535 → 256 < b → b ≤ 65535 →
            a.tdiv width ≤ b ∧ b.tdiv height ≤ a) := by
  obtain ⟨w, h, heq, hs⟩ := wantedSizeDividing_cases ha hb hw hh
  refine ⟨w, h, heq, hs.pos ha hb hw hh, hs.le ha hb, ?_⟩
  rintro rfl rfl hwide hwide' hhigh hhigh'
  rw [tdiv_256 ha, tdiv_256 hb]
  omega

theorem wantedSize_sides_photo :
    ∃ w h, wantedSizeDividing 2592 1944 256 256 = some (w, h) ∧ 1 ≤ w ∧ 1 ≤ h ∧ w ≤ 2592 ∧ h ≤ 1944 := by
  obtain ⟨w, h, heq, hpos, hle, hjpeg⟩ :=
    wantedSize_sides 2592 1944 256 256 (by decide) (by decide) (by decide) (by decide)
  have hquotients := hjpeg rfl rfl (by decide) (by decide) (by decide) (by decide)
  have hsides := hpos hquotients.1 hquotients.2
  exact ⟨w, h, heq, hsides.1, hsides.2, hle (by decide) (by decide)⟩

end HildonThumbnail
