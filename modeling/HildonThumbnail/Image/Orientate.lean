import HildonThumbnail.Lib.Picture
import Mathlib.Algebra.Order.Ring.Int
import Mathlib.Tactic.Ring

/-! The thumbnail turned as the camera was held (`hildon_thumbnail_orientate` and
`_gdk_pixbuf_copy_mirror` in thumbs/hildon-thumbnail-factory.c). -/

namespace HildonThumbnail

open Picture (Symmetry)

def channels (hasAlpha : Bool) : Nat := if hasAlpha then 4 else 3

/-- A pixbuf, with what stands at each offset from its first pixel. No row reaches into the next. -/
structure Pixbuf where
  width : Nat
  height : Nat
  hasAlpha : Bool
  rowstride : Nat
  pixels : Int → UInt8
  apart : width * channels hasAlpha ≤ rowstride

namespace Pixbuf

def byteAt (p : Pixbuf) (x y c : Nat) : UInt8 := p.pixels (y * p.rowstride + x * channels p.hasAlpha + c)

def pixel (p : Pixbuf) (x y : Nat) : List UInt8 := (List.range (channels p.hasAlpha)).map (p.byteAt x y)

def picture (p : Pixbuf) : Picture (List UInt8) := ⟨p.width, p.height, fun x y => p.pixel x y⟩

end Pixbuf

/-- What `gdk_pixbuf_new` chooses: the length of the rows, and what is in the new memory. -/
structure GdkPixbufNew where
  rowstride : Bool → Nat → Nat
  contents : Int → UInt8
  apart : ∀ hasAlpha width, width * channels hasAlpha ≤ rowstride hasAlpha width

/-- The pointers of `_gdk_pixbuf_copy_mirror` and the memory it writes to. -/
structure Copying where
  sp : Int
  dp : Int
  dest : Int → UInt8

def Copying.byte (source : Int → UInt8) (s : Copying) : Copying :=
  ⟨s.sp + 1, s.dp + 1, Function.update s.dest s.dp (source s.sp)⟩

def Copying.pixel (source : Int → UInt8) (hasAlpha mirror : Bool) (s : Copying) : Copying :=
  let s := ((s.byte source).byte source).byte source
  if mirror then
    let s := if hasAlpha then { s with sp := s.sp + 1, dest := Function.update s.dest s.dp (source s.sp) } else s
    { s with dp := s.dp - (channels hasAlpha + 3) }
  else if hasAlpha then s.byte source else s

def Copying.pixels (source : Int → UInt8) (hasAlpha mirror : Bool) (s : Copying) : Nat → Copying
  | 0 => s
  | j + 1 => (s.pixels source hasAlpha mirror j).pixel source hasAlpha mirror

def rowPlace (h drs : Nat) (flip : Bool) (i : Nat) : Int :=
  if flip then ((h : Int) - i - 1) * drs else (i : Int) * drs

def copyRow (src : Pixbuf) (drs : Nat) (mirror flip : Bool) (dest : Int → UInt8) (i : Nat) : Int → UInt8 :=
  let dp := rowPlace src.height drs flip i
  let dp := if mirror then dp + ((src.width : Int) - 1) * channels src.hasAlpha else dp
  (Copying.pixels src.pixels src.hasAlpha mirror ⟨i * src.rowstride, dp, dest⟩ src.width).dest

def copyRows (src : Pixbuf) (drs : Nat) (mirror flip : Bool) (dest : Int → UInt8) : Nat → Int → UInt8
  | 0 => dest
  | i + 1 => copyRow src drs mirror flip (copyRows src drs mirror flip dest i) i

def gdkPixbufCopyMirror (new : GdkPixbufNew) (src : Pixbuf) (mirror flip : Bool) : Pixbuf where
  width := src.width
  height := src.height
  hasAlpha := src.hasAlpha
  rowstride := new.rowstride src.hasAlpha src.width
  pixels := copyRows src (new.rowstride src.hasAlpha src.width) mirror flip new.contents src.height
  apart := new.apart _ _

inductive Rotation
  | upsideDown
  | clockwise
  | counterclockwise
deriving DecidableEq

def Rotation.symmetry : Rotation → Symmetry
  | .upsideDown => .upsideDown
  | .clockwise => .clockwise
  | .counterclockwise => .counterclockwise

def gStrcmp0 (a b : String) : Int :=
  match compare a b with
  | .lt => -1
  | .eq => 0
  | .gt => 1

/-- What is returned: the pixbuf itself or a new one. (A reference is added to the
former, but not where the call to the tracker fails.) -/
inductive Orientated
  | image
  | made (pixbuf : Pixbuf)

/-- The answer of the tracker is used where no orientation is given. -/
def hildonThumbnailOrientate (new : GdkPixbufNew) (rotateSimple : Pixbuf → Rotation → Pixbuf)
    (tracker : Except String (Option String)) (orientation : Option String) (image : Pixbuf) : Orientated :=
  let orientation := match orientation, tracker with
    | some orientation, _ => some orientation
    | none, .ok value => value
    | none, .error _ => none
  match orientation with
  | none => .image
  | some orientation =>
    let ret := .image
    let ret := if gStrcmp0 orientation "2" ≠ 0 then .made (gdkPixbufCopyMirror new image true false) else ret
    let ret := if gStrcmp0 orientation "3" ≠ 0 then .made (rotateSimple image .upsideDown) else ret
    let ret := if gStrcmp0 orientation "4" ≠ 0 then .made (gdkPixbufCopyMirror new image false true) else ret
    let ret :=
      if gStrcmp0 orientation "5" ≠ 0 then
        .made (rotateSimple (gdkPixbufCopyMirror new image true false) .clockwise)
      else ret
    let ret := if gStrcmp0 orientation "6" ≠ 0 then .made (rotateSimple image .counterclockwise) else ret
    let ret :=
      if gStrcmp0 orientation "7" ≠ 0 then
        .made (rotateSimple (gdkPixbufCopyMirror new image true false) .counterclockwise)
      else ret
    if gStrcmp0 orientation "8" ≠ 0 then .made (rotateSimple image .clockwise) else ret

theorem gStrcmp0_eq_zero_iff {a b : String} : gStrcmp0 a b = 0 ↔ a = b := by
  unfold gStrcmp0
  cases h : compare a b with
  | lt => simp; rintro rfl; simp at h
  | eq => simpa using h
  | gt => simp; rintro rfl; simp at h

namespace Copying

variable (source : Int → UInt8) (hasAlpha mirror : Bool) (s : Copying)

theorem pixel_sp : (s.pixel source hasAlpha mirror).sp = s.sp + channels hasAlpha := by
  cases hasAlpha <;> cases mirror <;> simp [pixel, byte, channels] <;> omega

theorem pixel_dp : (s.pixel source hasAlpha mirror).dp =
    if mirror then s.dp - channels hasAlpha else s.dp + channels hasAlpha := by
  cases hasAlpha <;> cases mirror <;> simp [pixel, byte, channels] <;> omega

theorem pixel_dest (k : Int) : (s.pixel source hasAlpha mirror).dest k =
    if s.dp ≤ k ∧ k < s.dp + channels hasAlpha then source (s.sp + (k - s.dp)) else s.dest k := by
  have hcases : k < s.dp ∨ k = s.dp ∨ k = s.dp + 1 ∨ k = s.dp + 2 ∨ k = s.dp + 3 ∨ s.dp + 3 < k := by omega
  rcases hcases with h | rfl | rfl | rfl | rfl | h <;> cases hasAlpha <;> cases mirror <;>
    simp [pixel, byte, channels, Function.update_apply] <;> grind

def place (j : Nat) : Int :=
  if mirror then s.dp - j * channels hasAlpha else s.dp + j * channels hasAlpha

theorem pixels_sp (n : Nat) : (s.pixels source hasAlpha mirror n).sp = s.sp + n * channels hasAlpha := by
  induction n with
  | zero => simp [pixels]
  | succ n ih =>
    rw [pixels, pixel_sp, ih]
    push_cast
    rw [Int.add_mul]
    omega

theorem pixels_dp (n : Nat) : (s.pixels source hasAlpha mirror n).dp = s.place hasAlpha mirror n := by
  induction n with
  | zero => cases mirror <;> simp [pixels, place]
  | succ n ih =>
    rw [pixels, pixel_dp, ih]
    cases mirror <;> simp only [place, if_true, Bool.false_eq_true, if_false] <;> push_cast <;> rw [Int.add_mul] <;>
      omega

theorem place_apart {i j : Nat} (h : i ≠ j) :
    s.place hasAlpha mirror i + channels hasAlpha ≤ s.place hasAlpha mirror j ∨
      s.place hasAlpha mirror j + channels hasAlpha ≤ s.place hasAlpha mirror i := by
  cases hasAlpha <;> cases mirror <;> simp [place, channels] <;> omega

theorem pixels_dest_succ (n : Nat) (k : Int) : (s.pixels source hasAlpha mirror (n + 1)).dest k =
    if s.place hasAlpha mirror n ≤ k ∧ k < s.place hasAlpha mirror n + channels hasAlpha then
      source (s.sp + n * channels hasAlpha + (k - s.place hasAlpha mirror n))
    else (s.pixels source hasAlpha mirror n).dest k := by
  rw [pixels, pixel_dest, pixels_dp, pixels_sp]

theorem pixels_copied {n j c : Nat} (hj : j < n) (hc : c < channels hasAlpha) :
    (s.pixels source hasAlpha mirror n).dest (s.place hasAlpha mirror j + c) =
      source (s.sp + j * channels hasAlpha + c) := by
  induction n with
  | zero => omega
  | succ n ih =>
    rw [pixels_dest_succ]
    by_cases hlast : j = n
    · subst hlast
      rw [if_pos (by omega)]
      congr 1
      omega
    · have hapart := s.place_apart hasAlpha mirror hlast
      rw [if_neg (by omega)]
      exact ih (by omega)

theorem pixels_frame {n : Nat} {k : Int}
    (hk : ∀ j < n, k < s.place hasAlpha mirror j ∨ s.place hasAlpha mirror j + channels hasAlpha ≤ k) :
    (s.pixels source hasAlpha mirror n).dest k = s.dest k := by
  induction n with
  | zero => rfl
  | succ n ih =>
    have hlast := hk n (by omega)
    rw [pixels_dest_succ, if_neg (by omega)]
    exact ih fun j hj => hk j (by omega)

end Copying

section
variable (src : Pixbuf) (drs : Nat) (mirror flip : Bool) (dest : Int → UInt8)

def columnOf (w : Nat) (mirror : Bool) (x : Nat) : Nat := if mirror then w - (x + 1) else x

theorem place_row {x : Nat} (hx : x < src.width) (i : Nat) (sp : Int) :
    Copying.place src.hasAlpha mirror
      ⟨sp, if mirror then rowPlace src.height drs flip i + ((src.width : Int) - 1) * channels src.hasAlpha
        else rowPlace src.height drs flip i, dest⟩ x =
      rowPlace src.height drs flip i + columnOf src.width mirror x * channels src.hasAlpha := by
  have hcast : ((src.width - (x + 1) : Nat) : Int) = (src.width : Int) - 1 - x := by omega
  cases mirror
  · simp [Copying.place, columnOf]
  · simp only [Copying.place, columnOf, if_true, hcast]
    rw [Int.sub_mul (_ - 1)]
    omega

theorem copyRow_copied {i x c : Nat} (hx : x < src.width) (hc : c < channels src.hasAlpha) :
    copyRow src drs mirror flip dest i
      (rowPlace src.height drs flip i + columnOf src.width mirror x * channels src.hasAlpha + c) =
      src.pixels (i * src.rowstride + x * channels src.hasAlpha + c) := by
  rw [copyRow, ← place_row src drs mirror flip dest hx i (i * src.rowstride)]
  exact Copying.pixels_copied _ _ _ _ hx hc

theorem columnOf_lt {w x : Nat} (hx : x < w) : columnOf w mirror x < w := by
  unfold columnOf
  split <;> omega

theorem column_within {x : Nat} (hx : x < src.width) :
    (0 : Int) ≤ columnOf src.width mirror x * channels src.hasAlpha ∧
      (columnOf src.width mirror x : Int) * channels src.hasAlpha + channels src.hasAlpha ≤
        src.width * channels src.hasAlpha := by
  have hcolumn : (columnOf src.width mirror x + 1) * channels src.hasAlpha ≤ src.width * channels src.hasAlpha :=
    Nat.mul_le_mul_right _ (columnOf_lt mirror hx)
  rw [Nat.add_mul, Nat.one_mul] at hcolumn
  constructor
  · exact_mod_cast Nat.zero_le _
  · exact_mod_cast hcolumn

theorem copyRow_frame {i : Nat} {k : Int}
    (hk : k < rowPlace src.height drs flip i ∨
      rowPlace src.height drs flip i + src.width * channels src.hasAlpha ≤ k) :
    copyRow src drs mirror flip dest i k = dest k := by
  apply Copying.pixels_frame
  intro x hx
  rw [place_row src drs mirror flip dest hx i]
  have hcolumn := column_within src mirror hx
  omega

def rowOf (h : Nat) (flip : Bool) (y : Nat) : Nat := if flip then h - (y + 1) else y

theorem rowPlace_eq {h y : Nat} (hy : y < h) : rowPlace h drs flip y = ((rowOf h flip y * drs : Nat) : Int) := by
  have hcast : ((h - (y + 1) : Nat) : Int) = (h : Int) - y - 1 := by omega
  cases flip <;> simp [rowPlace, rowOf, hcast]

theorem rowOf_ne {h y z : Nat} (hy : y < h) (hz : z < h) (hne : y ≠ z) : rowOf h flip y ≠ rowOf h flip z := by
  cases flip <;> simp [rowOf] <;> omega

variable {drs} (hapart : src.width * channels src.hasAlpha ≤ drs)
include hapart

theorem rowPlace_apart {y z : Nat} (hy : y < src.height) (hz : z < src.height) (hne : y ≠ z) :
    rowPlace src.height drs flip y + src.width * channels src.hasAlpha ≤ rowPlace src.height drs flip z ∨
      rowPlace src.height drs flip z + src.width * channels src.hasAlpha ≤ rowPlace src.height drs flip y := by
  have hstep : ∀ a b : Nat, a < b → a * drs + src.width * channels src.hasAlpha ≤ b * drs := by
    intro a b hab
    calc a * drs + src.width * channels src.hasAlpha ≤ a * drs + drs := Nat.add_le_add_left hapart _
      _ = (a + 1) * drs := by rw [Nat.add_mul, Nat.one_mul]
      _ ≤ b * drs := Nat.mul_le_mul_right _ hab
  rw [rowPlace_eq drs flip hy, rowPlace_eq drs flip hz]
  rcases Nat.lt_or_gt_of_ne (rowOf_ne flip hy hz hne) with hlt | hlt
  · exact .inl (by exact_mod_cast hstep _ _ hlt)
  · exact .inr (by exact_mod_cast hstep _ _ hlt)

theorem copyRows_copied {n x y c : Nat} (hn : n ≤ src.height) (hy : y < n) (hx : x < src.width)
    (hc : c < channels src.hasAlpha) :
    copyRows src drs mirror flip dest n
      (rowPlace src.height drs flip y + columnOf src.width mirror x * channels src.hasAlpha + c) =
      src.pixels (y * src.rowstride + x * channels src.hasAlpha + c) := by
  induction n with
  | zero => omega
  | succ n ih =>
    rw [copyRows]
    by_cases hlast : y = n
    · subst hlast
      exact copyRow_copied src drs mirror flip _ hx hc
    · rw [copyRow_frame]
      · exact ih (by omega) (by omega)
      · have hrows :=
          rowPlace_apart src flip hapart (show y < src.height by omega) (show n < src.height by omega) hlast
        have hcolumn := column_within src mirror hx
        omega

end

section
variable (new : GdkPixbufNew) (src : Pixbuf) (mirror flip : Bool)

theorem columnOf_columnOf {w x : Nat} (hx : x < w) : columnOf w mirror (columnOf w mirror x) = x := by
  cases mirror <;> simp [columnOf]
  omega

theorem gdkPixbufCopyMirror_pixel {x y : Nat} (hx : x < src.width) (hy : y < src.height) :
    (gdkPixbufCopyMirror new src mirror flip).pixel x y =
      src.pixel (columnOf src.width mirror x) (rowOf src.height flip y) := by
  have hapart := new.apart src.hasAlpha src.width
  have hx' := columnOf_lt mirror hx
  have hy' : rowOf src.height flip y < src.height := columnOf_lt flip hy
  apply List.map_congr_left
  intro c hc
  have hcopied := copyRows_copied src mirror flip new.contents hapart (Nat.le_refl _) hy' hx' (List.mem_range.mp hc)
  rw [rowPlace_eq _ flip hy', columnOf_columnOf mirror hx,
    show rowOf src.height flip (rowOf src.height flip y) = y from columnOf_columnOf flip hy] at hcopied
  push_cast at hcopied
  exact hcopied

theorem gdkPixbufCopyMirror_picture :
    (gdkPixbufCopyMirror new src mirror flip).picture = (⟨false, mirror, flip⟩ : Symmetry) • src.picture := by
  have hpixels : (gdkPixbufCopyMirror new src mirror flip).picture = ⟨src.width, src.height,
      fun x y => src.pixel (columnOf src.width mirror x) (rowOf src.height flip y)⟩ := by
    have hpixel : ∀ (x : Fin src.width) (y : Fin src.height),
        (gdkPixbufCopyMirror new src mirror flip).pixel x y =
          src.pixel (columnOf src.width mirror x) (rowOf src.height flip y) :=
      fun x y => gdkPixbufCopyMirror_pixel new src mirror flip x.isLt y.isLt
    exact congrArg (Picture.mk src.width src.height) (funext fun x => funext fun y => hpixel x y)
  rw [hpixels]
  cases mirror <;> cases flip <;> rfl

end

/-- What gdk-pixbuf makes of an embedded orientation. -/
def embeddedOrientation : String → Symmetry
  | "2" => .mirroring
  | "3" => .upsideDown
  | "4" => .flipping
  | "5" => .mirroring * .clockwise
  | "6" => .clockwise
  | "7" => .flipping * .clockwise
  | "8" => .counterclockwise
  | _ => 1

/-- What lies between the orientation that is made and the one that is asked for. -/
def slip : String → Option Symmetry
  | "2" => some .transposition
  | "3" => some .counterclockwise
  | "4" => some (.mirroring * .flipping * .transposition)
  | "5" => some .flipping
  | "6" => some 1
  | "7" => some .mirroring
  | "8" => some .mirroring
  | _ => none

/-- What a string that names an orientation asks for; others ask for the pixbuf itself. -/
def Meets (orientation : String) (image : Pixbuf) (ret : Orientated) : Prop :=
  if orientation ∈ ["2", "3", "4", "5", "6", "7", "8"] then
    match ret with
    | .image => image.picture = embeddedOrientation orientation • image.picture
    | .made pixbuf => pixbuf.picture = embeddedOrientation orientation • image.picture
  else ret = .image

/-- What `gdk_pixbuf_rotate_simple` is documented to do. -/
def Rotates (rotateSimple : Pixbuf → Rotation → Pixbuf) : Prop :=
  ∀ p r, (rotateSimple p r).picture = r.symmetry • p.picture

section
variable (new : GdkPixbufNew) {rotateSimple : Pixbuf → Rotation → Pixbuf} (tracker : Except String (Option String))
  (image : Pixbuf)

/-- Of the steps that are taken the last one counts. -/
theorem orientate_ne_eight {orientation : String} (h : orientation ≠ "8") :
    hildonThumbnailOrientate new rotateSimple tracker (some orientation) image =
      .made (rotateSimple image .clockwise) := by
  have hne : gStrcmp0 orientation "8" ≠ 0 := fun h0 => h (gStrcmp0_eq_zero_iff.mp h0)
  simp only [hildonThumbnailOrientate]
  rw [if_pos hne]

theorem orientate_eight : hildonThumbnailOrientate new rotateSimple tracker (some "8") image =
    .made (rotateSimple (gdkPixbufCopyMirror new image true false) .counterclockwise) := by
  have hne : gStrcmp0 "8" "7" ≠ 0 := fun h0 => absurd (gStrcmp0_eq_zero_iff.mp h0) (by decide)
  simp only [hildonThumbnailOrientate]
  rw [if_neg (by rw [gStrcmp0_eq_zero_iff.mpr rfl]; exact fun h => h rfl), if_pos hne]

def made (orientation : String) : Symmetry :=
  if orientation = "8" then .counterclockwise * .mirroring else .clockwise

theorem orientate_made (hrotates : Rotates rotateSimple) (orientation : String) :
    ∃ pixbuf, hildonThumbnailOrientate new rotateSimple tracker (some orientation) image = .made pixbuf ∧
      pixbuf.picture = made orientation • image.picture := by
  by_cases h : orientation = "8"
  · subst h
    refine ⟨_, orientate_eight new tracker image, ?_⟩
    rw [hrotates, gdkPixbufCopyMirror_picture, ← mul_smul]
    rfl
  · refine ⟨_, orientate_ne_eight new tracker image h, ?_⟩
    rw [hrotates, made, if_neg h]
    rfl

theorem slip_eq {orientation : String} (h : orientation ∈ ["2", "3", "4", "5", "6", "7", "8"]) :
    slip orientation = some ((embeddedOrientation orientation)⁻¹ * made orientation) := by
  simp only [List.mem_cons, List.not_mem_nil, or_false] at h
  rcases h with rfl | rfl | rfl | rfl | rfl | rfl | rfl <;> decide

theorem slip_eq_none {orientation : String} (h : orientation ∉ ["2", "3", "4", "5", "6", "7", "8"]) :
    slip orientation = none := by
  unfold slip
  split <;> simp_all

/-- The pixels are right for an orientation exactly where the picture does not change
under what lies between it and the orientation that is made. -/
theorem orientate_meets_iff (hrotates : Rotates rotateSimple) (orientation : String) :
    Meets orientation image (hildonThumbnailOrientate new rotateSimple tracker (some orientation) image) ↔
      ∃ s, slip orientation = some s ∧ s • image.picture = image.picture := by
  obtain ⟨pixbuf, hret, hpicture⟩ := orientate_made new tracker image hrotates orientation
  rw [hret]
  by_cases hnamed : orientation ∈ ["2", "3", "4", "5", "6", "7", "8"]
  · rw [Meets, if_pos hnamed, slip_eq hnamed]
    show pixbuf.picture = _ ↔ _
    rw [hpicture, Picture.Symmetry.smul_eq_smul_iff]
    constructor
    · intro h
      exact ⟨_, rfl, h⟩
    · rintro ⟨s, hs, h⟩
      rw [Option.some.inj hs]
      exact h
  · rw [Meets, if_neg hnamed, slip_eq_none hnamed]
    constructor
    · intro h
      cases h
    · rintro ⟨s, hs, _⟩
      cases hs

end

def layOut (width height : Nat) (hasAlpha : Bool) (byte : Nat → Nat → Nat → UInt8) : Pixbuf where
  width := width
  height := height
  hasAlpha := hasAlpha
  rowstride := width * channels hasAlpha
  pixels k := byte (k.toNat / channels hasAlpha % width) (k.toNat / channels hasAlpha / width)
    (k.toNat % channels hasAlpha)
  apart := Nat.le_refl _

theorem layOut_byteAt {width height : Nat} {hasAlpha : Bool} {byte : Nat → Nat → Nat → UInt8} {x c : Nat} (y : Nat)
    (hx : x < width) (hc : c < channels hasAlpha) :
    (layOut width height hasAlpha byte).byteAt x y c = byte x y c := by
  have hpos : 0 < channels hasAlpha := by omega
  have hoffset : ((y : Int) * (width * channels hasAlpha : Nat) + x * channels hasAlpha + c).toNat =
      c + channels hasAlpha * (x + width * y) := by
    have hcast : (y : Int) * (width * channels hasAlpha : Nat) + x * channels hasAlpha + c =
        ((c + channels hasAlpha * (x + width * y) : Nat) : Int) := by
      push_cast
      ring
    rw [hcast, Int.toNat_natCast]
  show byte _ _ _ = _
  simp only [layOut, hoffset]
  have hcell : (c + channels hasAlpha * (x + width * y)) / channels hasAlpha = x + width * y := by
    rw [Nat.add_mul_div_left _ _ hpos, Nat.div_eq_of_lt hc, Nat.zero_add]
  have hcolour : (c + channels hasAlpha * (x + width * y)) % channels hasAlpha = c := by
    rw [Nat.add_mul_mod_self_left, Nat.mod_eq_of_lt hc]
  have hrow : (x + width * y) / width = y := by
    rw [Nat.add_mul_div_left _ _ (by omega), Nat.div_eq_of_lt hx, Nat.zero_add]
  rw [hcell, hcolour, hrow, Nat.add_mul_mod_self_left, Nat.mod_eq_of_lt hx]

def turned (p : Pixbuf) : Rotation → Pixbuf
  | .upsideDown => layOut p.width p.height p.hasAlpha fun x y => p.byteAt (p.width - (x + 1)) (p.height - (y + 1))
  | .clockwise => layOut p.height p.width p.hasAlpha fun x y => p.byteAt y (p.height - (x + 1))
  | .counterclockwise => layOut p.height p.width p.hasAlpha fun x y => p.byteAt (p.width - (y + 1)) x

theorem rotates_turned : Rotates turned := by
  have hlaid : ∀ (w h : Nat) (hasAlpha : Bool) (byte : Nat → Nat → Nat → UInt8),
    (layOut w h hasAlpha byte).picture =
      ⟨w, h, fun x y => (List.range (channels hasAlpha)).map (byte x y)⟩ := by
    intro w h hasAlpha byte
    apply congrArg (Picture.mk w h)
    funext x y
    apply List.map_congr_left
    intro c hc
    exact layOut_byteAt y.val x.isLt (List.mem_range.mp hc)
  intro p r
  cases r <;> exact hlaid _ _ _ _

def plainNew : GdkPixbufNew where
  rowstride hasAlpha width := width * channels hasAlpha
  contents _ := 0
  apart _ _ := Nat.le_refl _

def darkLight : Pixbuf := layOut 2 1 false fun x _ _ => if x = 0 then 0 else 255

theorem orientate_darkLight_six : Meets "6" darkLight
    (hildonThumbnailOrientate plainNew turned (.ok none) (some "6") darkLight) :=
  (orientate_meets_iff plainNew (.ok none) darkLight rotates_turned "6").mpr ⟨1, rfl, one_smul _ _⟩

/-- A picture that is upside down is laid on its side. -/
theorem orientate_darkLight_three : ¬ Meets "3" darkLight
    (hildonThumbnailOrientate plainNew turned (.ok none) (some "3") darkLight) := by
  rw [orientate_ne_eight plainNew (.ok none) darkLight (by decide), Meets, if_pos (by decide)]
  intro h
  have hwidth : 1 = 2 := congrArg Picture.width h
  omega

end HildonThumbnail
