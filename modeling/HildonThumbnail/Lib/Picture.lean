import Mathlib.Algebra.Group.Action.Defs
import Mathlib.Algebra.Group.MinimalAxioms
import Mathlib.Data.Fin.Rev

/-! Pictures and their eight symmetries, each told by whether it exchanges the sides
and which of them it then turns round. -/

structure Picture (α : Type*) where
  width : Nat
  height : Nat
  pixel : Fin width → Fin height → α

namespace Picture

variable {α : Type*}

def mirror (p : Picture α) : Picture α := ⟨p.width, p.height, fun x y => p.pixel x.rev y⟩
def flip (p : Picture α) : Picture α := ⟨p.width, p.height, fun x y => p.pixel x y.rev⟩
def transpose (p : Picture α) : Picture α := ⟨p.height, p.width, fun x y => p.pixel y x⟩

@[simp] theorem mirror_mirror (p : Picture α) : p.mirror.mirror = p := by simp [mirror]
@[simp] theorem flip_flip (p : Picture α) : p.flip.flip = p := by simp [flip]
@[simp] theorem transpose_transpose (p : Picture α) : p.transpose.transpose = p := rfl

theorem flip_mirror (p : Picture α) : p.mirror.flip = p.flip.mirror := rfl
theorem transpose_mirror (p : Picture α) : p.mirror.transpose = p.transpose.flip := rfl
theorem transpose_flip (p : Picture α) : p.flip.transpose = p.transpose.mirror := rfl

@[ext] structure Symmetry where
  swapped : Bool
  mirrored : Bool
  flipped : Bool
deriving DecidableEq

namespace Symmetry

def apply (s : Symmetry) (p : Picture α) : Picture α :=
  let p := if s.swapped then p.transpose else p
  let p := if s.mirrored then p.mirror else p
  if s.flipped then p.flip else p

instance : One Symmetry := ⟨⟨false, false, false⟩⟩

/-- The exchange of the sides is brought past what the other symmetry turns round. -/
instance : Mul Symmetry :=
  ⟨fun a b => ⟨a.swapped ^^ b.swapped, a.mirrored ^^ (if a.swapped then b.flipped else b.mirrored),
    a.flipped ^^ (if a.swapped then b.mirrored else b.flipped)⟩⟩

instance : Inv Symmetry :=
  ⟨fun a => ⟨a.swapped, if a.swapped then a.flipped else a.mirrored, if a.swapped then a.mirrored else a.flipped⟩⟩

theorem mul_def (a b : Symmetry) : a * b = ⟨a.swapped ^^ b.swapped,
    a.mirrored ^^ (if a.swapped then b.flipped else b.mirrored),
    a.flipped ^^ (if a.swapped then b.mirrored else b.flipped)⟩ := rfl

instance : Group Symmetry :=
  Group.ofLeftAxioms
    (by
      rintro ⟨sa, ma, fa⟩ ⟨sb, mb, fb⟩ ⟨sc, mc, fc⟩
      cases sa <;> cases sb <;> simp [mul_def])
    (by
      rintro ⟨s, m, f⟩
      simp [mul_def, show (1 : Symmetry) = ⟨false, false, false⟩ from rfl])
    (by
      rintro ⟨s, m, f⟩
      cases s <;> cases m <;> cases f <;> rfl)

theorem apply_mul (a b : Symmetry) (p : Picture α) : (a * b).apply p = a.apply (b.apply p) := by
  obtain ⟨sa, ma, fa⟩ := a
  obtain ⟨sb, mb, fb⟩ := b
  cases sa <;> cases ma <;> cases fa <;> cases sb <;> cases mb <;> cases fb <;>
    simp [apply, mul_def, flip_mirror, transpose_mirror, transpose_flip]

instance : MulAction Symmetry (Picture α) where
  smul := apply
  one_smul _ := rfl
  mul_smul := apply_mul

def transposition : Symmetry := ⟨true, false, false⟩
def clockwise : Symmetry := ⟨true, true, false⟩
def counterclockwise : Symmetry := ⟨true, false, true⟩
def upsideDown : Symmetry := ⟨false, true, true⟩
def mirroring : Symmetry := ⟨false, true, false⟩
def flipping : Symmetry := ⟨false, false, true⟩

/-- Two symmetries agree on the pictures that what lies between them leaves as they are. -/
theorem smul_eq_smul_iff (a b : Symmetry) (p : Picture α) : a • p = b • p ↔ (b⁻¹ * a) • p = p := by
  rw [mul_smul, inv_smul_eq_iff]

end Symmetry

end Picture
