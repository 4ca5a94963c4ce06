import HildonThumbnail.OutPlugin.Outplugins

/-! When the two plugins give one answer about a thumbnail. The JPEG plugin
looks at the clock besides, for failure markers and for thumbnails alike. -/

namespace HildonThumbnail

namespace OutFormat

variable {now m a : UInt64} {marker thumb : Option UInt64}

def FreshMarker (now : UInt64) (marker : Option UInt64) : Prop := ∃ a, marker = some a ∧ now.toNat ≤ a.toNat + 5

/-- A thumbnail the JPEG plugin would take for up to date but for its age. -/
def FreshThumb (now m : UInt64) (thumb : Option UInt64) : Prop :=
  ∃ a, thumb = some a ∧ sameTime a m = true ∧ ¬ a + 5 < now

theorem trusts_jpeg_of_old (h : a + 5 < now) : jpeg.trusts now a m = png.trusts now a m := by
  simp [trusts, h]

theorem trusts_jpeg_of_fresh (h : ¬ a + 5 < now) : jpeg.trusts now a m = false := by
  simp [trusts, h]

theorem add_five_lt (h : a.toNat + 5 < now.toNat) : a + 5 < now := by
  have hnow := now.toNat_lt
  rw [UInt64.lt_iff_toNat_lt, UInt64.toNat_add]
  have hfive : (5 : UInt64).toNat = 5 := rfl
  omega

/-- With a marker only its age can make a difference, and only the age that the
guard is for. -/
theorem answer_marker_eq (h : ¬ FreshMarker now (some a)) :
    png.answer now m (some a) thumb = jpeg.answer now m (some a) thumb := by
  have hold : a.toNat + 5 < now.toNat := by
    by_contra hle
    exact h ⟨a, rfl, Nat.le_of_not_lt hle⟩
  rw [answer, answer, trusts_jpeg_of_old (add_five_lt hold)]

theorem answer_thumb_eq_iff :
    png.answer now m none thumb = jpeg.answer now m none thumb ↔ ¬ FreshThumb now m thumb := by
  cases thumb with
  | none => simp [answer, FreshThumb]
  | some a =>
    have hfresh : FreshThumb now m (some a) ↔ sameTime a m = true ∧ ¬ a + 5 < now := by
      simp [FreshThumb]
    rw [hfresh, answer, answer]
    by_cases hold : a + 5 < now
    · simp [trusts_jpeg_of_old hold, hold]
    · rw [trusts_jpeg_of_fresh hold]
      cases hsame : sameTime a m <;> simp [trusts, hsame, hold]

theorem answer_eq_iff : FreshMarker now marker ∨ png.answer now m marker thumb = jpeg.answer now m marker thumb ↔
    marker.isSome ∨ ¬ FreshThumb now m thumb := by
  cases marker with
  | none =>
    have hnone : ¬ FreshMarker now none := by
      rintro ⟨a, ha, _⟩
      cases ha
    simp only [hnone, false_or, answer_thumb_eq_iff, Option.isSome_none, Bool.false_eq_true]
  | some a =>
    have hagree : FreshMarker now (some a) ∨
        png.answer now m (some a) thumb = jpeg.answer now m (some a) thumb := by
      by_cases hfresh : FreshMarker now (some a)
      · exact .inl hfresh
      · exact .inr (answer_marker_eq hfresh)
    simp [hagree]

end OutFormat

section Plugins
variable (env : CacheEnv) (files : Files) (now m : UInt64) (t : HildonThumbnailPluginOutType) (u : String)

/-- The guard is meant for failure markers, and for them alone the plugins may
disagree. -/
def NeedsOutAgree : Prop :=
  OutFormat.FreshMarker now (Png.stamp files (OutFormat.jpeg.marker env u)) ∨
    Png.needsOut env files t m u = Jpeg.needsOut env files now t m u

variable {env files now m t u}

/-- The JPEG plugin does not take the word of a thumbnail of the last five
seconds either. -/
theorem needsOutAgree_iff
    (hmarker : Png.stamp files (OutFormat.png.marker env u) = Png.stamp files (OutFormat.jpeg.marker env u))
    (hthumb : Png.stamp files (OutFormat.png.thumb env t u) = Png.stamp files (OutFormat.jpeg.thumb env t u)) :
    NeedsOutAgree env files now m t u ↔
      gFileQueryExists files (OutFormat.jpeg.marker env u) = true ∨
        ¬ OutFormat.FreshThumb now m (Png.stamp files (OutFormat.jpeg.thumb env t u)) := by
  have hpng := OutFormat.needsOut_eq_answer env .png files now t m u
  have hjpeg := OutFormat.needsOut_eq_answer env .jpeg files now t m u
  have hexists : (Png.stamp files (OutFormat.jpeg.marker env u)).isSome =
      gFileQueryExists files (OutFormat.jpeg.marker env u) := by simp [Png.stamp, gFileQueryExists]
  rw [hmarker, hthumb] at hpng
  simp only [OutFormat.needsOut] at hpng hjpeg
  rw [NeedsOutAgree, hpng, hjpeg, OutFormat.answer_eq_iff, hexists]

def bothThumbs (env : CacheEnv) (t : HildonThumbnailPluginOutType) (mtime : UInt64) (u : String) : Files :=
  ((∅ : Files).insert (OutFormat.png.thumb env t u) ⟨mtime, .png (Png.pngOptions u mtime)⟩).insert
    (OutFormat.jpeg.thumb env t u) ⟨mtime, .jpeg⟩

theorem needsOut_disagree : ¬ ∀ (env : CacheEnv) (files : Files) (now m : UInt64) (t : HildonThumbnailPluginOutType)
    (u : String),
    Png.stamp files (OutFormat.png.marker env u) = Png.stamp files (OutFormat.jpeg.marker env u) →
    Png.stamp files (OutFormat.png.thumb env t u) = Png.stamp files (OutFormat.jpeg.thumb env t u) →
    NeedsOutAgree env files now m t u := by
  intro h
  have hagree :=
    h ⟨["home", "user"], id⟩ (bothThumbs ⟨["home", "user"], id⟩ .normal 100 "file:///a.png") 103 100 .normal
    "file:///a.png" (by decide) (by decide)
  rcases hagree with ⟨a, ha, _⟩ | hsame
  · have hnone : Png.stamp (bothThumbs ⟨["home", "user"], id⟩ .normal 100 "file:///a.png")
        (OutFormat.jpeg.marker ⟨["home", "user"], id⟩ "file:///a.png") = none := by decide
    rw [hnone] at ha
    cases ha
  · exact absurd hsame (by decide)

theorem needsOutAgree_old : NeedsOutAgree ⟨["home", "user"], id⟩
    (bothThumbs ⟨["home", "user"], id⟩ .normal 100 "file:///a.png") 106 100 .normal "file:///a.png" := by
  refine (needsOutAgree_iff (by decide) (by decide)).mpr (.inr ?_)
  rintro ⟨a, ha, _, hfresh⟩
  have hthumb : Png.stamp (bothThumbs ⟨["home", "user"], id⟩ .normal 100 "file:///a.png")
      (OutFormat.jpeg.thumb ⟨["home", "user"], id⟩ .normal "file:///a.png") = some 100 := by decide
  rw [hthumb] at ha
  obtain rfl := Option.some.inj ha
  exact hfresh (by decide)

end Plugins

end HildonThumbnail
