import HildonThumbnail.OutPlugin.Png

/-! The names of the thumbnails and of the failure markers of a URI, in the two
formats of the output plugins. -/

namespace HildonThumbnail

inductive OutFormat
  | png
  | jpeg
deriving DecidableEq

def OutFormat.asPng : OutFormat → Bool
  | .png => true
  | .jpeg => false

namespace OutFormat

def thumb (env : CacheEnv) (f : OutFormat) (t : HildonThumbnailPluginOutType) (u : String) : Path :=
  env.home ++ [".thumbnails", t.dirName, digestName env u f.asPng]

def marker (env : CacheEnv) (f : OutFormat) (u : String) : Path :=
  env.home ++ [".thumbnails", "fail", "hildon-thumbnail", digestName env u f.asPng]

section Paths
variable {env : CacheEnv} {f g : OutFormat} {s t : HildonThumbnailPluginOutType} {u v : String}

theorem file_eq : (hildonThumbnailUtilGetThumbPaths env u f.asPng).file t = f.thumb env t u :=
  getThumbPaths_file env u f.asPng t

theorem failFile_thumb : Png.failFile (f.thumb env t u) = f.marker env u := by
  simp [Png.failFile, thumb, marker, gFileGetParent, gFileGetChild, gFileGetBasename]

theorem digestName_format (h : digestName env u f.asPng = digestName env v g.asPng) : f = g := by
  have hlast := congrArg (fun n => n.toList.reverse.take 2) h
  cases f <;> cases g <;> simp [digestName, asPng] at hlast ⊢

theorem digestName_eq_iff (hmd5 : env.md5 u = env.md5 v → u = v) :
    digestName env u f.asPng = digestName env v g.asPng ↔ f = g ∧ u = v := by
  constructor
  · intro h
    obtain rfl := digestName_format h
    exact ⟨rfl, hmd5 (md5_of_digestName h)⟩
  · rintro ⟨rfl, rfl⟩
    rfl

theorem thumb_inj (hmd5 : env.md5 u = env.md5 v → u = v) :
    f.thumb env s u = g.thumb env t v ↔ f = g ∧ s = t ∧ u = v := by
  simp only [thumb, List.append_cancel_left_eq, List.cons.injEq, true_and, and_true,
    HildonThumbnailPluginOutType.dirName_inj, digestName_eq_iff hmd5]
  exact and_left_comm

theorem marker_inj (hmd5 : env.md5 u = env.md5 v → u = v) :
    f.marker env u = g.marker env v ↔ f = g ∧ u = v := by
  simp [marker, digestName_eq_iff hmd5]

theorem marker_ne_thumb : f.marker env u ≠ g.thumb env t v := by
  simp [marker, thumb]

theorem tempPath_ne_marker : Png.tempPath (f.thumb env s v) ≠ g.marker env u := by
  simp [Png.tempPath, thumb, marker, gFileGetParent, gFileGetBasename]

theorem tempPath_ne_thumb : Png.tempPath (f.thumb env s v) ≠ g.thumb env t u := by
  intro h
  have hname : digestName env v f.asPng ++ ".tmp" = digestName env u g.asPng := by
    simp [Png.tempPath, thumb, gFileGetParent, gFileGetBasename] at h
    exact h.2
  have hlast := congrArg (fun n => n.toList.getLast?) hname
  cases g <;> simp [digestName, asPng] at hlast

end Paths

end OutFormat

end HildonThumbnail
