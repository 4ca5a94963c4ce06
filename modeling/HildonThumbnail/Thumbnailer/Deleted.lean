import HildonThumbnail.OutPlugin.JpegIndex
import HildonThumbnail.OutPlugin.Outplugins
import HildonThumbnail.Thumbs.Cached

/-! What is left of a URI once it has been deleted (`thumbnailer_delete` against
`hildon_thumbnail_outplugin_needs_out` and `hildon_thumbnail_is_cached`). -/

namespace HildonThumbnail

def thumbsOf (env : CacheEnv) (u : String) : List Path :=
  [OutFormat.png, .jpeg].flatMap fun f => Jpeg.flavours.map fun t => f.thumb env t u

theorem mem_thumbsOf {env : CacheEnv} {u : String} {p : Path} :
    p ∈ thumbsOf env u ↔ ∃ (f : OutFormat) (t : HildonThumbnailPluginOutType), p = f.thumb env t u := by
  constructor
  · intro h
    obtain ⟨f, _, h⟩ := List.mem_flatMap.mp h
    obtain ⟨t, _, rfl⟩ := List.mem_map.mp h
    exact ⟨f, t, rfl⟩
  · rintro ⟨f, t, rfl⟩
    have hformat : f ∈ [OutFormat.png, .jpeg] := by cases f <;> simp
    have hflavour : t ∈ Jpeg.flavours := by cases t <;> simp [Jpeg.flavours]
    exact List.mem_flatMap.mpr ⟨f, hformat, List.mem_map.mpr ⟨t, hflavour, rfl⟩⟩

theorem thumbnailerDelete_eq (env : CacheEnv) (urls : List String) (files : Files) :
    thumbnailerDelete env urls files =
      (urls.flatMap (thumbsOf env)).foldl (fun files path => files.erase path) files := by
  have hround (u : String) (files : Files) :
      eachFormat (deleteThumbs env u) files =
        (thumbsOf env u).foldl (fun files path => files.erase path) files := by
    change [OutFormat.png, .jpeg].foldl (fun files f => deleteThumbs env u files f.asPng) files = _
    simp only [Jpeg.deleteThumbs_eq, thumbsOf, List.foldl_flatMap, List.foldl_map]
  simp only [thumbnailerDelete, hround, List.foldl_flatMap]

section Deleted
variable {env : LocalEnv} {build : Build} {files : Files} {urls : List String} {u : String}
    {now : UInt64} {p : Path}
  {f : OutFormat} {t : HildonThumbnailPluginOutType} {asPng : Bool}

theorem lookup_delete_thumb (hu : u ∈ urls) :
    (thumbnailerDelete env.toCacheEnv urls files).lookup (f.thumb env.toCacheEnv t u) = none := by
  rw [thumbnailerDelete_eq]
  exact KeyTable.lookup_foldl_erase_of_mem (List.mem_flatMap.mpr ⟨u, hu, mem_thumbsOf.mpr ⟨f, t, rfl⟩⟩) _

theorem lookup_delete_other (hp : ∀ (f : OutFormat) t v, p ≠ f.thumb env.toCacheEnv t v) :
    (thumbnailerDelete env.toCacheEnv urls files).lookup p = files.lookup p := by
  rw [thumbnailerDelete_eq]
  refine KeyTable.lookup_foldl_erase_of_notMem (fun hmem => ?_) _
  obtain ⟨v, _, hv⟩ := List.mem_flatMap.mp hmem
  obtain ⟨f, t, rfl⟩ := mem_thumbsOf.mp hv
  exact hp f t v rfl

theorem stamp_delete_marker : Png.stamp (thumbnailerDelete env.toCacheEnv urls files) (f.marker env.toCacheEnv u) =
    Png.stamp files (f.marker env.toCacheEnv u) := by
  rw [Png.stamp, lookup_delete_other fun _ _ _ => OutFormat.marker_ne_thumb, Png.stamp]

theorem lookup_delete_local (h : localFile env u asPng t = some p) :
    (thumbnailerDelete env.toCacheEnv urls files).lookup p = files.lookup p :=
  lookup_delete_other fun _ _ _ => localFile_ne_thumb h

theorem localCopy_delete : localCopy env (thumbnailerDelete env.toCacheEnv urls files) u asPng t =
    localCopy env files u asPng t := by
  ext p
  rw [localCopy_eq_some, localCopy_eq_some]
  refine and_congr_right fun h => ?_
  rw [gFileQueryExists, lookup_delete_local h, gFileQueryExists]

/-- The deleted URI is as good as one that no thumbnail was ever made for. -/
structure Forgotten (build : Build) (env : LocalEnv) (now : UInt64) (files : Files) (u : String) : Prop where
  needsOut : ∀ (f : OutFormat) t m, f.needsOut env.toCacheEnv files now t m u = ⟨true, false⟩
  notCached : ∀ width height isCropped, hildonThumbnailIsCached build env files u width height isCropped = false

/-- No failure marker that counts, and no local copy of the flavours that the
client looks for. -/
structure NoTrace (env : LocalEnv) (now : UInt64) (files : Files) (u : String) : Prop where
  pngMarker : Png.stamp files (OutFormat.png.marker env.toCacheEnv u) = none
  jpegMarker : ∀ a, Png.stamp files (OutFormat.jpeg.marker env.toCacheEnv u) = some a → ¬ a + 5 < now
  localCopy : ∀ t, t = .cropped ∨ t = .large → ∀ p, localCopy env files u false t = some p →
    newEnough env files u p = false

theorem needsOut_delete_iff (hu : u ∈ urls) (f : OutFormat) : (∀ t m,
      f.needsOut env.toCacheEnv (thumbnailerDelete env.toCacheEnv urls files) now t m u = ⟨true, false⟩) ↔
    ∀ a, Png.stamp files (f.marker env.toCacheEnv u) = some a → ∀ m, f.trusts now a m = false := by
  have hthumb (t : HildonThumbnailPluginOutType) :
      Png.stamp (thumbnailerDelete env.toCacheEnv urls files) (f.thumb env.toCacheEnv t u) = none := by
    rw [Png.stamp, lookup_delete_thumb hu, Option.map_none]
  simp only [OutFormat.needsOut_eq_answer, stamp_delete_marker, hthumb]
  cases hmarker : Png.stamp files (f.marker env.toCacheEnv u) with
  | none => simp [OutFormat.answer]
  | some a =>
    constructor
    · intro h b hb m
      obtain rfl := Option.some.inj hb
      by_contra htrusts
      have hanswer := h .cropped m
      rw [OutFormat.answer, if_pos (Bool.not_eq_false _ ▸ htrusts)] at hanswer
      cases hanswer
    · intro h t m
      rw [OutFormat.answer, if_neg (Bool.eq_false_iff.mp (h a rfl m))]

theorem newEnough_delete_local (h : localFile env u asPng t = some p) :
    newEnough env (thumbnailerDelete env.toCacheEnv urls files) u p = newEnough env files u p := by
  rw [newEnough, newEnough, gFileQueryExists, gFileQueryExists, lookup_delete_local h]

theorem newEnough_delete_thumb (hu : u ∈ urls) (t : HildonThumbnailPluginOutType) :
    newEnough env (thumbnailerDelete env.toCacheEnv urls files) u
      ((hildonThumbnailUtilGetThumbPaths env.toCacheEnv u false).file t) = false := by
  have hfile : (hildonThumbnailUtilGetThumbPaths env.toCacheEnv u false).file t =
    OutFormat.jpeg.thumb env.toCacheEnv t u :=
    OutFormat.file_eq (f := .jpeg)
  rw [hfile, newEnough, gFileQueryExists, lookup_delete_thumb hu]
  rfl

theorem notCached_delete_iff (hu : u ∈ urls) (t : HildonThumbnailPluginOutType) :
    newEnough env (thumbnailerDelete env.toCacheEnv urls files) u
        ((localCopy env (thumbnailerDelete env.toCacheEnv urls files) u false t).getD
          ((hildonThumbnailUtilGetThumbPaths env.toCacheEnv u false).file t)) = false ↔
      ∀ p, localCopy env files u false t = some p → newEnough env files u p = false := by
  rw [localCopy_delete]
  cases hcopy : localCopy env files u false t with
  | none => simp [newEnough_delete_thumb hu]
  | some p => simp [newEnough_delete_local (localCopy_eq_some.mp hcopy).1]

/-- Delete reaches the thumbnails alone. -/
theorem deleted_forgotten_iff (build : Build) (env : LocalEnv) (files : Files) (urls : List String) (u : String)
    (now : UInt64) (hu : u ∈ urls) :
    Forgotten build env now (thumbnailerDelete env.toCacheEnv urls files) u ↔ NoTrace env now files u := by
  have hcopy (t : HildonThumbnailPluginOutType) :
      newEnough env (thumbnailerDelete env.toCacheEnv urls files) u _ = false ↔ _ := notCached_delete_iff hu t
  constructor
  · rintro ⟨hneeds, hcached⟩
    simp only [isCached_eq] at hcached
    refine ⟨?_, fun a ha => ?_, ?_⟩
    · by_contra hmarker
      obtain ⟨a, ha⟩ := Option.ne_none_iff_exists'.mp hmarker
      have htrusts := (needsOut_delete_iff hu .png).mp (hneeds .png) a ha a
      rw [OutFormat.trusts, sameTime_self] at htrusts
      cases htrusts
    · have htrusts := (needsOut_delete_iff hu .jpeg).mp (hneeds .jpeg) a ha a
      simpa [OutFormat.trusts, sameTime_self] using htrusts
    · rintro t (rfl | rfl)
      · exact (hcopy .cropped).mp (hcached 0 0 true)
      · refine (hcopy .large).mp ?_
        cases build <;> exact hcached 129 129 false
  · rintro ⟨hpng, hjpeg, hlocal⟩
    refine ⟨fun f => (needsOut_delete_iff hu f).mpr fun a ha m => ?_, fun width height isCropped => ?_⟩
    · cases f with
      | png => cases hpng.symm.trans ha
      | jpeg => simp [OutFormat.trusts, hjpeg a ha]
    · have hcropped := (hcopy .cropped).mpr (hlocal .cropped (.inl rfl))
      have hlarge := (hcopy .large).mpr (hlocal .large (.inr rfl))
      rw [isCached_eq, hildonThumbnailGetUri.eq_def]
      dsimp only
      split
      · exact hcropped
      · split
        · split
          · split
            · rfl
            · exact newEnough_delete_thumb hu .normal
          · exact hlarge
        · exact hlarge
        · exact hlarge

inductive CacheWrite
  | out (f : OutFormat) (now : UInt64) (type : HildonThumbnailPluginOutType) (mtime : UInt64) (uri : String)
      (saved : Except String Unit)
  | putError (f : OutFormat) (now mtime : UInt64) (uri : String) (message : Option String)

def CacheWrite.apply (env : CacheEnv) (files : Files) : CacheWrite → Files
  | .out f now type mtime uri saved => f.out env files now type mtime uri saved
  | .putError f now mtime uri message => f.putError env files now mtime uri message

theorem deleted_not_forgotten : ¬ ∀ (build : Build) (env : LocalEnv) (writes : List CacheWrite) (urls : List String)
    (u : String) (now : UInt64), u ∈ urls → Forgotten build env now
      (thumbnailerDelete env.toCacheEnv urls (writes.foldl (CacheWrite.apply env.toCacheEnv) ∅)) u := by
  intro h
  have hh :=
    h .default oneOriginal [.putError .jpeg 10 5 "file:///a.jpg" none] ["file:///a.jpg"] "file:///a.jpg" 100
    List.mem_cons_self
  exact absurd (hh.needsOut .jpeg .cropped 5) (by decide)

theorem deleted_forgotten_thumb : Forgotten .default oneOriginal 100
    (thumbnailerDelete oneOriginal.toCacheEnv ["file:///a.jpg"]
      (OutFormat.jpeg.out oneOriginal.toCacheEnv ∅ 10 .cropped 5 "file:///a.jpg" (.ok ()))) "file:///a.jpg" := by
  refine (deleted_forgotten_iff .default oneOriginal _ ["file:///a.jpg"] "file:///a.jpg" 100 List.mem_cons_self).mpr
    ⟨rfl, fun a ha => (nomatch ha), ?_⟩
  rintro t (rfl | rfl) p hp
  · exact nomatch hp
  · exact nomatch hp

end Deleted

end HildonThumbnail
