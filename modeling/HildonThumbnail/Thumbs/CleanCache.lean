import HildonThumbnail.Cache.Clean
import HildonThumbnail.Thumbnailer.Deleted

/-! What `hildon_thumbnail_factory_clean_cache` leaves of the thumbnails and of the
failure markers. -/

namespace HildonThumbnail

/-- The files that `read_cache_dir` takes from a directory: those in it that are
not hidden. -/
def inCacheDir (path file : Path) : Bool :=
  gFileGetParent file == path && (gFileGetBasename file).toList.head? != some '.'

def thumbCacheDirs (env : CacheEnv) : List (Path → Bool) :=
  ["fail", "large", "normal", "cropped"].map fun dir => inCacheDir (env.home ++ [".thumbnails", dir])

def thumbsCacheFiles (env : CacheEnv) (size : Path → UInt64) (files : Files) : List (CacheItem Path) :=
  (thumbCacheDirs env).flatMap fun dir => readCacheDir dir CacheFile.mtime size files

def hildonThumbnailFactoryCleanCache (env : CacheEnv) (array : PtrArraySort Path) (size : Path → UInt64)
    (maxSize : Int32) (minMtime : Int64) (files : Files) : Files :=
  cleanCache array (thumbsCacheFiles env size files) maxSize minMtime files

/-- The digests are written with 32 digits. -/
structure CacheEnv.Hexadecimal (env : CacheEnv) : Prop where
  md5_length : ∀ s, (env.md5 s).toList.length = 32
  md5_digits : ∀ s, ∀ c ∈ (env.md5 s).toList, c ∈ "0123456789abcdef".toList

def cacheTotal (size : Path → UInt64) (files : Files) : Nat := (files.keys.map fun p => (size p).toNat).sum

/-- Nothing is left that a thumbnail or a failure could be read from. -/
structure Emptied (env : CacheEnv) (files : Files) : Prop where
  thumbs : ∀ (f : OutFormat) t u, files.lookup (f.thumb env t u) = none
  markers : ∀ (f : OutFormat) u, files.lookup (f.marker env u) = none
  needsOut : ∀ (f : OutFormat) now t m u, f.needsOut env files now t m u = ⟨true, false⟩

section
variable {env : CacheEnv} {array : PtrArraySort Path} {size : Path → UInt64} {maxSize : Int32} {minMtime : Int64}
  {files : Files} {f : OutFormat} {t : HildonThumbnailPluginOutType} {u : String}

theorem cacheListing_thumbsCacheFiles (env : CacheEnv) (size : Path → UInt64) (files : Files) :
    CacheListing files (thumbsCacheFiles env size files) := by
  refine cacheListing_readCacheDirs ?_ CacheFile.mtime size files
  have hdistinct : ["fail", "large", "normal", "cropped"].Pairwise (· ≠ ·) := by decide
  refine List.pairwise_map.mpr (hdistinct.imp fun {dir dir'} hne p hp => ?_)
  rw [inCacheDir, Bool.and_eq_true, beq_iff_eq] at hp
  rw [inCacheDir, hp.1, Bool.and_eq_false_iff]
  left
  simpa using hne

theorem digestName_not_hidden (henv : env.Hexadecimal) : (digestName env u f.asPng).toList.head? ≠ some '.' := by
  have hlen := henv.md5_length u
  have hdigits := henv.md5_digits u
  rw [digestName, String.toList_append]
  cases hmd5 : (env.md5 u).toList with
  | nil => simp [hmd5] at hlen
  | cons c rest =>
    have hc := hdigits c (by rw [hmd5]; exact List.mem_cons_self)
    rw [List.cons_append, List.head?_cons, ne_eq, Option.some_inj]
    rintro rfl
    exact absurd hc (by decide)

theorem mem_thumbsCacheFiles (henv : env.Hexadecimal) {file : CacheFile}
    (h : files.lookup (f.thumb env t u) = some file) :
    ⟨f.thumb env t u, file.mtime, size (f.thumb env t u)⟩ ∈ thumbsCacheFiles env size files := by
  refine List.mem_flatMap.mpr ⟨inCacheDir (env.home ++ [".thumbnails", t.dirName]), ?_, ?_⟩
  · cases t <;> simp [thumbCacheDirs, HildonThumbnailPluginOutType.dirName]
  · refine mem_readCacheDir.mpr ⟨?_, file, h, rfl⟩
    have hname : gFileGetBasename (f.thumb env t u) = digestName env u f.asPng := by
      simp [gFileGetBasename, OutFormat.thumb]
    have hparent : gFileGetParent (f.thumb env t u) = env.home ++ [".thumbnails", t.dirName] := by
      simp [gFileGetParent, OutFormat.thumb]
    rw [inCacheDir, hname, hparent, beq_self_eq_true, Bool.true_and, bne_iff_ne]
    exact digestName_not_hidden henv

theorem lookup_clean_marker : (hildonThumbnailFactoryCleanCache env array size maxSize minMtime files).lookup
    (f.marker env u) = files.lookup (f.marker env u) := by
  refine cleanCache_others array fun item hitem hmarker => ?_
  obtain ⟨dir, hdir, hitem⟩ := List.mem_flatMap.mp hitem
  obtain ⟨name, _, rfl⟩ := List.mem_map.mp hdir
  have hin := (mem_readCacheDir.mp hitem).1
  rw [hmarker, inCacheDir, Bool.and_eq_true, beq_iff_eq] at hin
  have hlen := congrArg List.length hin.1
  simp [gFileGetParent, OutFormat.marker] at hlen

theorem totalSize_thumbsCacheFiles_le : totalSize (thumbsCacheFiles env size files) ≤ cacheTotal size files := by
  have hlist := cacheListing_thumbsCacheFiles env size files
  have hsubset : (thumbsCacheFiles env size files).map CacheItem.file ⊆ files.keys := by
    intro p hp
    obtain ⟨item, hitem, rfl⟩ := List.mem_map.mp hp
    exact AList.lookup_isSome.mp (Option.isSome_iff_ne_none.mpr (hlist.there item hitem))
  have hsize : ∀ item ∈ thumbsCacheFiles env size files, item.size = size item.file := by
    intro item hitem
    obtain ⟨dir, _, hitem⟩ := List.mem_flatMap.mp hitem
    obtain ⟨_, _, _, heq⟩ := mem_readCacheDir.mp hitem
    rw [heq]
  obtain ⟨kept, hperm, hsub⟩ := List.subperm_of_subset hlist.nodup hsubset
  calc totalSize (thumbsCacheFiles env size files)
      = (((thumbsCacheFiles env size files).map CacheItem.file).map fun p => (size p).toNat).sum := by
        rw [totalSize, List.map_map]
        exact congrArg List.sum (List.map_congr_left fun item hitem => by rw [hsize item hitem]; rfl)
    _ = (kept.map fun p => (size p).toNat).sum := (hperm.map _).sum_eq.symm
    _ ≤ cacheTotal size files := (hsub.map _).sum_le_sum fun _ _ => Nat.zero_le _

/-- The failure markers lie one directory below the one that is read. -/
theorem cleaned_emptied_iff (env : CacheEnv) (array : PtrArraySort Path) (size : Path → UInt64) (minMtime : Int64)
    (writes : List CacheWrite) (henv : env.Hexadecimal)
    (htotal : cacheTotal size (writes.foldl (CacheWrite.apply env) ∅) < 2 ^ 31) :
    Emptied env
      (hildonThumbnailFactoryCleanCache env array size 0 minMtime (writes.foldl (CacheWrite.apply env) ∅)) ↔
      ∀ (f : OutFormat) u, (writes.foldl (CacheWrite.apply env) ∅).lookup (f.marker env u) = none := by
  generalize writes.foldl (CacheWrite.apply env) ∅ = files at *
  constructor
  · intro h f u
    have hkept : (hildonThumbnailFactoryCleanCache env array size 0 minMtime files).lookup (f.marker env u) =
        files.lookup (f.marker env u) := lookup_clean_marker
    rw [← hkept]
    exact h.markers f u
  · intro h
    have hthumb (f : OutFormat) (t : HildonThumbnailPluginOutType) (u : String) :
        (hildonThumbnailFactoryCleanCache env array size 0 minMtime files).lookup (f.thumb env t u) = none := by
      have hlist := cacheListing_thumbsCacheFiles env size files
      have hlisted : totalSize (thumbsCacheFiles env size files) < 2 ^ 31 :=
        lt_of_le_of_lt totalSize_thumbsCacheFiles_le htotal
      cases hfile : files.lookup (f.thumb env t u) with
      | some file => exact cleanCache_zero array hlist hlisted (mem_thumbsCacheFiles henv hfile)
      | none =>
        have hother : ∀ item ∈ thumbsCacheFiles env size files, item.file ≠ f.thumb env t u := by
          rintro item hitem heq
          exact hlist.there item hitem (heq ▸ hfile)
        exact (cleanCache_others array hother).trans hfile
    have hmarker (f : OutFormat) (u : String) :
        (hildonThumbnailFactoryCleanCache env array size 0 minMtime files).lookup (f.marker env u) = none := by
      rw [lookup_clean_marker]
      exact h f u
    refine ⟨hthumb, hmarker, fun f now t m u => ?_⟩
    rw [OutFormat.needsOut_eq_answer, Png.stamp, Png.stamp, hthumb, hmarker]
    rfl

def oneDigest : CacheEnv where
  home := ["home", "user"]
  md5 := fun _ => "0123456789abcdef0123456789abcdef"

theorem oneDigest_hexadecimal : oneDigest.Hexadecimal where
  md5_length _ := by
    have hlen : "0123456789abcdef0123456789abcdef".toList.length = 32 := by decide
    exact hlen
  md5_digits _ c hc := by
    have hall : "0123456789abcdef0123456789abcdef".toList.all
        (fun c => decide (c ∈ "0123456789abcdef".toList)) = true := by decide
    exact of_decide_eq_true (List.all_eq_true.mp hall c hc)

theorem cleaned_not_emptied :
    ¬ ∀ (env : CacheEnv) (array : PtrArraySort Path) (size : Path → UInt64) (minMtime : Int64)
    (writes : List CacheWrite), env.Hexadecimal → cacheTotal size (writes.foldl (CacheWrite.apply env) ∅) < 2 ^ 31 →
      Emptied env
        (hildonThumbnailFactoryCleanCache env array size 0 minMtime (writes.foldl (CacheWrite.apply env) ∅)) := by
  intro h
  have hh := h oneDigest (insertionSorted Path) (fun _ => 1) 0 [.putError .jpeg 10 5 "file:///a.jpg" none]
    oneDigest_hexadecimal (by decide)
  have hmarker := hh.markers .jpeg "file:///a.jpg"
  rw [lookup_clean_marker] at hmarker
  exact absurd hmarker (by decide)

theorem cleaned_emptied_thumb : Emptied oneDigest (hildonThumbnailFactoryCleanCache oneDigest (insertionSorted Path)
    (fun _ => 1) 0 0
      ([CacheWrite.out .jpeg 10 .cropped 5 "file:///a.jpg" (.ok ())].foldl (CacheWrite.apply oneDigest) ∅)) :=
  (cleaned_emptied_iff oneDigest (insertionSorted Path) (fun _ => 1) 0
    [.out .jpeg 10 .cropped 5 "file:///a.jpg" (.ok ())] oneDigest_hexadecimal (by decide)).mpr
      fun f u => by cases f <;> rfl

end

end HildonThumbnail
