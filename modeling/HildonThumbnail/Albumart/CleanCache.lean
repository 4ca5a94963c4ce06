import HildonThumbnail.Albumart.Confined
import HildonThumbnail.Thumbs.CleanCache

/-! The cleaner of the album art (`hildon_albumart_factory_clean_cache`) against the
paths that the album art is written to, and the eviction rule of both cleaners. -/

namespace HildonThumbnail

/-- The files by their names, each with its modification time. No name is a link
to another. -/
abbrev ArtFiles := KeyTable String UInt64

def gPathGetBasename (fileName : String) : String := String.ofList (fileName.toList.rtakeWhile (· ≠ '/'))

def inArtDir (path file : String) : Bool :=
  gPathGetDirname file == path && (gPathGetBasename file).toList.head? != some '.'

def albumArtDir (home : String) : String := gBuildFilename home ".album_art"

def artsCacheFiles (home : String) (size : String → UInt64) (files : ArtFiles) : List (CacheItem String) :=
  readCacheDir (inArtDir (albumArtDir home)) id size files

def hildonAlbumartFactoryCleanCache (home : String) (array : PtrArraySort String) (size : String → UInt64)
    (maxSize : Int32) (minMtime : Int64) (files : ArtFiles) : ArtFiles :=
  cleanCache array (artsCacheFiles home size files) maxSize minMtime files

/-- `g_file_test` of a NULL is FALSE. -/
def hildonAlbumartIsCached (env : AlbumartEnv) (files : ArtFiles)
    (artistOrTitle album kind : Option String) : Bool :=
  (hildonThumbnailUtilGetAlbumartPath env artistOrTitle album kind).any fun path => (files.lookup path).isSome

def NothingCached (env : AlbumartEnv) (files : ArtFiles) : Prop :=
  ∀ x : Art, '/' ∉ x.kindName.toList → hildonAlbumartIsCached env files x.artist x.album x.kind = false

section
variable {env : AlbumartEnv} {home : String} {array : PtrArraySort String} {size : String → UInt64}
    {maxSize : Int32}
  {minMtime : Int64} {files : ArtFiles} {x : Art}

theorem cacheListing_artsCacheFiles (home : String) (size : String → UInt64) (files : ArtFiles) :
    CacheListing files (artsCacheFiles home size files) := by
  have hlist := cacheListing_readCacheDirs (List.pairwise_singleton _ (inArtDir (albumArtDir home))) id size files
  rwa [List.flatMap_singleton] at hlist

theorem albumArtDir_ne_mediaArtDir : albumArtDir home ≠ mediaArtDir env := by
  intro h
  have hlast := congrArg (fun s => s.toList.reverse.take 4) h
  simp [albumArtDir, mediaArtDir, gBuildFilename] at hlast

/-- A kind without a separator puts the file into the media-art directory. -/
theorem lookup_clean_art (henv : env.Hexadecimal) (hkind : '/' ∉ x.kindName.toList) {p : String}
    (hp : x.path env = some p) :
    (hildonAlbumartFactoryCleanCache home array size maxSize minMtime files).lookup p = files.lookup p := by
  have hgiven : x.Given := by
    intro hnull
    rw [Art.path, hildonThumbnailUtilGetAlbumartPath, if_pos hnull] at hp
    cases hp
  have hstem : '/' ∉ x.stem := fun h => hkind ((List.dropWhile_suffix _).subset h)
  have hdir : gPathGetDirname p = mediaArtDir env := by
    have hconfined := (Art.confined_iff henv hgiven).mpr hstem
    rw [Art.Confined, hp] at hconfined
    exact Option.some.inj hconfined
  refine cleanCache_others array fun item hitem hfile => ?_
  have hin := (mem_readCacheDir.mp hitem).1
  rw [hfile, inArtDir, Bool.and_eq_true, beq_iff_eq, hdir] at hin
  exact albumArtDir_ne_mediaArtDir hin.1.symm

theorem isCached_clean (henv : env.Hexadecimal) (hkind : '/' ∉ x.kindName.toList) :
    hildonAlbumartIsCached env (hildonAlbumartFactoryCleanCache home array size maxSize minMtime files)
      x.artist x.album
        x.kind = hildonAlbumartIsCached env files x.artist x.album x.kind := by
  rw [hildonAlbumartIsCached, hildonAlbumartIsCached]
  change (x.path env).any _ = (x.path env).any _
  cases hp : x.path env with
  | none => rfl
  | some p => rw [Option.any_some, Option.any_some, lookup_clean_art henv hkind hp]

/-- The cleaner reads another directory than the one that the art is in. -/
theorem artCleaned_notCached_iff (env : AlbumartEnv) (home : String) (array : PtrArraySort String)
    (size : String → UInt64) (minMtime : Int64) (files : ArtFiles) (henv : env.Hexadecimal) :
    NothingCached env (hildonAlbumartFactoryCleanCache home array size 0 minMtime files) ↔
      ∀ x : Art, '/' ∉ x.kindName.toList → ∀ p ∈ files, x.path env ≠ some p := by
  refine forall_congr' fun x => forall_congr' fun hkind => ?_
  rw [isCached_clean henv hkind, hildonAlbumartIsCached]
  change (x.path env).any _ = false ↔ _
  cases hp : x.path env with
  | none => simp
  | some p =>
    rw [Option.any_some, ← Bool.not_eq_true, AList.lookup_isSome]
    constructor
    · intro h q hq heq
      rw [Option.some.inj heq] at h
      exact h hq
    · intro h hmem
      exact h p hmem rfl

def artTotal (size : String → UInt64) (files : ArtFiles) : Nat := (files.keys.map fun p => (size p).toNat).sum

theorem artCleaned_still_cached : ¬ ∀ (env : AlbumartEnv) (home : String) (array : PtrArraySort String)
    (size : String → UInt64) (minMtime : Int64) (files : ArtFiles), env.Hexadecimal →
      (∀ p ∈ files, ∃ x : Art, x.path env = some p) → artTotal size files < 2 ^ 31 →
        NothingCached env (hildonAlbumartFactoryCleanCache home array size 0 minMtime files) := by
  intro h
  have hgiven : (samePlace none).Given := fun hh => nomatch hh.1
  obtain ⟨path, hpath⟩ : ∃ path, (samePlace none).path sampleAlbumartEnv = some path := ⟨_, Art.path_eq hgiven⟩
  have hfiles : ∀ p ∈ (∅ : ArtFiles).insert path 5, ∃ x : Art, x.path sampleAlbumartEnv = some p := by
    intro p hp
    obtain rfl : p = path := List.mem_singleton.mp hp
    exact ⟨_, hpath⟩
  have hh := h sampleAlbumartEnv "/home/user" (insertionSorted String) (fun _ => 1) 0 ((∅ : ArtFiles).insert path 5)
    sampleAlbumartEnv_hexadecimal hfiles (by simp [artTotal]) (samePlace none) (by decide)
  rw [isCached_clean sampleAlbumartEnv_hexadecimal (by decide), hildonAlbumartIsCached] at hh
  change ((samePlace none).path sampleAlbumartEnv).any _ = false at hh
  rw [hpath, Option.any_some, AList.lookup_insert] at hh
  cases hh

def artElsewhere : String := ((samePlace (some "../x")).path sampleAlbumartEnv).getD ""

theorem artCleaned_elsewhere : NothingCached sampleAlbumartEnv (hildonAlbumartFactoryCleanCache "/home/user"
    (insertionSorted String) (fun _ => 1) 0 0 ((∅ : ArtFiles).insert artElsewhere 5)) := by
  refine (artCleaned_notCached_iff sampleAlbumartEnv "/home/user" (insertionSorted String) (fun _ => 1) 0
    ((∅ : ArtFiles).insert artElsewhere 5) sampleAlbumartEnv_hexadecimal).mpr fun x hkind p hp hpath => ?_
  obtain rfl : p = artElsewhere := List.mem_singleton.mp hp
  have hgiven : (samePlace (some "../x")).Given := fun hh => nomatch hh.1
  have helsewhere : (samePlace (some "../x")).path sampleAlbumartEnv = some artElsewhere := by
    rw [artElsewhere, Art.path_eq hgiven, Option.getD_some]
  have hstem : (samePlace (some "../x")).stem = x.stem :=
    (albumartPath_inj sampleAlbumartEnv_documented hgiven (helsewhere.trans hpath.symm)).2.2
  have hslash : '/' ∈ x.stem := hstem ▸ (by decide : '/' ∈ (samePlace (some "../x")).stem)
  exact hkind ((List.dropWhile_suffix _).subset hslash)

theorem cleanCaches_evict_iff (maxSize : Int32) (minMtime : Int64) (hmax : 0 ≤ maxSize) (hmin : 0 ≤ minMtime)
    (env : CacheEnv) (array : PtrArraySort Path) (size : Path → UInt64) (files : Files)
    (home : String) (artArray : PtrArraySort String) (artSize : String → UInt64) (artFiles : ArtFiles) :
    (Evicts maxSize minMtime (array.sort (thumbsCacheFiles env size files)) files
        (hildonThumbnailFactoryCleanCache env array size maxSize minMtime files) ↔
      TotalsKept maxSize minMtime (array.sort (thumbsCacheFiles env size files))) ∧
    (Evicts maxSize minMtime (artArray.sort (artsCacheFiles home artSize artFiles)) artFiles
        (hildonAlbumartFactoryCleanCache home artArray artSize maxSize minMtime artFiles) ↔
      TotalsKept maxSize minMtime (artArray.sort (artsCacheFiles home artSize artFiles))) :=
  ⟨cleanCache_evicts_iff array (cacheListing_thumbsCacheFiles env size files) hmax hmin,
    cleanCache_evicts_iff artArray (cacheListing_artsCacheFiles home artSize artFiles) hmax hmin⟩

def oneThumb : Files := (∅ : Files).insert (OutFormat.jpeg.thumb oneDigest .cropped "file:///a.jpg") ⟨5, .jpeg⟩

theorem sorted_oneThumb (size : Path → UInt64) :
    (insertionSorted Path).sort (thumbsCacheFiles oneDigest size oneThumb) =
      [⟨OutFormat.jpeg.thumb oneDigest .cropped "file:///a.jpg", 5,
        size (OutFormat.jpeg.thumb oneDigest .cropped "file:///a.jpg")⟩] :=
  rfl

theorem cleanCaches_large_file :
    ¬ ∀ (maxSize : Int32) (minMtime : Int64) (env : CacheEnv) (array : PtrArraySort Path)
    (size : Path → UInt64) (files : Files) (home : String) (artArray : PtrArraySort String)
      (artSize : String → UInt64)
    (artFiles : ArtFiles), 0 ≤ maxSize → 0 ≤ minMtime →
      Evicts maxSize minMtime (array.sort (thumbsCacheFiles env size files)) files
        (hildonThumbnailFactoryCleanCache env array size maxSize minMtime files) ∧
      Evicts maxSize minMtime (artArray.sort (artsCacheFiles home artSize artFiles)) artFiles
        (hildonAlbumartFactoryCleanCache home artArray artSize maxSize minMtime artFiles) := by
  intro h
  have hh := (h 1000 0 oneDigest (insertionSorted Path) (fun _ => 0x80000000) oneThumb "/home/user"
    (insertionSorted String) (fun _ => 0) ∅ (by decide) (by decide)).1
  have hkept := (cleanCache_evicts_iff _ (cacheListing_thumbsCacheFiles _ _ _) (by decide) (by decide)).mp hh
  have hlost := (hkept [] _ [] (sorted_oneThumb _) (by decide) (by decide)).2
  exact absurd hlost (by decide)

theorem cleanCaches_small_file :
    Evicts 1000 0 ((insertionSorted Path).sort (thumbsCacheFiles oneDigest (fun _ => 5000) oneThumb)) oneThumb
      (hildonThumbnailFactoryCleanCache oneDigest (insertionSorted Path) (fun _ => 5000) 1000 0 oneThumb) := by
  refine (cleanCaches_evict_iff 1000 0 (by decide) (by decide) oneDigest (insertionSorted Path)
    (fun _ => 5000) oneThumb
    "/home/user" (insertionSorted String) (fun _ => 0) ∅).1.mpr fun before f after hsplit _ _ => ?_
  rw [sorted_oneThumb] at hsplit
  cases before with
  | nil =>
    obtain ⟨rfl, rfl⟩ := List.cons.inj hsplit
    decide
  | cons g before => simp at hsplit

end

end HildonThumbnail
