import HildonThumbnail.Thumbs.Flavours
import HildonThumbnail.Thumbnailer.WorkSignals

/-! What `hildon_thumbnail_factory_load_custom` deletes before it queues a URI
again, against the daemon's look for thumbnails; and what is opened where it
finds one (`have_all_cb` and `create_pixbuf_and_callback`). -/

namespace HildonThumbnail

section
variable (build : Build) (env : LocalEnv) (files later : Files) (uri : String) (crop : Bool) (width height : UInt32)

def hitFlavour : HildonThumbnailPluginOutType := if crop then .cropped else if width > 128 then .large else .normal

/-- The local copy by its URI, or else the thumbnail in the home directory by its path. -/
def wantedOpening (asPng : Bool) (t : HildonThumbnailPluginOutType) : Opening :=
  match localCopy env later uri asPng t with
  | some file => ⟨true, .localUri (some file)⟩
  | none => ⟨false, .path ((hildonThumbnailUtilGetThumbPaths env.toCacheEnv uri asPng).file t)⟩

end

section Opened
variable {build : Build} {env : LocalEnv} {files later : Files} {uri : String} {crop : Bool} {width height : UInt32}
  {asPng : Bool} {s t : HildonThumbnailPluginOutType}

theorem wantedOpening_of_isLocal (h : (localCopy env later uri asPng t).isSome = true) :
    wantedOpening env later uri asPng t = ⟨true, .localUri (localFile env uri asPng t)⟩ := by
  obtain ⟨file, hfile⟩ := Option.isSome_iff_exists.mp h
  rw [wantedOpening, hfile, (localCopy_eq_some.mp hfile).1]

theorem wantedOpening_of_not_isLocal (h : (localCopy env later uri asPng t).isSome = false) :
    wantedOpening env later uri asPng t =
      ⟨false, .path ((hildonThumbnailUtilGetThumbPaths env.toCacheEnv uri asPng).file t)⟩ := by
  rw [wantedOpening, Option.isNone_iff_eq_none.mp (Option.isSome_eq_false_iff.mp h)]

theorem localFile_inj {file : Path} (hs : localFile env uri asPng s = some file)
    (ht : localFile env uri asPng t = some file) : s = t := by
  obtain ⟨_, _, _, hs⟩ := localFile_eq hs
  obtain ⟨_, _, _, ht⟩ := localFile_eq ht
  have hdir := (List.append_inj' (hs.symm.trans ht) rfl).2
  simp only [List.cons.injEq, HildonThumbnailPluginOutType.dirName_inj] at hdir
  exact hdir.2.1

/-- A cropped thumbnail is opened right unless another local copy makes its path a URI. -/
theorem haveAllCbOpening_cropped : haveAllCbOpening env later uri true width height asPng =
      wantedOpening env later uri asPng .cropped ↔
    (localCopy env later uri asPng .cropped).isSome = true ∨
      ((localCopy env later uri asPng .large).isSome = false ∧
        (localCopy env later uri asPng .normal).isSome = false) := by
  cases hcropped : (localCopy env later uri asPng .cropped).isSome with
  | true =>
    rw [wantedOpening_of_isLocal hcropped, haveAllCbOpening_eq]
    simp [hcropped]
  | false =>
    rw [wantedOpening_of_not_isLocal hcropped, haveAllCbOpening_eq]
    simp [hcropped]

/-- Without the crop flag the local copy of the normal flavour is named in any case. -/
theorem haveAllCbOpening_uncropped : haveAllCbOpening env later uri false width height asPng =
      wantedOpening env later uri asPng (hitFlavour false width) ↔
    ¬ width > 128 ∧ (localCopy env later uri asPng .normal).isSome = true := by
  have hname : (haveAllCbOpening env later uri false width height asPng).name =
      .localUri (localFile env uri asPng .normal) := by
    rw [haveAllCbOpening_eq, if_neg Bool.false_ne_true]
  cases hhit : (localCopy env later uri asPng (hitFlavour false width)).isSome with
  | false =>
    rw [wantedOpening_of_not_isLocal hhit]
    constructor
    · intro h
      rw [h] at hname
      cases hname
    · rintro ⟨hwidth, hnormal⟩
      rw [hitFlavour, if_neg Bool.false_ne_true, if_neg hwidth, hnormal] at hhit
      cases hhit
  | true =>
    rw [wantedOpening_of_isLocal hhit]
    constructor
    · intro h
      rw [h] at hname
      obtain ⟨file, hfile⟩ := Option.isSome_iff_exists.mp hhit
      have hlarge := (localCopy_eq_some.mp hfile).1
      have hsame : localFile env uri asPng .normal = some file := by
        rw [← hlarge]
        exact (ThumbName.localUri.inj hname).symm
      have hflavour : hitFlavour false width = .normal := localFile_inj hlarge hsame
      refine ⟨?_, hflavour ▸ hhit⟩
      intro hwidth
      rw [hitFlavour, if_neg Bool.false_ne_true, if_pos hwidth] at hflavour
      cases hflavour
    · rintro ⟨hwidth, hnormal⟩
      have hflavour : hitFlavour false width = .normal := by
        rw [hitFlavour, if_neg Bool.false_ne_true, if_neg hwidth]
      rw [hflavour, ← hname]
      simp [haveAllCbOpening_eq, hnormal]

/-- A hit is opened as it was found exactly where one of these holds: a cropped thumbnail has
its local copy or no other flavour has one, or a small one that is not cropped has its local copy. -/
theorem loadCustomStart_opens_iff (build : Build) (env : LocalEnv) (files later : Files) (uri : String)
    (crop : Bool) (width height : UInt32) (recreate : Bool) :
    (∀ asPng, (loadCustomStart build env files uri crop width height recreate).2 = .idle asPng →
      haveAllCbOpening env later uri (cropFlag build crop) width height asPng =
        wantedOpening env later uri asPng (hitFlavour (cropFlag build crop) width)) ↔
    ∀ asPng, (loadCustomStart build env files uri crop width height recreate).2 = .idle asPng →
      if cropFlag build crop = true then
        (localCopy env later uri asPng .cropped).isSome = true ∨
          ((localCopy env later uri asPng .large).isSome = false ∧
            (localCopy env later uri asPng .normal).isSome = false)
      else ¬ width > 128 ∧ (localCopy env later uri asPng .normal).isSome = true := by
  apply forall_congr'
  intro asPng
  apply imp_congr_right
  intro _
  cases cropFlag build crop with
  | true => exact haveAllCbOpening_cropped
  | false => exact haveAllCbOpening_uncropped

/-- A large thumbnail is found, and the name of a local copy that is not there is opened. -/
theorem loadCustomStart_large : ¬ ∀ (build : Build) (env : LocalEnv) (files later : Files) (uri : String)
    (crop : Bool) (width height : UInt32) (recreate asPng : Bool),
    (loadCustomStart build env files uri crop width height recreate).2 = .idle asPng →
      haveAllCbOpening env later uri (cropFlag build crop) width height asPng =
        wantedOpening env later uri asPng (hitFlavour (cropFlag build crop) width) := by
  intro h
  let files := (∅ : Files).insert (OutFormat.png.thumb oneOriginal.toCacheEnv .large "file:///a.jpg") ⟨5, .png []⟩
  have hidle : (loadCustomStart .largeThumbnails oneOriginal files "file:///a.jpg" false 256 256 false).2 =
      .idle true := rfl
  have hopens := h .largeThumbnails oneOriginal files files "file:///a.jpg" false 256 256 false true hidle
  have hwidth := (haveAllCbOpening_uncropped.mp hopens).1
  exact hwidth (by decide)

end Opened

section Recreated
variable (build : Build) (env : LocalEnv) (files : Files) (uri : String) (crop : Bool) (width height : UInt32)

/-- The files that `load_custom` leaves behind where the thumbnail is to be made again. -/
def recreateLeft : Files := (loadCustomStart build env files uri crop width height true).1

/-- What the daemon meets where nothing else touches them. -/
def WorkEnv.recreating (w : WorkEnv) : WorkEnv :=
  let left := recreateLeft build env files uri crop width height
  { w with build := build, cache := env.toCacheEnv, files := fun _ => left, filesAgain := fun _ => left }

/-- The search ends in the format that is unlinked. -/
theorem thumbCheck_recreateLeft (f : OutFormat) (t : HildonThumbnailPluginOutType) (mtime : UInt64) :
    thumbCheck (recreateLeft build env files uri crop width height) (f.thumb env.toCacheEnv t uri) mtime =
      (decide (f.asPng ≠ searchedAsPng env files uri (cropFlag build crop) width height) &&
        thumbCheck files (f.thumb env.toCacheEnv t uri) mtime) := by
  obtain ⟨g, hg⟩ : ∃ g : OutFormat, g.asPng = searchedAsPng env files uri (cropFlag build crop) width height := by
    cases searchedAsPng env files uri (cropFlag build crop) width height with
    | true => exact ⟨.png, rfl⟩
    | false => exact ⟨.jpeg, rfl⟩
  have hformat : f.asPng = g.asPng ↔ f = g := by cases f <;> cases g <;> simp [OutFormat.asPng]
  have hlookup : (recreateLeft build env files uri crop width height).lookup (f.thumb env.toCacheEnv t uri) =
      if f = g then none else files.lookup (f.thumb env.toCacheEnv t uri) := by
    obtain ⟨paths, hpaths⟩ : ∃ paths, hildonThumbnailUtilGetThumbPaths env.toCacheEnv uri g.asPng = paths :=
      ⟨_, rfl⟩
    have hfile (s : HildonThumbnailPluginOutType) :
        f.thumb env.toCacheEnv t uri = paths.file s ↔ f = g ∧ t = s := by
      rw [← hpaths, OutFormat.file_eq, OutFormat.thumb_inj fun _ => rfl]
      simp
    have hlarge : f.thumb env.toCacheEnv t uri = paths.large ↔ f = g ∧ t = .large := hfile .large
    have hnormal : f.thumb env.toCacheEnv t uri = paths.normal ↔ f = g ∧ t = .normal := hfile .normal
    have hcropped : f.thumb env.toCacheEnv t uri = paths.cropped ↔ f = g ∧ t = .cropped := hfile .cropped
    simp only [recreateLeft, loadCustomStart, if_true, gUnlink, KeyTable.lookup_erase_eq, ← hg, hpaths, hlarge,
      hnormal, hcropped]
    by_cases h : f = g
    · cases t <;> simp [h]
    · simp [h]
  rw [thumbCheck, hlookup, ← hg]
  by_cases h : f = g
  · simp [h]
  · simp [h, hformat, thumbCheck]

theorem thumbsChecked_recreateLeft (mtime : UInt64) :
    thumbsChecked build (recreateLeft build env files uri crop width height)
        (hildonThumbnailUtilGetThumbPaths env.toCacheEnv uri false) mtime =
      (searchedAsPng env files uri (cropFlag build crop) width height &&
        thumbsChecked build files (hildonThumbnailUtilGetThumbPaths env.toCacheEnv uri false) mtime) := by
  have hcheck (t : HildonThumbnailPluginOutType) : thumbCheck (recreateLeft build env files uri crop width height)
        ((hildonThumbnailUtilGetThumbPaths env.toCacheEnv uri false).file t) mtime =
      (searchedAsPng env files uri (cropFlag build crop) width height &&
        thumbCheck files ((hildonThumbnailUtilGetThumbPaths env.toCacheEnv uri false).file t) mtime) := by
    have hjpeg := thumbCheck_recreateLeft build env files uri crop width height .jpeg t mtime
    rw [← OutFormat.file_eq (f := .jpeg)] at hjpeg
    simpa [OutFormat.asPng] using hjpeg
  obtain ⟨paths, hpaths⟩ : ∃ paths, hildonThumbnailUtilGetThumbPaths env.toCacheEnv uri false = paths := ⟨_, rfl⟩
  rw [hpaths] at hcheck ⊢
  have hlarge : thumbCheck _ paths.large mtime = _ := hcheck .large
  have hnormal : thumbCheck _ paths.normal mtime = _ := hcheck .normal
  have hcropped : thumbCheck _ paths.cropped mtime = _ := hcheck .cropped
  cases hsearched : searchedAsPng env files uri (cropFlag build crop) width height with
  | false =>
    simp only [hsearched, Bool.false_and] at hlarge hnormal hcropped
    cases build <;> simp [thumbsChecked, hcropped]
  | true =>
    simp only [hsearched, Bool.true_and] at hlarge hnormal hcropped
    cases build <;> simp [thumbsChecked, hlarge, hnormal, hcropped, ThumbPaths.file]

/-- The daemon finds no thumbnail exactly where the JPEG files were unlinked, or where they
are not all there and fresh anyway. -/
theorem hasThumb_recreating_iff (w : WorkEnv) (i : Nat) (mtime : UInt64) :
    hasThumb (w.recreating build env files uri crop width height) i uri mtime = false ↔
      searchedAsPng env files uri (cropFlag build crop) width height = false ∨
        thumbsChecked build files (hildonThumbnailUtilGetThumbPaths env.toCacheEnv uri false) mtime = false := by
  have hsame : hasThumb (w.recreating build env files uri crop width height) i uri mtime =
      thumbsChecked build (recreateLeft build env files uri crop width height)
        (hildonThumbnailUtilGetThumbPaths env.toCacheEnv uri false) mtime := Bool.or_self _
  rw [hsame, thumbsChecked_recreateLeft, Bool.and_eq_false_iff]

end Recreated

def bothFormats : Files :=
  ((∅ : Files).insert (OutFormat.png.thumb oneOriginal.toCacheEnv .cropped "file:///a.jpg") ⟨5, .png []⟩).insert
    (OutFormat.jpeg.thumb oneOriginal.toCacheEnv .cropped "file:///a.jpg") ⟨5, .jpeg⟩

/-- The PNG file goes, and the daemon finds the JPEG file. -/
theorem hasThumb_recreating_bothFormats : ¬ ∀ (build : Build) (env : LocalEnv) (files : Files) (uri : String)
    (crop : Bool) (width height : UInt32) (w : WorkEnv) (i : Nat) (original : Original),
    env.fileInfo uri = some original →
      hasThumb (w.recreating build env files uri crop width height) i uri original.mtime = false := by
  intro h
  have hnone := h .default oneOriginal bothFormats "file:///a.jpg" true 128 128 sampleWorkEnv 0 ⟨"a.jpg", 5⟩ rfl
  have hsome : hasThumb (sampleWorkEnv.recreating .default oneOriginal bothFormats "file:///a.jpg" true 128 128) 0
    "file:///a.jpg" 5 = true := rfl
  exact absurd (hnone.symm.trans hsome) (by decide)

end HildonThumbnail
