import HildonThumbnail.Thumbs.Cached

/-! Whether a request is served from the cache, and which file is then opened
for it (`hildon_thumbnail_factory_request_generic` and
`create_pixbuf_and_callback` in thumbs/hildon-thumbnail-obj.c). -/

namespace HildonThumbnail

def checker : Build → Nat
  | .largeThumbnails => 0
  | .normalThumbnails => 1
  | .default => 2

/-- The flavours by their place in the arrays of paths, from CHECKER on. -/
def checkedFlavours (build : Build) : List HildonThumbnailPluginOutType :=
  [.large, .normal, .cropped].drop (checker build)

/-- A request as `request_generic` keeps it: only two builds look at the flag. -/
structure ThumbRequest where
  uri : String
  width : UInt32
  height : UInt32
  cropped : Bool

def requestGeneric (build : Build) (uri : String) (width height : UInt32) (cropped : Bool) : ThumbRequest where
  uri := uri
  width := width
  height := height
  cropped :=
    match build with
    | .default => true
    | .normalThumbnails | .largeThumbnails => cropped

section
variable (build : Build) (env : LocalEnv) (onDisk : String → Bool) (files : Files)

/-- One round over the flavours. `onDisk` says whether the URIs of local copies
have file names. -/
def haveAll (test : Path → Bool) (uri : String) (asPng : Bool) : Bool :=
  (checkedFlavours build).all fun t =>
    test ((hildonThumbnailUtilGetThumbPaths env.toCacheEnv uri asPng).file t) ||
      (onDisk uri && (localCopy env files uri asPng t).isSome)

def servedFromCache (uri : String) : Bool :=
  haveAll build env onDisk files (newEnough env files uri) uri true ||
    haveAll build env onDisk files (newEnough env files uri) uri false

def ThumbRequest.flavour (r : ThumbRequest) : HildonThumbnailPluginOutType :=
  if r.cropped then .cropped else if r.width > 128 ∨ r.height > 128 then .normal else .large

/-- The file that `create_pixbuf_and_callback` opens: the first round looks for
the PNG files, and the paths are those of the last round. -/
def openedFile (r : ThumbRequest) : Path :=
  let asPng := haveAll build env onDisk files (gFileQueryExists files) r.uri true
  (localCopy env files r.uri asPng r.flavour).getD
    ((hildonThumbnailUtilGetThumbPaths env.toCacheEnv r.uri asPng).file r.flavour)

end

section Opened
variable {build : Build} {env : LocalEnv} {onDisk : String → Bool} {files : Files} {uri : String} {o : Original}
  {asPng : Bool}

def NoLocalCopy (env : LocalEnv) (files : Files) (uri : String) : Prop :=
  ∀ asPng t, localCopy env files uri asPng t = none

def Carries (env : LocalEnv) (files : Files) (f : OutFormat) (uri : String) (m : UInt64)
    (t : HildonThumbnailPluginOutType) : Prop :=
  Png.stamp files (f.thumb env.toCacheEnv t uri) = some m

instance (f : OutFormat) (m : UInt64) (t : HildonThumbnailPluginOutType) :
    Decidable (Carries env files f uri m t) :=
  inferInstanceAs (Decidable (_ = _))

theorem haveAll_iff (hlocal : NoLocalCopy env files uri) (test : Path → Bool) (f : OutFormat) :
    haveAll build env onDisk files test uri f.asPng = true ↔
      ∀ t ∈ checkedFlavours build, test (f.thumb env.toCacheEnv t uri) = true := by
  have hnone (t : HildonThumbnailPluginOutType) := hlocal f.asPng t
  simp [haveAll, hnone, OutFormat.file_eq]

theorem newEnough_iff (ho : env.fileInfo uri = some o) (f : OutFormat) (t : HildonThumbnailPluginOutType) :
    newEnough env files uri (f.thumb env.toCacheEnv t uri) = true ↔ Carries env files f uri o.mtime t := by
  rw [Carries]
  cases ha : Png.stamp files (f.thumb env.toCacheEnv t uri) with
  | none => simp [newEnough_of_missing ha]
  | some a => simp [newEnough_of_stamp ho ha]

theorem servedFromCache_iff (ho : env.fileInfo uri = some o) (hlocal : NoLocalCopy env files uri) :
    servedFromCache build env onDisk files uri = true ↔
      (∀ t ∈ checkedFlavours build, Carries env files .png uri o.mtime t) ∨
        ∀ t ∈ checkedFlavours build, Carries env files .jpeg uri o.mtime t := by
  rw [servedFromCache, Bool.or_eq_true]
  have hround (f : OutFormat) : haveAll build env onDisk files (newEnough env files uri) uri f.asPng = true ↔ _ :=
    haveAll_iff hlocal (newEnough env files uri) f
  simp only [newEnough_iff ho] at hround
  exact or_congr (hround .png) (hround .jpeg)

theorem exists_iff_stamp {p : Path} : gFileQueryExists files p = true ↔ ∃ a, Png.stamp files p = some a := by
  rw [gFileQueryExists, Png.stamp, Option.isSome_iff_exists]
  simp only [Option.map_eq_some_iff]
  constructor
  · rintro ⟨file, hfile⟩
    exact ⟨_, file, hfile, rfl⟩
  · rintro ⟨_, file, hfile, _⟩
    exact ⟨file, hfile⟩

theorem openedFile_eq (hlocal : NoLocalCopy env files uri) (width height : UInt32) (cropped : Bool) :
    let r := requestGeneric build uri width height cropped
    openedFile build env onDisk files r =
      if ∀ t ∈ checkedFlavours build, gFileQueryExists files (OutFormat.png.thumb env.toCacheEnv t uri) = true then
        OutFormat.png.thumb env.toCacheEnv r.flavour uri
      else OutFormat.jpeg.thumb env.toCacheEnv r.flavour uri := by
  intro r
  have hround : haveAll build env onDisk files (gFileQueryExists files) uri true = true ↔ _ :=
    haveAll_iff hlocal (gFileQueryExists files) .png
  have hfile (f : OutFormat) : (hildonThumbnailUtilGetThumbPaths env.toCacheEnv uri f.asPng).file r.flavour =
      f.thumb env.toCacheEnv r.flavour uri := OutFormat.file_eq
  rw [openedFile, show r.uri = uri from rfl, hlocal, Option.getD_none]
  split
  · next hall =>
    rw [show haveAll build env onDisk files (gFileQueryExists files) uri true = true from hround.mpr hall]
    exact hfile .png
  · next hall =>
    rw [show haveAll build env onDisk files (gFileQueryExists files) uri true = false from
      Bool.eq_false_iff.mpr fun h => hall (hround.mp h)]
    exact hfile .jpeg

/-- Serving goes by the times and opening by what exists, PNG files first; and
the flavour opened need not be one of those looked at. -/
theorem opened_carries_iff (build : Build) (env : LocalEnv) (onDisk : String → Bool) (files : Files) (uri : String)
    (o : Original) (width height : UInt32) (cropped : Bool) (ho : env.fileInfo uri = some o)
    (hlocal : NoLocalCopy env files uri)
    (hanswered : servedFromCache build env onDisk files uri = true ∨
      ∀ t ∈ checkedFlavours build, Carries env files .jpeg uri o.mtime t) :
    let r := requestGeneric build uri width height cropped
    Png.stamp files (openedFile build env onDisk files r) = some o.mtime ↔
      if ∀ t ∈ checkedFlavours build, gFileQueryExists files (OutFormat.png.thumb env.toCacheEnv t uri) = true then
        Carries env files .png uri o.mtime r.flavour
      else r.flavour ∈ checkedFlavours build ∨ Carries env files .jpeg uri o.mtime r.flavour := by
  intro r
  rw [openedFile_eq hlocal]
  split
  · exact Iff.rfl
  · next hpng =>
    have hjpeg : ∀ t ∈ checkedFlavours build, Carries env files .jpeg uri o.mtime t := by
      rcases hanswered with h | h
      · refine ((servedFromCache_iff ho hlocal).mp h).resolve_left fun hall => hpng fun t ht => ?_
        exact exists_iff_stamp.mpr ⟨_, hall t ht⟩
      · exact h
    constructor
    · exact .inr
    · rintro (h | h)
      · exact hjpeg _ h
      · exact h

def freshJpeg : Files :=
  (∅ : Files).insert (OutFormat.jpeg.thumb oneOriginal.toCacheEnv .cropped "file:///a.jpg") ⟨5, .jpeg⟩

def stalePng : Files :=
  freshJpeg.insert (OutFormat.png.thumb oneOriginal.toCacheEnv .cropped "file:///a.jpg") ⟨3, .png []⟩

theorem opened_stale : ¬ ∀ (build : Build) (env : LocalEnv) (onDisk : String → Bool) (files : Files) (uri : String)
    (o : Original) (width height : UInt32) (cropped : Bool), env.fileInfo uri = some o → NoLocalCopy env files uri →
    (servedFromCache build env onDisk files uri = true ∨
      ∀ t ∈ checkedFlavours build, Carries env files .jpeg uri o.mtime t) →
    Png.stamp files (openedFile build env onDisk files (requestGeneric build uri width height cropped)) =
      some o.mtime := by
  intro h
  have hlocal : NoLocalCopy oneOriginal stalePng "file:///a.jpg" := by
    rintro (_ | _) (_ | _ | _) <;> rfl
  have hh :=
    h .default oneOriginal (fun _ => true) stalePng "file:///a.jpg" ⟨"a.jpg", 5⟩ 124 124 true rfl hlocal (.inl rfl)
  exact absurd hh (by decide)

theorem opened_carries_freshJpeg :
    Png.stamp freshJpeg (openedFile .default oneOriginal (fun _ => true) freshJpeg
      (requestGeneric .default "file:///a.jpg" 124 124 true)) = some 5 := by
  have hlocal : NoLocalCopy oneOriginal freshJpeg "file:///a.jpg" := by
    rintro (_ | _) (_ | _ | _) <;> rfl
  exact (opened_carries_iff .default oneOriginal (fun _ => true) freshJpeg "file:///a.jpg"
    ⟨"a.jpg", 5⟩ 124 124 true rfl
    hlocal (.inl rfl)).mpr (by decide)

end Opened

end HildonThumbnail
