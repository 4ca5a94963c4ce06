import HildonThumbnail.Cache.Local
import HildonThumbnail.Thumbnailer.Task

/-! When the client library takes a thumbnail for up to date (`new_enough`,
`hildon_thumbnail_get_uri` and `hildon_thumbnail_is_cached`), against the
daemon's `thumb_check`. -/

namespace HildonThumbnail

section
variable (build : Build) (env : LocalEnv) (files : Files) (uri : String)

/-- The same text in hildon-thumbnail-factory.c and in hildon-thumbnail-obj.c. -/
def newEnough (thumbPath : Path) : Bool :=
  if gFileQueryExists files thumbPath then
    match env.fileInfo uri, files.lookup thumbPath with
    | some info1, some info2 => info1.mtime == info2.mtime
    | _, _ => true
  else false

/-- The file that the URI names. A local copy of the normal flavour is taken for
a path to convert, which gives NULL. -/
def hildonThumbnailGetUri (width height : UInt32) (isCropped : Bool) : Option Path :=
  let paths := hildonThumbnailUtilGetThumbPaths env.toCacheEnv uri false
  if isCropped then some ((localCopy env files uri false .cropped).getD paths.cropped)
  else
    match build with
    | .largeThumbnails =>
      if width ≤ 128 ∨ height ≤ 128 then
        match localCopy env files uri false .normal with
        | some _ => none
        | none => some paths.normal
      else some ((localCopy env files uri false .large).getD paths.large)
    | .default | .normalThumbnails => some ((localCopy env files uri false .large).getD paths.large)

def hildonThumbnailIsCached (width height : UInt32) (isCropped : Bool) : Bool :=
  let file := hildonThumbnailGetUri build env files uri width height isCropped
  if file.any (gFileQueryExists files) then
    match env.fileInfo uri, file.bind files.lookup with
    | some info1, some info2 => info1.mtime == info2.mtime
    | _, _ => true
  else false

end

section Fresh
variable {build : Build} {env : LocalEnv} {files : Files} {uri : String} {p : Path} {o : Original} {a : UInt64}

theorem isCached_eq (width height : UInt32) (isCropped : Bool) :
    hildonThumbnailIsCached build env files uri width height isCropped =
      (hildonThumbnailGetUri build env files uri width height isCropped).any (newEnough env files uri) := by
  rw [hildonThumbnailIsCached]
  cases hildonThumbnailGetUri build env files uri width height isCropped with
  | none => rfl
  | some p => rfl

theorem newEnough_of_stamp (ho : env.fileInfo uri = some o) (ha : Png.stamp files p = some a) :
    newEnough env files uri p = decide (a = o.mtime) := by
  obtain ⟨file, hfile, rfl⟩ := Option.map_eq_some_iff.mp ha
  simp only [newEnough, gFileQueryExists, hfile, ho, Option.isSome_some, if_true]
  rw [Bool.eq_iff_iff, beq_iff_eq, decide_eq_true_eq, eq_comm]

theorem newEnough_of_missing (ha : Png.stamp files p = none) : newEnough env files uri p = false := by
  rw [Png.stamp, Option.map_eq_none_iff] at ha
  simp [newEnough, gFileQueryExists, ha]

/-- Whatever the daemon takes for up to date the client takes for it too. -/
def FreshnessAgrees (build : Build) (env : LocalEnv) (files : Files) (uri : String) (p : Path) : Prop :=
  ∀ o, env.fileInfo uri = some o → thumbCheck files p o.mtime = true →
    newEnough env files uri p = true ∧ ∀ width height isCropped,
      hildonThumbnailGetUri build env files uri width height isCropped = some p →
        hildonThumbnailIsCached build env files uri width height isCropped = true

/-- The daemon allows for the resolution of FAT times, the client does not. -/
theorem freshnessAgrees_iff (build : Build) (env : LocalEnv) (files : Files) (uri : String) (p : Path) :
    FreshnessAgrees build env files uri p ↔ ∀ o a, env.fileInfo uri = some o → Png.stamp files p = some a →
      ¬ (Png.OneApart a o.mtime ∨ Png.Aliased a o.mtime) := by
  constructor
  · intro h o a ho ha happart
    have hcheck : thumbCheck files p o.mtime = true :=
      thumbCheck_iff.mpr ⟨a, ha, Png.sameTime_cases.mpr (.inr happart)⟩
    have hnew := (h o ho hcheck).1
    rw [newEnough_of_stamp ho ha, decide_eq_true_eq] at hnew
    subst hnew
    rcases happart with h | h
    · rcases h with h | h <;> omega
    · rcases h with h | h | h | h <;> omega
  · intro h o ho hcheck
    obtain ⟨a, ha, hsame⟩ := thumbCheck_iff.mp hcheck
    have heq : a = o.mtime := (Png.sameTime_cases.mp hsame).resolve_right (h o a ho ha)
    have hnew : newEnough env files uri p = true := by rw [newEnough_of_stamp ho ha, heq, decide_eq_true rfl]
    refine ⟨hnew, fun width height isCropped hp => ?_⟩
    rw [isCached_eq, hp]
    exact hnew

def oneOriginal : LocalEnv where
  home := ["home", "user"]
  md5 := id
  fileInfo := fun uri => if uri = "file:///a.jpg" then some ⟨"a.jpg", 5⟩ else none
  parent := fun _ => some []

theorem freshness_one_second : ¬ ∀ (build : Build) (env : LocalEnv) (files : Files) (uri : String) (p : Path),
    FreshnessAgrees build env files uri p := by
  intro h
  let thumb := OutFormat.jpeg.thumb oneOriginal.toCacheEnv .cropped "file:///a.jpg"
  let files := (∅ : Files).insert thumb ⟨4, .jpeg⟩
  have hstamp : Png.stamp files thumb = some 4 := rfl
  have hcheck : thumbCheck files thumb 5 = true :=
    thumbCheck_iff.mpr ⟨4, hstamp, Png.sameTime_cases.mpr (.inr (.inl (.inl rfl)))⟩
  have hnew := (h .default oneOriginal files "file:///a.jpg" thumb ⟨"a.jpg", 5⟩ rfl hcheck).1
  rw [newEnough_of_stamp (o := ⟨"a.jpg", 5⟩) rfl hstamp] at hnew
  exact absurd hnew (by decide)

end Fresh

end HildonThumbnail
