import HildonThumbnail.OutPlugin.Jpeg

/-! The thumbnails of a URI that is moved, copied or deleted
(`thumbnailer_move`, `thumbnailer_copy` and `thumbnailer_delete`). -/

namespace HildonThumbnail

/-- `g_file_copy` with the flags of `thumbnailer_copy`; its errors are ignored. -/
def gFileCopy (files : Files) (source destination : Path) : Files :=
  match files.lookup source with
  | none => files
  | some file => files.insert destination file

section
variable (env : CacheEnv)

/-- The two rounds for every URI, the first of which goes by the PNG names. -/
def eachFormat (round : Files → Bool → Files) (files : Files) : Files := [true, false].foldl round files

/-- Moving and copying differ in the operation alone. -/
def pairThumbs (op : Files → Path → Path → Files) (fromUri toUri : String) (files : Files) (asPng : Bool) : Files :=
  let source := hildonThumbnailUtilGetThumbPaths env fromUri asPng
  let target := hildonThumbnailUtilGetThumbPaths env toUri asPng
  let files := op files source.large target.large
  let files := op files source.normal target.normal
  op files source.cropped target.cropped

def eachPair (op : Files → Path → Path → Files) (fromUrls toUrls : List String) (files : Files) : Files :=
  (fromUrls.zip toUrls).foldl (fun files pair => eachFormat (pairThumbs env op pair.1 pair.2) files) files

def deleteThumbs (uri : String) (files : Files) (asPng : Bool) : Files :=
  let thumbs := hildonThumbnailUtilGetThumbPaths env uri asPng
  let files := files.erase thumbs.large
  let files := files.erase thumbs.normal
  files.erase thumbs.cropped

def thumbnailerMove (fromUrls toUrls : List String) (files : Files) : Files :=
  eachPair env gRename fromUrls toUrls files

def thumbnailerCopy (fromUrls toUrls : List String) (files : Files) : Files :=
  eachPair env gFileCopy fromUrls toUrls files

def thumbnailerDelete (urls : List String) (files : Files) : Files :=
  urls.foldl (fun files uri => eachFormat (deleteThumbs env uri) files) files

end

section Exists
variable {files : Files} {a b p : Path}

theorem exists_gRename (h : p ≠ a) (h' : p ≠ b) :
    gFileQueryExists (gRename files a b) p = gFileQueryExists files p := by
  rw [gRename]
  split
  · rfl
  · rw [exists_insert, decide_eq_false h', Bool.false_or, gFileQueryExists, AList.lookup_erase_ne h,
      gFileQueryExists]

theorem gRename_missing (h : gFileQueryExists files a = false) : gRename files a b = files := by
  rw [gFileQueryExists, Option.isSome_eq_false_iff, Option.isNone_iff_eq_none] at h
  rw [gRename, h]

theorem exists_gRename_self : gFileQueryExists (gRename files a a) p = gFileQueryExists files p := by
  rw [gRename]
  split
  · rfl
  · next file hfile =>
    simp only [gFileQueryExists, KeyTable.lookup_insert_eq, KeyTable.lookup_erase_eq]
    by_cases hp : p = a
    · subst hp
      simp [hfile]
    · simp [hp]

theorem exists_gFileCopy : gFileQueryExists (gFileCopy files a b) p =
    (gFileQueryExists files p || (decide (p = b) && gFileQueryExists files a)) := by
  rw [gFileCopy]
  split
  · next h => simp [gFileQueryExists, h]
  · next h =>
    have hexists : gFileQueryExists files a = true := by
      rw [gFileQueryExists, h]
      rfl
    rw [exists_insert, hexists, Bool.and_true, Bool.or_comm]

theorem exists_erase : gFileQueryExists (files.erase a) p = (decide (p ≠ a) && gFileQueryExists files p) := by
  simp only [gFileQueryExists, KeyTable.lookup_erase_eq]
  by_cases hp : p = a <;> simp [hp]

end Exists

end HildonThumbnail
