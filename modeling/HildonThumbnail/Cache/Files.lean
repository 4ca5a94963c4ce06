import HildonThumbnail.Lib.KeyTable

/-! Files with their modification times, and the names of the thumbnails of a
URI (`hildon_thumbnail_util_get_thumb_paths`). -/

namespace HildonThumbnail

/-- An absolute path, as its components. -/
abbrev Path := List String

inductive FileContent
  | png (options : List (String × String))
  | jpeg
  | text (message : String)
deriving DecidableEq

structure CacheFile where
  mtime : UInt64
  content : FileContent
deriving DecidableEq

abbrev Files := KeyTable Path CacheFile

def gFileQueryExists (files : Files) (path : Path) : Bool := (files.lookup path).isSome

/-- `g_file_create`, which fails on a file that exists. -/
def gFileCreate (files : Files) (path : Path) (file : CacheFile) : Files :=
  if gFileQueryExists files path then files else files.insert path file

def gRename (files : Files) (old new : Path) : Files :=
  match files.lookup old with
  | none => files
  | some file => (files.erase old).insert new file

def utime (files : Files) (path : Path) (mtime : UInt64) : Files :=
  match files.lookup path with
  | none => files
  | some file => files.insert path { file with mtime := mtime }

def gFileGetParent (path : Path) : Path := path.dropLast

def gFileGetBasename (path : Path) : String := path.getLastD ""

def gFileGetChild (path : Path) (name : String) : Path := path ++ [name]

/-- FAT times have a resolution of 2 seconds. The difference is a `gint64`. -/
def sameTime (fmtime mtime : UInt64) : Bool :=
  let timeDifference := (fmtime - mtime).toInt64
  let timeDifference := if timeDifference < 0 then -timeDifference else timeDifference
  timeDifference < 2

structure CacheEnv where
  home : Path
  md5 : String → String

inductive HildonThumbnailPluginOutType
  | large
  | normal
  | cropped
deriving DecidableEq

def HildonThumbnailPluginOutType.dirName : HildonThumbnailPluginOutType → String
  | .large => "large"
  | .normal => "normal"
  | .cropped => "cropped"

theorem HildonThumbnailPluginOutType.dirName_inj {s t : HildonThumbnailPluginOutType} :
    s.dirName = t.dirName ↔ s = t := by
  cases s <;> cases t <;> decide

structure ThumbPaths where
  large : Path
  normal : Path
  cropped : Path

def ThumbPaths.file (paths : ThumbPaths) : HildonThumbnailPluginOutType → Path
  | .large => paths.large
  | .normal => paths.normal
  | .cropped => paths.cropped

def thumbDir (env : CacheEnv) (type : HildonThumbnailPluginOutType) : Path :=
  env.home ++ [".thumbnails", type.dirName]

def digestName (env : CacheEnv) (uri : String) (asPng : Bool) : String :=
  env.md5 uri ++ if asPng then ".png" else ".jpeg"

/-- The paths in the home directory, without the local copies. -/
def hildonThumbnailUtilGetThumbPaths (env : CacheEnv) (uri : String) (asPng : Bool) : ThumbPaths where
  large := thumbDir env .large ++ [digestName env uri asPng]
  normal := thumbDir env .normal ++ [digestName env uri asPng]
  cropped := thumbDir env .cropped ++ [digestName env uri asPng]

theorem getThumbPaths_file (env : CacheEnv) (uri : String) (asPng : Bool)
    (type : HildonThumbnailPluginOutType) :
    (hildonThumbnailUtilGetThumbPaths env uri asPng).file type =
      env.home ++ [".thumbnails", type.dirName, digestName env uri asPng] := by
  cases type <;> simp [ThumbPaths.file, hildonThumbnailUtilGetThumbPaths, thumbDir]

theorem md5_of_digestName {env : CacheEnv} {u v : String} {asPng : Bool}
    (h : digestName env u asPng = digestName env v asPng) : env.md5 u = env.md5 v := by
  have hh := congrArg String.toList h
  simp only [digestName, String.toList_append] at hh
  exact String.toList_injective (List.append_cancel_right hh)

theorem exists_insert (files : Files) (p q : Path) (file : CacheFile) :
    gFileQueryExists (files.insert p file) q = (decide (q = p) || gFileQueryExists files q) := by
  rw [gFileQueryExists, KeyTable.lookup_insert_eq, gFileQueryExists]
  by_cases h : q = p <;> simp [h]

theorem lookup_utime (files : Files) (path p : Path) (mtime : UInt64) :
    (utime files path mtime).lookup p =
      if p = path then (files.lookup path).map fun f => { f with mtime := mtime } else files.lookup p := by
  rw [utime]
  cases h : files.lookup path with
  | none =>
    by_cases hp : p = path
    · subst hp
      simp [h]
    · simp [hp]
  | some file => simp [KeyTable.lookup_insert_eq]

end HildonThumbnail
