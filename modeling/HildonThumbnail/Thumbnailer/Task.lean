import HildonThumbnail.OutPlugin.PngStamps
import HildonThumbnail.Thumbnailer.Plugins

/-! The tasks of the thumbnailer, and how its worker sorts the URLs of a task
into groups (the first loop of `do_the_work` in daemon/thumbnailer.c). -/

namespace HildonThumbnail

/-- `unqueued` is set whenever `dead` is. -/
structure WorkTask where
  urls : List String
  mimeTypes : Option (List String)
  num : UInt32
  unqueued : Bool
  dead : Bool
  unqueued_of_dead : dead = true → unqueued = true

def WorkTask.new (urls : List String) (mimeTypes : Option (List String)) (num : UInt32) : WorkTask :=
  ⟨urls, mimeTypes, num, false, false, id⟩

theorem dead_of_queued {task : WorkTask} (h : task.unqueued = false) : task.dead = false := by
  cases hd : task.dead with
  | false => rfl
  | true => exact absurd (task.unqueued_of_dead hd) (by simp [h])

inductive Signal
  | started (num : UInt32)
  | ready (uris : List String)
  | error (num : UInt32) (uris : List String) (code : Int) (message : String)
  | finished (num : UInt32)
deriving DecidableEq

def Signal.uris : Signal → List String
  | .started _ => []
  | .ready uris => uris
  | .error _ uris _ _ => uris
  | .finished _ => []

inductive Build
  | default
  | normalThumbnails
  | largeThumbnails

structure GFileInfo where
  contentType : Option String
  mtime : UInt64

/-- What a specialised thumbnailer answered before the wait was over. -/
structure SpecializedInfo where
  hadCallback : Bool
  errorMsg : Option String
  errorCode : Int

structure PluginCreate where
  failedUris : List String
  error : Option String

/-- What the worker of one task meets. The file information and the files are
those found for the URL of a position, the files looked at twice; the handlers
and plugins are those at the time a group is dealt with. -/
structure WorkEnv where
  build : Build
  cache : CacheEnv
  fileInfo : Nat → Except String GFileInfo
  files : Nat → Files
  filesAgain : Nat → Files
  schemeOrder : KeyTable.Order String
  mimeOrder : String → KeyTable.Order String
  manager : String → String → ThumbnailManager
  plugins : String → String → PluginTable
  specialized : String → String → DBusGProxy → Nat → SpecializedInfo
  create : GModule → List String → String → PluginCreate

structure FileInfos where
  mimeType : Option String
  mtime : UInt64
  error : Option String

def getSomeFileInfos (info : Except String GFileInfo) (mimeHint : Option String) : FileInfos :=
  match info with
  | .error message => ⟨none, 0, some message⟩
  | .ok info =>
    match info.contentType with
    | some contentType => ⟨some contentType, info.mtime, none⟩
    | none => ⟨some (mimeHint.getD "unknown/unknown"), info.mtime, none⟩

def thumbCheck (files : Files) (filename : Path) (mtime : UInt64) : Bool :=
  match files.lookup filename with
  | none => false
  | some info => sameTime info.mtime mtime

theorem thumbCheck_iff {files : Files} {p : Path} {m : UInt64} :
    thumbCheck files p m = true ↔ ∃ a, Png.stamp files p = some a ∧ sameTime a m = true := by
  rw [thumbCheck]
  cases h : files.lookup p with
  | none => simp [Png.stamp, h]
  | some file => simp [Png.stamp, h]

def thumbsChecked (build : Build) (files : Files) (paths : ThumbPaths) (mtime : UInt64) : Bool :=
  match build with
  | .largeThumbnails =>
    thumbCheck files paths.large mtime && thumbCheck files paths.normal mtime &&
      thumbCheck files paths.cropped mtime
  | .normalThumbnails => thumbCheck files paths.normal mtime && thumbCheck files paths.cropped mtime
  | .default => thumbCheck files paths.cropped mtime

/-- Both looks are at the JPEG names: each passes FALSE for `as_png`. -/
def hasThumb (env : WorkEnv) (i : Nat) (url : String) (mtime : UInt64) : Bool :=
  thumbsChecked env.build (env.files i) (hildonThumbnailUtilGetThumbPaths env.cache url false) mtime ||
    thumbsChecked env.build (env.filesAgain i) (hildonThumbnailUtilGetThumbPaths env.cache url false) mtime

/-- The scheme of a URL and the URI to group; a URL without ':' is a path. -/
def splitScheme (url : String) : String × String :=
  if ':' ∈ url.toList then (String.ofList (url.toList.takeWhile (· ≠ ':')), url)
  else ("file", "file://" ++ url)

abbrev Schemes := KeyTable String (KeyTable String (List String))

def groupUrl (schemes : Schemes) (uriScheme mimeType uri : String) : Schemes :=
  match schemes.lookup uriScheme with
  | none => schemes.insert uriScheme ((∅ : KeyTable String (List String)).insert mimeType [uri])
  | some hash =>
    let urlsForMime := (hash.lookup mimeType).getD []
    schemes.insert uriScheme (hash.insert mimeType (uri :: urlsForMime))

structure SortedUrls where
  schemes : Schemes
  thumbItems : List String
  signals : List Signal

/-- The hint of a position; the bound lets the terminating NULL through. -/
def mimeHint (task : WorkTask) (i : Nat) : Option String :=
  match task.mimeTypes with
  | none => none
  | some mimeTypes => if i ≤ mimeTypes.length then mimeTypes[i]? else none

def sortUrl (env : WorkEnv) (task : WorkTask) (s : SortedUrls) (item : String × Nat) : SortedUrls :=
  let (url, i) := item
  let infos := getSomeFileInfos (env.fileInfo i) (mimeHint task i)
  let hasThumb := hasThumb env i url infos.mtime
  match infos.error with
  | some message => { s with signals := s.signals ++ [.error task.num [url] 1 message] }
  | none =>
    match infos.mimeType with
    | some mimeType =>
      if hasThumb then { s with thumbItems := url :: s.thumbItems }
      else { s with schemes := groupUrl s.schemes (splitScheme url).1 mimeType (splitScheme url).2 }
    | none => if hasThumb then { s with thumbItems := url :: s.thumbItems } else s

def sortUrls (env : WorkEnv) (task : WorkTask) : SortedUrls :=
  task.urls.zipIdx.foldl (sortUrl env task) ⟨∅, [], []⟩

end HildonThumbnail
