import HildonThumbnail.Thumbnailer.Task

/-! The groups of a task, one after another, and the signals of a whole task
(the rest of `do_the_work`). -/

namespace HildonThumbnail

def subtractStrv (a b : List String) : List String := a.filter fun u => u ∉ b

structure GroupOutcome where
  signals : List Signal
  hadErr : Bool

/-- The message of the error for one URI of a specialised thumbnailer; a late
answer does not replace the timeout. -/
def SpecializedInfo.error (info : SpecializedInfo) (uri : String) : Option String :=
  if info.hadCallback then info.errorMsg else some ("Timeout for " ++ uri)

def specializedSignal (num : UInt32) (uri : String) (info : SpecializedInfo) : Signal :=
  match info.error uri with
  | some message => .error num [uri] 1 message
  | none => .ready [uri]

def createSpecialized (env : WorkEnv) (num : UInt32) (uriScheme : String) (proxy : DBusGProxy) (mimeType : String)
    (urlss : List String) : GroupOutcome where
  signals := urlss.mapIdx fun o uri => specializedSignal num uri (env.specialized uriScheme mimeType proxy o)
  hadErr := (urlss.mapIdx fun o uri => ((env.specialized uriScheme mimeType proxy o).error uri).isSome).any id

def createWithPlugin (env : WorkEnv) (num : UInt32) (module : GModule) (mimeType : String)
    (urlss : List String) : GroupOutcome :=
  let created := env.create module urlss mimeType
  match created.error with
  | some message =>
    let newlist := subtractStrv urlss created.failedUris
    ⟨(if newlist = [] then [] else [.ready newlist]) ++ [.error num created.failedUris 1 message], true⟩
  | none => ⟨[.ready urlss], false⟩

def handleGroup (env : WorkEnv) (num : UInt32) (uriScheme mimeType : String) (urlss : List String) :
    GroupOutcome :=
  match thumbnailManagerGetHandler (env.manager uriScheme mimeType) uriScheme mimeType with
  | some proxy => createSpecialized env num uriScheme proxy mimeType urlss
  | none =>
    match getPlugin (env.plugins uriScheme mimeType) uriScheme mimeType with
    | some module => createWithPlugin env num module mimeType urlss
    | none => ⟨[.error num urlss 0 ("No handler for " ++ mimeType)], true⟩

structure UrlGroup where
  uriScheme : String
  mimeType : String
  uris : List String

/-- The groups in the order in which the two hash tables are iterated. -/
def groups (env : WorkEnv) (schemes : Schemes) : List UrlGroup :=
  (env.schemeOrder.visit schemes).flatMap fun s =>
    ((env.mimeOrder s.1).visit s.2).map fun m => ⟨s.1, m.1, m.2⟩

def cachedSignals (thumbItems : List String) : List Signal :=
  if thumbItems = [] then [] else [.ready thumbItems]

/-- The signals between Started and Finished of a task that is not unqueued. -/
def workBody (env : WorkEnv) (task : WorkTask) : List Signal :=
  let s := sortUrls env task
  s.signals ++ cachedSignals s.thumbItems ++
    (groups env s.schemes).flatMap fun g => (handleGroup env task.num g.uriScheme g.mimeType g.uris).signals

/-- The signals of a task, by its flags when it is taken from the list. -/
def doTheWork (env : WorkEnv) (task : WorkTask) : List Signal :=
  .started task.num :: ((if task.unqueued then [] else workBody env task) ++
    if task.dead then [] else [.finished task.num])

def remotefss : List String :=
  ["smb://", "file:///media", "file:///mnt", "obex://", "ftp://", "ftps://", "dav://", "nfs://",
    "file:///home/user/MyDocs"]

def strcasestr (haystack needle : String) : Bool :=
  (haystack.toList.map Char.toLower).tails.any fun t => (needle.toList.map Char.toLower).isPrefixOf t

def strvContains (list : List String) (uri : String) : Bool := list.any fun piece => strcasestr uri piece

/-- The URIs whose thumbnails are copied next to the originals, for each group
in which nothing failed. -/
def remoteCopies (env : WorkEnv) (task : WorkTask) : List String :=
  (groups env (sortUrls env task).schemes).flatMap fun g =>
    if (handleGroup env task.num g.uriScheme g.mimeType g.uris).hadErr then []
    else g.uris.filter (strvContains remotefss)

end HildonThumbnail
