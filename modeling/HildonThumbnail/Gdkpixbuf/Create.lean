import HildonThumbnail.Gdkpixbuf.GifReads
import HildonThumbnail.Lib.Run
import HildonThumbnail.OutPlugin.Outplugins
import HildonThumbnail.Thumbnailer.Work

/-! The plugin that makes thumbnails with gdk-pixbuf
(`hildon_thumbnail_plugin_create` in daemon/plugins/gdkpixbuf-plugin.c). -/

namespace HildonThumbnail

namespace Gdkpixbuf

structure OriginalInfo where
  mtime : UInt64
  size : UInt64

/-- The calls of one round in which an output plugin takes the time of day. -/
inductive Moment
  | needsOut (type : HildonThumbnailPluginOutType)
  | needsOutAgain (type : HildonThumbnailPluginOutType)
  | doOut (type : HildonThumbnailPluginOutType)
  | putError

/-- The build, the configuration and what the rounds of one call meet: by the
position of the URI, the message of the error if there is one. `isAnimatedGif`
is what the scan of the file answers. -/
structure Env where
  cache : CacheEnv
  largeThumbnails : Bool
  normalThumbnails : Bool
  doCropped : Bool
  maxSize : UInt64
  plugins : List OutPlugin
  isAnimatedGif : String → Bool
  queryInfo : String → Except String OriginalInfo
  now : Nat → Moment → UInt64
  read : Nat → Option String
  pixbuf : Nat → HildonThumbnailPluginOutType → Option String
  seek : Nat → HildonThumbnailPluginOutType → Option String
  saved : Nat → HildonThumbnailPluginOutType → Nat → Except String Unit

def Env.compiled (env : Env) : List HildonThumbnailPluginOutType :=
  (if env.largeThumbnails then [.large] else []) ++ if env.normalThumbnails then [.normal] else []

/-- The flavours that are asked for whether there is anything to do. -/
def Env.asked (env : Env) : List HildonThumbnailPluginOutType := env.compiled ++ [.cropped]

def Env.made (env : Env) : List HildonThumbnailPluginOutType :=
  env.compiled ++ if env.doCropped then [.cropped] else []

/-- The file is looked at even when `nerror` is set already. -/
def originalInfo (env : Env) (uri : String) : Except String OriginalInfo :=
  if env.isAnimatedGif uri then .error ("Animated GIF (" ++ uri ++ ") is not supported")
  else
    match env.queryInfo uri with
    | .error message => .error message
    | .ok info => if info.size > env.maxSize then .error (uri ++ " is too large") else .ok info

def needsSome (env : Env) (files : Files) (i : Nat) (mtime : UInt64) (uri : String) :
    List HildonThumbnailPluginOutType → Bool → Png.NeedsOut
  | [], errFile => ⟨false, errFile⟩
  | t :: types, errFile =>
    let r := outpluginsNeedsOut env.cache (env.now i (.needsOut t)) t mtime uri files env.plugins errFile
    if r.retval then r else needsSome env files i mtime uri types r.errFile

structure Round where
  files : Files
  errFile : Bool
  nerror : Option String

def makeFlavour (env : Env) (i : Nat) (mtime : UInt64) (uri : String) (files : Files) (errFile : Bool)
    (t : HildonThumbnailPluginOutType) : Round :=
  let r := outpluginsNeedsOut env.cache (env.now i (.needsOutAgain t)) t mtime uri files env.plugins errFile
  if r.retval then
    match env.pixbuf i t with
    | some message => ⟨files, r.errFile, some message⟩
    | none =>
      match outpluginsDoOut env.cache (env.now i (.doOut t)) t mtime uri env.plugins (env.saved i t) files none with
      | (files, some message) => ⟨files, r.errFile, some message⟩
      | (files, none) => ⟨files, r.errFile, if t = .cropped then none else env.seek i t⟩
  else ⟨files, r.errFile, none⟩

def makeFlavours (env : Env) (i : Nat) (mtime : UInt64) (uri : String) :
    List HildonThumbnailPluginOutType → Files → Bool → Round
  | [], files, errFile => ⟨files, errFile, none⟩
  | t :: types, files, errFile =>
    let round := makeFlavour env i mtime uri files errFile t
    if round.nerror.isSome then round else makeFlavours env i mtime uri types round.files round.errFile

/-- One round of the loop up to the label `nerror_handler`. -/
def createOne (env : Env) (i : Nat) (uri : String) (files : Files) : Round :=
  match originalInfo env uri with
  | .error message => ⟨files, false, some message⟩
  | .ok info =>
    let r := needsSome env files i info.mtime uri env.asked false
    if r.retval then
      match env.read i with
      | some message => ⟨files, r.errFile, some message⟩
      | none => makeFlavours env i info.mtime uri env.made files r.errFile
    else ⟨files, r.errFile, none⟩

structure Created where
  files : Files
  errors : Option String
  failed : List String

def Round.fails (round : Round) : Bool := round.nerror.isSome || round.errFile

/-- What follows `nerror_handler`; an error that is on file is not written again. -/
def nerrorHandler (env : Env) (i : Nat) (uri : String) (round : Round) (s : Created) : Created :=
  if round.fails then
    let files :=
      if round.errFile then round.files
      else
        match env.queryInfo uri with
        | .error _ => round.files
        | .ok info =>
          outpluginsPutError env.cache (env.now i .putError) info.mtime uri round.nerror env.plugins round.files
    ⟨files, some (s.errors.getD "" ++ "[`" ++ uri ++ "': " ++ round.nerror.getD "Had error before" ++ "] "),
      uri :: s.failed⟩
  else { s with files := round.files }

def createStep (env : Env) (s : Created) (uri : String × Nat) : Created :=
  nerrorHandler env uri.2 uri.1 (createOne env uri.2 uri.1 s.files) s

def createLoop (env : Env) (uris : List String) (files : Files) : Created :=
  uris.zipIdx.foldl (createStep env) ⟨files, none, []⟩

/-- What `is_animated_gif` meets: the path of each file, if it is a local one,
and what is read from it, if it can be opened. -/
structure GifFiles where
  getPath : Nat → Option String
  utf8Strup : String → String
  opened : Nat → Option (Nat → AnimatedGif.Fread)

def GifFiles.Suspected (gifs : GifFiles) (path : String) : Prop := "GIF".toList <:+ (gifs.utf8Strup path).toList

instance (gifs : GifFiles) (path : String) : Decidable (gifs.Suspected path) :=
  inferInstanceAs (Decidable ("GIF".toList <:+ (gifs.utf8Strup path).toList))

/-- Nothing if the scan does not come to its end in so many turns. -/
def GifFiles.isAnimated (gifs : GifFiles) (turns i : Nat) : Option Bool :=
  match gifs.getPath i with
  | none => some false
  | some path => if gifs.Suspected path then AnimatedGif.scanStream turns (gifs.opened i) else some false

def Env.answered (env : Env) (animated : Bool) : Env := { env with isAnimatedGif := fun _ => animated }

/-- A round that first looks for animation itself. -/
def createUri (turns : Nat) (gifs : GifFiles) (env : Env) (s : Created) (uri : String × Nat) : Option Created :=
  (gifs.isAnimated turns uri.2).map fun animated => createStep (env.answered animated) s uri

def createRun (turns : Nat) (gifs : GifFiles) (env : Env) (uris : List String) (files : Files) : Option Created :=
  StepRun.run (createUri turns gifs env) ⟨files, none, []⟩ uris.zipIdx

/-- With the answers of scans that have come to their ends. -/
def hildonThumbnailPluginCreate (env : Env) (uris : List String) (files : Files) : PluginCreate :=
  let s := createLoop env uris files
  ⟨s.failed, s.errors⟩

section Answers
variable {env : Env} {animated : Bool} {files : Files} {i : Nat} {mtime : UInt64} {uri : String} {errFile : Bool}
  {types : List HildonThumbnailPluginOutType}

theorem needsSome_answered :
    needsSome (env.answered animated) files i mtime uri types errFile =
      needsSome env files i mtime uri types errFile := by
  induction types generalizing errFile with
  | nil => rfl
  | cons t types ih =>
    rw [needsSome, needsSome, ih]
    rfl

theorem makeFlavours_answered :
    makeFlavours (env.answered animated) i mtime uri types files errFile =
      makeFlavours env i mtime uri types files errFile := by
  induction types generalizing files errFile with
  | nil => rfl
  | cons t types ih =>
    rw [makeFlavours, makeFlavours, ih]
    rfl

theorem createStep_answered (h : env.isAnimatedGif uri = animated) (s : Created) :
    createStep (env.answered animated) s (uri, i) = createStep env s (uri, i) := by
  have hinfo : originalInfo (env.answered animated) uri = originalInfo env uri := by
    rw [originalInfo, originalInfo, h]
    rfl
  have hround : createOne (env.answered animated) i uri s.files = createOne env i uri s.files := by
    simp only [createOne, hinfo, needsSome_answered, makeFlavours_answered]
    rfl
  rw [createStep, createStep, hround]
  rfl

/-- Where every scan has come to its end the rounds are those with the answers. -/
theorem createRun_eq {turns : Nat} {gifs : GifFiles} {uris : List String}
    (h : ∀ uri i, uris[i]? = some uri → gifs.isAnimated turns i = some (env.isAnimatedGif uri)) :
    createRun turns gifs env uris files = some (createLoop env uris files) := by
  have hstep (rounds : List (String × Nat)) (hrounds : ∀ r ∈ rounds, r ∈ uris.zipIdx) (s : Created) :
      StepRun.run (createUri turns gifs env) s rounds = some (rounds.foldl (createStep env) s) := by
    induction rounds generalizing s with
    | nil => rfl
    | cons r rounds ih =>
      obtain ⟨uri, i⟩ := r
      have hscan := h uri i (List.mem_zipIdx_iff_getElem?.mp (hrounds _ List.mem_cons_self))
      have hround : createUri turns gifs env s (uri, i) = some (createStep env s (uri, i)) := by
        rw [createUri, hscan, Option.map_some, createStep_answered rfl]
      rw [StepRun.run_cons, hround, Option.bind_some, List.foldl_cons]
      exact ih (fun r hr => hrounds r (List.mem_cons_of_mem _ hr)) _
  exact hstep _ (fun _ hr => hr) _

end Answers

end Gdkpixbuf

end HildonThumbnail
