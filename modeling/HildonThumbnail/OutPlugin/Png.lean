import HildonThumbnail.Cache.Files

/-! The PNG output plugin (daemon/plugins/gdkpixbuf-png-out-plugin.c). -/

namespace HildonThumbnail.Png

variable (env : CacheEnv)

/-- The failure marker of a thumbnail: its name under ~/.thumbnails/fail. -/
def failFile (filen : Path) : Path :=
  let failDir := gFileGetParent (gFileGetParent filen)
  gFileGetChild (gFileGetChild (gFileGetChild failDir "fail") "hildon-thumbnail") (gFileGetBasename filen)

@[ext] structure NeedsOut where
  retval : Bool
  errFile : Bool
deriving DecidableEq

def needsOut (files : Files) (type : HildonThumbnailPluginOutType) (mtime : UInt64) (uri : String) :
    NeedsOut :=
  let file := (hildonThumbnailUtilGetThumbPaths env uri true).file type
  let consulted : Option (Path × Bool) :=
    if gFileQueryExists files (failFile file) then some (failFile file, true)
    else if gFileQueryExists files file then some (file, false)
    else none
  match consulted with
  | none => ⟨true, false⟩
  | some (path, f) =>
    match files.lookup path with
    | none => ⟨true, false⟩
    | some info => if sameTime info.mtime mtime then ⟨false, f⟩ else ⟨true, false⟩

def putError (files : Files) (now mtime : UInt64) (uri : String) (message : Option String) : Files :=
  let file := (hildonThumbnailUtilGetThumbPaths env uri true).large
  let files := if gFileQueryExists files (failFile file) then files.erase (failFile file) else files
  let files := gFileCreate files (failFile file) ⟨now, .text (message.getD "")⟩
  utime files (failFile file) mtime

def tempPath (filen : Path) : Path := gFileGetParent filen ++ [gFileGetBasename filen ++ ".tmp"]

def pngOptions (uri : String) (mtime : UInt64) : List (String × String) :=
  [("tEXt::Thumb::URI", uri), ("tEXt::Thumb::MTime", toString mtime.toNat),
    ("tEXt::Software", "hildon-thumbnail-3.1.1")]

/-- `saved` is the outcome of `gdk_pixbuf_savev`, with the message of its error. -/
def out (files : Files) (now : UInt64) (type : HildonThumbnailPluginOutType) (mtime : UInt64)
    (uri : String) (saved : Except String Unit) : Files :=
  let filen := (hildonThumbnailUtilGetThumbPaths env uri true).file type
  match saved with
  | .ok _ =>
    let files := files.insert (tempPath filen) ⟨now, .png (pngOptions uri mtime)⟩
    utime (gRename files (tempPath filen) filen) filen mtime
  | .error message => putError env files now mtime uri (some message)

inductive Call
  | putError (now mtime : UInt64) (uri : String) (message : Option String)
  | out (now : UInt64) (type : HildonThumbnailPluginOutType) (mtime : UInt64) (uri : String)

def Call.uri : Call → String
  | .putError _ _ uri _ => uri
  | .out _ _ _ uri => uri

def Call.mtime : Call → UInt64
  | .putError _ mtime _ _ => mtime
  | .out _ _ mtime _ => mtime

def Call.apply (files : Files) : Call → Files
  | .putError now mtime uri message => Png.putError env files now mtime uri message
  | .out now type mtime uri => Png.out env files now type mtime uri (.ok ())

def run (calls : List Call) : Files := calls.foldl (Call.apply env) ∅

def lastError (calls : List Call) (u : String) : Option UInt64 :=
  calls.reverse.findSome? fun c => match c with
    | .putError _ mtime uri _ => if uri = u then some mtime else none
    | .out .. => none

def lastOut (calls : List Call) (t : HildonThumbnailPluginOutType) (u : String) : Option UInt64 :=
  calls.reverse.findSome? fun c => match c with
    | .putError .. => none
    | .out _ type mtime uri => if type = t ∧ uri = u then some mtime else none

inductive Outcome
  | failure (mtime : UInt64)
  | success (mtime : UInt64)
deriving DecidableEq

def lastOutcome (calls : List Call) (t : HildonThumbnailPluginOutType) (u : String) : Option Outcome :=
  calls.reverse.findSome? fun c => match c with
    | .putError _ mtime uri _ => if uri = u then some (.failure mtime) else none
    | .out _ type mtime uri => if type = t ∧ uri = u then some (.success mtime) else none

end HildonThumbnail.Png
