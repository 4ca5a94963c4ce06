import HildonThumbnail.OutPlugin.PngStamps

/-! The JPEG output plugin (daemon/plugins/gdkpixbuf-jpeg-out-plugin.c) on the
files; what it does besides to its database is not told here. -/

namespace HildonThumbnail

namespace Jpeg

variable (env : CacheEnv)

/-- `now` is the time of day: a file of the last five seconds is not trusted. -/
def needsOut (files : Files) (now : UInt64) (type : HildonThumbnailPluginOutType) (mtime : UInt64) (uri : String) :
    Png.NeedsOut :=
  let file := (hildonThumbnailUtilGetThumbPaths env uri false).file type
  let consulted : Option (Path × Bool) :=
    if gFileQueryExists files (Png.failFile file) then some (Png.failFile file, true)
    else if gFileQueryExists files file then some (file, false)
    else none
  match consulted with
  | none => ⟨true, false⟩
  | some (path, f) =>
    match files.lookup path with
    | none => ⟨true, false⟩
    | some info => if sameTime info.mtime mtime ∧ info.mtime + 5 < now then ⟨false, f⟩ else ⟨true, false⟩

def putError (files : Files) (now mtime : UInt64) (uri : String) (message : Option String) : Files :=
  let file := (hildonThumbnailUtilGetThumbPaths env uri false).large
  let files := if gFileQueryExists files (Png.failFile file) then files.erase (Png.failFile file) else files
  let files := gFileCreate files (Png.failFile file) ⟨now, .text (message.getD "")⟩
  utime files (Png.failFile file) mtime

/-- `saved` is the outcome of `gdk_pixbuf_save`, with the message of its error. -/
def out (files : Files) (now : UInt64) (type : HildonThumbnailPluginOutType) (mtime : UInt64) (uri : String)
    (saved : Except String Unit) : Files :=
  let filen := (hildonThumbnailUtilGetThumbPaths env uri false).file type
  match saved with
  | .ok _ =>
    let files := files.insert (Png.tempPath filen) ⟨now, .jpeg⟩
    utime (gRename files (Png.tempPath filen) filen) filen mtime
  | .error message => putError env files now mtime uri (some message)

end Jpeg

namespace OutFormat

def needsOut (env : CacheEnv) (f : OutFormat) (files : Files) (now : UInt64) (type : HildonThumbnailPluginOutType)
    (mtime : UInt64) (uri : String) : Png.NeedsOut :=
  match f with
  | .png => Png.needsOut env files type mtime uri
  | .jpeg => Jpeg.needsOut env files now type mtime uri

def putError (env : CacheEnv) (f : OutFormat) (files : Files) (now mtime : UInt64) (uri : String)
    (message : Option String) : Files :=
  match f with
  | .png => Png.putError env files now mtime uri message
  | .jpeg => Jpeg.putError env files now mtime uri message

def out (env : CacheEnv) (f : OutFormat) (files : Files) (now : UInt64) (type : HildonThumbnailPluginOutType)
    (mtime : UInt64) (uri : String) (saved : Except String Unit) : Files :=
  match f with
  | .png => Png.out env files now type mtime uri saved
  | .jpeg => Jpeg.out env files now type mtime uri saved

section Stamps
variable (env : CacheEnv) (f : OutFormat) (files : Files)

theorem stamp_putError (now mtime : UInt64) (u : String) (message : Option String) (p : Path) :
    Png.stamp (f.putError env files now mtime u message) p =
      if p = f.marker env u then some mtime else Png.stamp files p := by
  have hlarge : (hildonThumbnailUtilGetThumbPaths env u f.asPng).large = f.thumb env .large u :=
    file_eq (t := .large)
  cases f <;> simp only [putError, Png.putError, Jpeg.putError, asPng]
    at hlarge ⊢ <;> rw [hlarge, failFile_thumb] <;>
    exact Png.stamp_marked files _ now mtime message p

theorem stamp_out (now mtime : UInt64) (t : HildonThumbnailPluginOutType) (u : String) {p : Path}
    (hp : p ≠ Png.tempPath (f.thumb env t u)) : Png.stamp (f.out env files now t mtime u (.ok ())) p =
      if p = f.thumb env t u then some mtime else Png.stamp files p := by
  have hfile : (hildonThumbnailUtilGetThumbPaths env u f.asPng).file t = f.thumb env t u := file_eq
  cases f <;> simp only [out, Png.out, Jpeg.out, asPng] at hfile ⊢ <;> rw [hfile] <;>
    exact Png.stamp_renamed files _ mtime hp

theorem out_error (now mtime : UInt64) (t : HildonThumbnailPluginOutType) (u message : String) :
    f.out env files now t mtime u (.error message) = f.putError env files now mtime u (some message) := by
  cases f <;> rfl

end Stamps

end OutFormat

end HildonThumbnail
