import HildonThumbnail.OutPlugin.Outplugins
import HildonThumbnail.Thumbnailer.Task

/-! The thumbnails that the GStreamer thumbnailer writes by itself
(`create_thumbnails` in gst-thumb-pipe.c), and the daemon's look at them. -/

namespace HildonThumbnail

/-- A save that breaks off leaves a file behind. -/
inductive SaveOutcome
  | saved
  | notOpened (message : String)
  | brokenOff (message : String)

structure Save where
  now : UInt64
  outcome : SaveOutcome

def gdkPixbufSave (files : Files) (filename : Path) (save : Save) : Files × Option String :=
  match save.outcome with
  | .saved => (files.insert filename ⟨save.now, .jpeg⟩, none)
  | .notOpened message => (files, some message)
  | .brokenOff message => (files.insert filename ⟨save.now, .jpeg⟩, some message)

structure FrameSize where
  width : Int32
  height : Int32

/-- The files by their places under ~/.thumbnails: both standard flavours get
PNG names, whatever is saved in them. -/
def savedName (env : CacheEnv) (uri : String) (t : HildonThumbnailPluginOutType) : Path :=
  match t with
  | .large => env.home ++ [".thumbnails", "large", env.md5 uri ++ ".png"]
  | .normal => env.home ++ [".thumbnails", "normal", env.md5 uri ++ ".png"]
  | .cropped => env.home ++ [".thumbnails", "cropped", env.md5 uri ++ ".jpeg"]

/-- The first save that fails ends the work with its error. -/
def saveThumbs (env : CacheEnv) (uri : String) (saves : HildonThumbnailPluginOutType → Save) :
    List HildonThumbnailPluginOutType → Files → Files × Option String
  | [], files => (files, none)
  | t :: ts, files =>
    match gdkPixbufSave files (savedName env uri t) (saves t) with
    | (files, none) => saveThumbs env uri saves ts files
    | (files, some message) => (files, some message)

def createThumbnails (env : CacheEnv) (uri : String) (frame : FrameSize) (standard cropped : Bool)
    (saves : HildonThumbnailPluginOutType → Save) (files : Files) : Files × Option String :=
  if standard ∧ (frame.width ≤ 0 ∨ frame.height ≤ 0) then (files, some "Invalid size of frame in buffer")
  else
    saveThumbs env uri saves ((if standard then [.large, .normal] else []) ++ if cropped then [.cropped] else [])
      files

inductive CroppedWriter
  | jpegPlugin (now : UInt64)
  | gstreamer (frame : FrameSize) (standard : Bool) (saves : HildonThumbnailPluginOutType → Save)

def CroppedWriter.run (env : CacheEnv) (uri : String) (m : UInt64) (files : Files) : CroppedWriter → Option Files
  | .jpegPlugin now => some (Jpeg.out env files now .cropped m uri (.ok ()))
  | .gstreamer frame standard saves =>
    match createThumbnails env uri frame standard true saves files with
    | (files, none) => some files
    | (_, some _) => none

/-- A URL of any task that is looked up in these files joins the cached ones. -/
def Served (env : CacheEnv) (files : Files) (uri : String) (m : UInt64) : Prop :=
  ∀ (work : WorkEnv) (task : WorkTask) (s : SortedUrls) (i : Nat) (info : GFileInfo), work.build = .default →
    work.cache = env → work.files i = files → work.fileInfo i = .ok info → info.mtime = m →
    sortUrl work task s (uri, i) = { s with thumbItems := uri :: s.thumbItems }

section Writers
variable {env : CacheEnv} {uri : String} {m : UInt64} {files after : Files}

theorem savedName_cropped : savedName env uri .cropped = OutFormat.jpeg.thumb env .cropped uri := rfl

theorem gdkPixbufSave_none {filename : Path} {save : Save} (h : gdkPixbufSave files filename save = (after, none)) :
    after = files.insert filename ⟨save.now, .jpeg⟩ := by
  rw [gdkPixbufSave] at h
  split at h
  · exact (congrArg Prod.fst h).symm
  · cases congrArg Prod.snd h
  · cases congrArg Prod.snd h

theorem saveThumbs_cropped {saves : HildonThumbnailPluginOutType → Save} {ts : List HildonThumbnailPluginOutType}
    (h : saveThumbs env uri saves (ts ++ [.cropped]) files = (after, none)) :
    Png.stamp after (OutFormat.jpeg.thumb env .cropped uri) = some (saves .cropped).now := by
  induction ts generalizing files with
  | nil =>
    rw [List.nil_append, saveThumbs] at h
    split at h
    · next files' hsave =>
      obtain rfl : files' = after := congrArg Prod.fst h
      rw [gdkPixbufSave_none hsave, savedName_cropped]
      simp [Png.stamp]
    · cases congrArg Prod.snd h
  | cons t ts ih =>
    rw [List.cons_append, saveThumbs] at h
    split at h
    · exact ih h
    · cases congrArg Prod.snd h

theorem stamp_run {w : CroppedWriter} (h : w.run env uri m files = some after) :
    Png.stamp after (OutFormat.jpeg.thumb env .cropped uri) =
      match w with
      | .jpegPlugin _ => some m
      | .gstreamer _ _ saves => some (saves .cropped).now := by
  cases w with
  | jpegPlugin now =>
    obtain rfl := Option.some.inj h
    have hstamp := OutFormat.stamp_out env .jpeg files now m .cropped uri
      (OutFormat.tempPath_ne_thumb (f := .jpeg) (g := .jpeg) (u := uri) (s := .cropped) (t := .cropped)).symm
    rwa [if_pos rfl] at hstamp
  | gstreamer frame standard saves =>
    rw [CroppedWriter.run] at h
    split at h
    · next files' hcreate =>
      obtain rfl := Option.some.inj h
      rw [createThumbnails] at hcreate
      split at hcreate
      · cases congrArg Prod.snd hcreate
      · exact saveThumbs_cropped hcreate
    · cases h

theorem served_of_thumbCheck
    (h : thumbCheck files (hildonThumbnailUtilGetThumbPaths env uri false).cropped m = true) :
    Served env files uri m := by
  intro work task s i info hbuild hcache hfiles hinfo hm
  have hthumb : hasThumb work i uri info.mtime = true := by
    rw [hasThumb, hbuild, hcache, hfiles, hm, thumbsChecked, h, Bool.true_or]
  simp only [sortUrl, hinfo, getSomeFileInfos]
  cases info.contentType <;> simp [hthumb]

/-- The time of the file is that of the original, or the time of the save. -/
def CroppedWriter.Stamped (m : UInt64) : CroppedWriter → Prop
  | .jpegPlugin _ => True
  | .gstreamer _ _ saves =>
    (saves .cropped).now = m ∨ Png.OneApart (saves .cropped).now m ∨ Png.Aliased (saves .cropped).now m

theorem thumbCheck_run_iff {w : CroppedWriter} (h : w.run env uri m files = some after) :
    thumbCheck after (hildonThumbnailUtilGetThumbPaths env uri false).cropped m = true ↔ w.Stamped m := by
  have hfile : (hildonThumbnailUtilGetThumbPaths env uri false).cropped = OutFormat.jpeg.thumb env .cropped uri :=
    OutFormat.file_eq (f := .jpeg) (t := .cropped)
  rw [hfile, thumbCheck_iff, stamp_run h]
  cases w with
  | jpegPlugin now => simp [CroppedWriter.Stamped, sameTime_self]
  | gstreamer frame standard saves => simp [CroppedWriter.Stamped, Png.sameTime_cases]

theorem cropped_served_iff (env : CacheEnv) (uri : String) (m : UInt64) (files after : Files) (w : CroppedWriter)
    (h : w.run env uri m files = some after) :
    (thumbCheck after (hildonThumbnailUtilGetThumbPaths env uri false).cropped m = true ∧ Served env after uri m) ↔
      w.Stamped m := by
  rw [and_iff_left_of_imp served_of_thumbCheck]
  exact thumbCheck_run_iff h

theorem cropped_not_served :
    ¬ ∀ (env : CacheEnv) (uri : String) (m : UInt64) (files after : Files) (w : CroppedWriter),
    w.run env uri m files = some after →
      thumbCheck after (hildonThumbnailUtilGetThumbPaths env uri false).cropped m = true ∧
        Served env after uri m := by
  intro h
  let w : CroppedWriter := .gstreamer ⟨320, 240⟩ false fun _ => ⟨100, .saved⟩
  have hh := h ⟨["home", "user"], id⟩ "file:///a.avi" 5 ∅ _ w rfl
  have hstamped : w.Stamped 5 := (thumbCheck_run_iff (w := w) rfl).mp hh.1
  rcases hstamped with h | h | h <;> exact absurd h (by decide)

theorem cropped_served_jpegPlugin :
    let env : CacheEnv := ⟨["home", "user"], id⟩
    let after := Jpeg.out env ∅ 100 .cropped 5 "file:///a.jpg" (.ok ())
    thumbCheck after (hildonThumbnailUtilGetThumbPaths env "file:///a.jpg" false).cropped 5 = true ∧
      Served env after "file:///a.jpg" 5 :=
  (cropped_served_iff ⟨["home", "user"], id⟩ "file:///a.jpg" 5 ∅ _ (.jpegPlugin 100) rfl).mpr trivial

end Writers

end HildonThumbnail
