import HildonThumbnail.OutPlugin.Formats

/-! The copies of thumbnails that lie next to the originals, under .thumblocal
(the local paths of `hildon_thumbnail_util_get_thumb_paths`). -/

namespace HildonThumbnail

structure Original where
  name : String
  mtime : UInt64
deriving DecidableEq

/-- `fileInfo` is what can be queried of an original, `parent` the location of
its directory, which a root does not have. -/
structure LocalEnv extends CacheEnv where
  fileInfo : String → Option Original
  parent : String → Option Path

/-- The three paths are empty strings when the name or the directory is missing. -/
def localThumbPaths (env : LocalEnv) (uri : String) (asPng : Bool) : Option ThumbPaths :=
  match env.fileInfo uri, env.parent uri with
  | some info, some dirFile =>
    if info.name = "" then none
    else
      let localDir := gFileGetChild dirFile ".thumblocal"
      let name := digestName env.toCacheEnv info.name asPng
      some ⟨localDir ++ ["large", name], localDir ++ ["normal", name], localDir ++ ["cropped", name]⟩
  | _, _ => none

def localFile (env : LocalEnv) (uri : String) (asPng : Bool) (t : HildonThumbnailPluginOutType) : Option Path :=
  (localThumbPaths env uri asPng).map fun paths => paths.file t

def localCopy (env : LocalEnv) (files : Files) (uri : String) (asPng : Bool) (t : HildonThumbnailPluginOutType) :
    Option Path :=
  (localFile env uri asPng t).filter (gFileQueryExists files)

section Paths
variable {env : LocalEnv} {files files' : Files} {uri v : String} {asPng : Bool} {f : OutFormat}
  {s t : HildonThumbnailPluginOutType} {p : Path}

theorem localFile_eq (h : localFile env uri asPng t = some p) : ∃ info dirFile, env.fileInfo uri = some info ∧
    p = dirFile ++ [".thumblocal", t.dirName, digestName env.toCacheEnv info.name asPng] := by
  rw [localFile, Option.map_eq_some_iff] at h
  obtain ⟨paths, hpaths, rfl⟩ := h
  rw [localThumbPaths.eq_def] at hpaths
  split at hpaths
  · next info dirFile hinfo _ =>
    obtain rfl := Option.some.inj (Option.ite_none_left_eq_some.mp hpaths).2
    refine ⟨info, dirFile, hinfo, ?_⟩
    cases t <;> simp [ThumbPaths.file, gFileGetChild, HildonThumbnailPluginOutType.dirName]
  · cases hpaths

theorem localFile_ne_thumb (h : localFile env uri asPng t = some p) : p ≠ f.thumb env.toCacheEnv s v := by
  obtain ⟨_, _, _, rfl⟩ := localFile_eq h
  intro heq
  have hdir := (List.append_inj' heq rfl).2
  simp at hdir

theorem localCopy_eq_some : localCopy env files uri asPng t = some p ↔
    localFile env uri asPng t = some p ∧ gFileQueryExists files p = true :=
  Option.filter_eq_some_iff

end Paths

end HildonThumbnail
