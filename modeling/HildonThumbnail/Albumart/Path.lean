import HildonThumbnail.Albumart.Strip

/-! The media-art path of an artist, an album and a kind, as the client, the
daemon's Queue and the daemon's Delete compute it. -/

namespace HildonThumbnail

/-- The user's cache directory, the MD5 digest in hexadecimal and the conversion
to lower case. -/
structure AlbumartEnv where
  userCacheDir : String
  md5 : String → String
  utf8Strdown : String → String

def gBuildFilename (dir name : String) : String :=
  dir ++ "/" ++ String.ofList (name.toList.dropWhile (· == '/'))

/-- The digest of an artist or an album; a NULL stands for a blank. -/
def albumartDigest (env : AlbumartEnv) (a : Option String) : String :=
  let f := match a with
    | none => " "
    | some a => stripCharacters env.utf8Strdown a
  env.md5 (env.utf8Strdown f)

def hildonThumbnailUtilGetAlbumartPath (env : AlbumartEnv) (a b kind : Option String) : Option String :=
  if a = none ∧ b = none then none
  else
    let dir := gBuildFilename env.userCacheDir "media-art"
    let artFilename :=
      kind.getD "album" ++ "-" ++ albumartDigest env a ++ "-" ++ albumartDigest env b ++ ".jpeg"
    some (gBuildFilename dir artFilename)

structure AlbumartTask where
  artist : Option String
  album : Option String
  kind : Option String
deriving DecidableEq

/-- The arguments as `albumart_queue` stores them; nothing is queued when both
names are missing. Its `strlen (album)` is never of a NULL over D-Bus. -/
def albumartQueue (artistOrTitle album kind : Option String) : Option AlbumartTask :=
  let kind := if kind = none ∨ album = some "" then some "album" else kind
  let artistOrTitle := if artistOrTitle = some "" then none else artistOrTitle
  let album := if album = some "" then none else album
  if artistOrTitle = none ∧ album = none then none else some ⟨artistOrTitle, album, kind⟩

/-- D-Bus carries a NULL string as an empty one. -/
def dbusString (s : Option String) : Option String := some (s.getD "")

section
variable (env : AlbumartEnv) (artist album kind : Option String)

def clientPath : Option String := hildonThumbnailUtilGetAlbumartPath env artist album kind

def queuePath : Option String :=
  (albumartQueue (dbusString artist) (dbusString album) (dbusString kind)).bind fun task =>
    hildonThumbnailUtilGetAlbumartPath env task.artist task.album task.kind

def deletePath : Option String :=
  hildonThumbnailUtilGetAlbumartPath env (dbusString artist) (dbusString album) (dbusString kind)

end

end HildonThumbnail
