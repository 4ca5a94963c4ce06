import HildonThumbnail.Manager.Handlers

/-! The scan of a thumbnailer directory (`thumbnail_manager_check_dir`) and the
scan of both directories at start-up (`thumbnail_manager_check`). -/

namespace HildonThumbnail

structure KeyFile where
  groups : List String
  getString : String → String → Option String
  getStringList : String → String → Option (List String)

/-- `keyfile` is absent when the file does not parse, `mtime` when it cannot be
queried. -/
structure DirFile where
  keyfile : Option KeyFile
  mtime : Option Nat

/-- The entries of a directory in the order `g_dir_read_name` gives them. -/
structure Directory where
  entries : List (String × DirFile)
  nodup : (entries.map Prod.fst).Nodup

structure ValueInfo where
  name : Option String
  mtime : Nat
  prio : Bool

abbrev ServiceTable := KeyTable String ValueInfo

/-- The body of the loop over `values`. The lookup is by the MIME type alone,
the entry is stored under "scheme-mime". -/
def preAdd (value : String) (mtime : Nat) (uriScheme : String) (pre : ServiceTable) (mime : String) :
    ServiceTable :=
  if (pre.lookup mime).all fun vi => vi.mtime < mtime then
    pre.insert (handlerKey uriScheme mime) ⟨some value, mtime, false⟩
  else pre

def thumbnailerGroup : String := "D-BUS Thumbnailer"

def uriSchemesOf (keyfile : KeyFile) : List String :=
  (keyfile.getStringList thumbnailerGroup "UriSchemes").getD ["file"]

def preAddFile (pre : ServiceTable) (file : DirFile) : ServiceTable :=
  match file.keyfile with
  | none => pre
  | some keyfile =>
    match keyfile.getString thumbnailerGroup "Name",
        keyfile.getStringList thumbnailerGroup "MimeTypes", file.mtime with
    | some value, some values, some mtime =>
      (uriSchemesOf keyfile).foldl (fun pre scheme => values.foldl (preAdd value mtime scheme) pre) pre
    | _, _, _ => pre

def Directory.overrides (d : Directory) : Option KeyFile :=
  (d.entries.lookup "overrides").bind DirFile.keyfile

def preAddOverrides (now : Nat) (pre : ServiceTable) (keyfile : KeyFile) : ServiceTable :=
  keyfile.groups.foldl (fun pre g => pre.insert g ⟨keyfile.getString g "Name", now, true⟩) pre

def checkDirPre (now : Nat) (d : Directory) : ServiceTable :=
  let pre := (d.entries.filter fun e => e.1 ≠ "overrides").foldl (fun pre e => preAddFile pre e.2) ∅
  match d.overrides with
  | some keyfile => preAddOverrides now pre keyfile
  | none => pre

def gAsciiStrcasecmpEq (a b : String) : Bool := a.toList.map Char.toLower == b.toList.map Char.toLower

def enterHandler [DBusGlib] (override : Bool) (m : ThumbnailManager) (e : String × ValueInfo) : ThumbnailManager :=
  let oname := if !e.2.prio && !override then handlerName m e.1 else none
  match oname with
  | none => thumbnailManagerAdd m e.1 e.2.name
  | some oname =>
    if gAsciiStrcasecmpEq (e.2.name.getD "") oname then m else thumbnailManagerAdd m e.1 e.2.name

/-- `dir` is absent when `g_dir_open` fails. -/
def thumbnailManagerCheckDir [DBusGlib] (order : KeyTable.Order String) (now : Nat) (m : ThumbnailManager)
    (dir : Option Directory) (override : Bool) : ThumbnailManager :=
  match dir with
  | none => m
  | some d => (order.visit (checkDirPre now d)).foldl (enterHandler override) m

def thumbnailManagerCheck [DBusGlib] (order : KeyTable.Order String) (now : Nat) (m : ThumbnailManager)
    (system user : Option Directory) : ThumbnailManager :=
  thumbnailManagerCheckDir order now (thumbnailManagerCheckDir order now m system false) user true

/-! The declarations of a directory, one for each scheme and MIME type of each
service file, in the order the scan meets them. -/

structure Declaration where
  uriScheme : String
  mimeType : String
  name : String
  mtime : Nat
deriving DecidableEq

def Declaration.key (s : Declaration) : String := handlerKey s.uriScheme s.mimeType

def DirFile.declarations (file : DirFile) : List Declaration :=
  match file.keyfile with
  | none => []
  | some keyfile =>
    match keyfile.getString thumbnailerGroup "Name",
        keyfile.getStringList thumbnailerGroup "MimeTypes", file.mtime with
    | some value, some values, some mtime =>
      (uriSchemesOf keyfile).flatMap fun scheme => values.map fun mime => ⟨scheme, mime, value, mtime⟩
    | _, _, _ => []

def Directory.declarations (d : Directory) : List Declaration :=
  (d.entries.filter fun e => e.1 ≠ "overrides").flatMap fun e => e.2.declarations

def Directory.overrideName (d : Directory) (key : String) : Option (Option String) :=
  d.overrides.bind fun keyfile => if key ∈ keyfile.groups then some (keyfile.getString key "Name") else none

def Directory.Declares (d : Directory) (key : String) : Prop := ∃ s ∈ d.declarations, s.key = key

def Directory.HasEntry (d : Directory) (key : String) : Prop :=
  (d.overrideName key).isSome ∨ d.Declares key

/-- `name` is declared for the key by a file whose modification time is the
greatest among the files that declare the key. -/
def Directory.Newest (d : Directory) (key name : String) : Prop :=
  ∃ s ∈ d.declarations, s.key = key ∧ s.name = name ∧
    ∀ t ∈ d.declarations, t.key = key → t.mtime ≤ s.mtime

def Directory.Entry (d : Directory) (key : String) (name : Option String) : Prop :=
  match d.overrideName key with
  | some n => name = n
  | none => ∃ n, name = some n ∧ d.Newest key n

/-- The user directory's entry if it has one, else the system directory's. -/
def HandlersFollow (system user : Directory) (m : ThumbnailManager) : Prop :=
  ∀ key, (user.HasEntry key → user.Entry key (handlerName m key)) ∧
    (¬ user.HasEntry key → system.HasEntry key → system.Entry key (handlerName m key)) ∧
    (¬ user.HasEntry key → ¬ system.HasEntry key → handlerName m key = none)

/-- The declarations the scan does not skip, the last one first. A declaration
is skipped when its MIME type alone is a key of the table with an entry at
least as new. -/
def unskipped : List Declaration → List Declaration
  | [] => []
  | s :: earlier =>
    if ((unskipped earlier).find? fun e => e.key = s.mimeType).all fun e => e.mtime < s.mtime then
      s :: unskipped earlier
    else unskipped earlier

def Directory.lastListed (d : Directory) (key : String) : Option Declaration :=
  (unskipped d.declarations.reverse).find? fun s => s.key = key

def Directory.listed (d : Directory) (key : String) : Option (Option String) :=
  match d.overrideName key with
  | some n => some n
  | none => (d.lastListed key).map fun s => some s.name

/-- Wherever no overrides group decides, the service that is listed last is the
one of a newest file. -/
def LastListedNewest (system user : Directory) : Prop :=
  ∀ key, (user.overrideName key = none → user.Declares key →
      ∃ n, (user.listed key).or (system.listed key) = some (some n) ∧ user.Newest key n) ∧
    (¬ user.HasEntry key → system.overrideName key = none → system.Declares key →
      ∃ n, system.listed key = some (some n) ∧ system.Newest key n)

end HildonThumbnail
