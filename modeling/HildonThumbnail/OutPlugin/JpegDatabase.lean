import HildonThumbnail.Lib.Sql
import HildonThumbnail.Lib.Stepping
import HildonThumbnail.OutPlugin.Formats

/-! The table jpegthumbnails of ~/.thumbnails/meta.db and the statements that
the JPEG plugin makes for it, with the texts spliced in as they are
(daemon/plugins/gdkpixbuf-jpeg-out-plugin.c). -/

namespace HildonThumbnail.JpegDb

/-- A row of jpegthumbnails. A path and a URI are only there if they are not NULL. -/
structure Row where
  path : Option (List Char)
  uri : Option (List Char)
  mtime : Nat
deriving DecidableEq

/-- The file may not be there, or be there without the table. -/
inductive Database
  | missing
  | noTable
  | table (rows : List Row)
deriving DecidableEq

def Database.rows : Database → List Row
  | .table rows => rows
  | .missing | .noTable => []

/-- A statement on a table that is not there is refused. -/
def Database.onTable (f : List Row → List Row) : Database → Database
  | .table rows => .table (f rows)
  | .missing => .missing
  | .noTable => .noTable

abbrev Answers := Nat → Stepping.Result (Option (List Char))

/-- What SQLite does for a text that is another statement than the one meant: when
it is run at once, and, unless it is refused, step by step with a reset after each
error. `likeLimit` bounds the bytes of a pattern; `busy` is how often a step finds
the file locked. A text that came through D-Bus is never too long for a statement. -/
structure Sqlite where
  likeLimit : Nat
  busy : Nat
  exec : List Char → Database → Database
  steps : List Char → Database → Option Answers

def deleteWhere : List Char := "delete from jpegthumbnails where Path = ".toList ++ [Sql.apostrophe]

def selectWhere : List Char := "select URI from jpegthumbnails where Path = ".toList ++ [Sql.apostrophe]

def insertValues : List Char := "insert into jpegthumbnails (Path, URI, MTime) values (".toList ++ [Sql.apostrophe]

def comma : List Char := [',', ' ']

def whereText (head path : List Char) : List Char := head ++ (path ++ [Sql.apostrophe])

def insertText (path uri : List Char) (mtime : UInt64) : List Char :=
  insertValues ++ (path ++ Sql.apostrophe :: (comma ++ (Sql.apostrophe :: (uri ++ Sql.apostrophe ::
    (comma ++ ((toString mtime.toNat).toList ++ [')']))))))

def readWhere (head text : List Char) : Option (List Char) :=
  (text.dropPrefix? head).bind fun text =>
    (Sql.scanLiteral text).bind fun path => if path.2 = [] then some path.1 else none

def readNumber (text : List Char) : Option Nat :=
  if text.getLast? = some ')' ∧ text.dropLast.all Char.isDigit = true then
    some (Nat.ofDigitChars 10 text.dropLast 0)
  else none

def readValues (text : List Char) : Option Row :=
  (text.dropPrefix? insertValues).bind fun text =>
    (Sql.scanLiteral text).bind fun path =>
      (path.2.dropPrefix? (comma ++ [Sql.apostrophe])).bind fun text =>
        (Sql.scanLiteral text).bind fun uri =>
          (uri.2.dropPrefix? comma).bind fun text =>
            (readNumber text).map fun mtime => ⟨some path.1, some uri.1, mtime⟩

namespace Sqlite
variable (db : Sqlite)

def delete (text : List Char) (d : Database) : Database :=
  match readWhere deleteWhere text with
  | some path => d.onTable fun rows => rows.filter fun row => row.path ≠ some path
  | none => db.exec text d

def insert (text : List Char) (d : Database) : Database :=
  match readValues text with
  | some row => d.onTable fun rows => rows ++ [row]
  | none => db.exec text d

/-- The statement of `get_orig`, if it can be prepared. -/
def prepareSelect (text : List Char) (d : Database) : Option Answers :=
  match readWhere selectWhere text, d with
  | some path, .table rows =>
    some (Stepping.rows db.busy ((rows.filter fun row => row.path = some path).map Row.uri))
  | some _, _ => none
  | none, d => db.steps text d

/-- What `get_orig` makes of a row: the first text ends its loop. -/
def firstText (_ column : Option (List Char)) : Option (List Char) × Bool := (column, column.isSome)

def getOrig (fuel : Nat) (d : Database) (path : List Char) : Option (Option (List Char)) :=
  match d with
  | .missing => some none
  | d =>
    match db.prepareSelect (whereText selectWhere path) d with
    | none => some none
    | some answers => Stepping.run firstText answers fuel none

/-- The part of a successful `out` that keeps the table. It is only made together
with the file. -/
def out (d : Database) (filen uri : List Char) (mtime : UInt64) : Database :=
  let d := match d with
    | .missing => .table []
    | d => d
  db.insert (insertText filen uri mtime) (db.delete (whereText deleteWhere filen) d)

end Sqlite

/-- A path as `g_build_filename` prints it. -/
def pathText (path : Path) : List Char := path.flatMap fun component => '/' :: component.toList

/-- The path of a JPEG thumbnail. -/
def thumbText (env : CacheEnv) (type : HildonThumbnailPluginOutType) (uri : String) : List Char :=
  pathText ((hildonThumbnailUtilGetThumbPaths env uri false).file type)

section Paths
variable {env : CacheEnv} {s t : HildonThumbnailPluginOutType} {u v : String}

theorem thumbText_eq (env : CacheEnv) (t : HildonThumbnailPluginOutType) (u : String) : thumbText env t u =
    pathText env.home ++
      ("/.thumbnails/".toList ++ (t.dirName.toList ++ '/' :: ((env.md5 u).toList ++ ".jpeg".toList))) := by
  rw [thumbText, getThumbPaths_file, pathText, pathText, List.flatMap_append]
  simp [digestName]

theorem dirName_text_inj {p q : List Char} (h : s.dirName.toList ++ '/' :: p = t.dirName.toList ++ '/' :: q) :
    s = t ∧ p = q := by
  cases s <;> cases t <;> simp [HildonThumbnailPluginOutType.dirName] at h ⊢ <;> exact h

theorem thumbText_inj (h : thumbText env s u = thumbText env t v) : s = t ∧ env.md5 u = env.md5 v := by
  rw [thumbText_eq, thumbText_eq] at h
  obtain ⟨hdir, hname⟩ := dirName_text_inj (List.append_cancel_left (List.append_cancel_left h))
  exact ⟨hdir, String.toList_injective (List.append_cancel_right hname)⟩

theorem apostrophe_notMem_thumbText : Sql.apostrophe ∉ thumbText env t u ↔
    (∀ component ∈ env.home, Sql.apostrophe ∉ component.toList) ∧ Sql.apostrophe ∉ (env.md5 u).toList := by
  have hdir : Sql.apostrophe ∉ "/.thumbnails/".toList ∧ Sql.apostrophe ∉ t.dirName.toList ∧ Sql.apostrophe ≠ '/' ∧
      Sql.apostrophe ∉ ".jpeg".toList := by
    cases t <;> decide
  obtain ⟨hthumbnails, hflavour, hslash, hjpeg⟩ := hdir
  have hhome : Sql.apostrophe ∉ pathText env.home ↔ ∀ component ∈ env.home, Sql.apostrophe ∉ component.toList := by
    simp [pathText, hslash]
  rw [thumbText_eq, List.mem_append, List.mem_append, List.mem_append, List.mem_cons, List.mem_append,
    not_or, hhome]
  simp only [hthumbnails, hflavour, hslash, hjpeg, false_or, or_false]

end Paths

section Reading
variable {head path uri p u : List Char} {mtime : UInt64}

theorem dropPrefix?_self_append (p text : List Char) : (p ++ text).dropPrefix? p = some text :=
  List.dropPrefix?_append_of_beq text (beq_self_eq_true p)

theorem unquote_digits (n : Nat) : Sql.unquote (toString n).toList = some (toString n).toList := by
  apply Sql.unquote_of_forall_ne
  intro c hc
  rw [Nat.toString_eq_repr, Nat.toList_repr] at hc
  have hdigit : c.isDigit = true := Nat.isDigit_of_mem_toDigits (by decide) (by decide) hc
  rintro rfl
  exact absurd hdigit (by decide)

/-- A path whose apostrophes are paired is read as the text it stands for, any
other is not read at all. -/
theorem readWhere_whereText (head path : List Char) : readWhere head (whereText head path) = Sql.unquote path := by
  rw [readWhere, whereText, dropPrefix?_self_append, Option.bind_some]
  cases h : Sql.unquote path with
  | some p =>
    rw [Sql.scanLiteral_unquote h (by simp), Option.bind_some, if_pos rfl]
  | none =>
    rw [Option.bind_eq_none_iff]
    intro r hr
    obtain ⟨y, hy⟩ := Sql.scanLiteral_unclosed h (by simp) hr
    exact if_neg (by simp [hy])

theorem readNumber_digits (n : Nat) : readNumber ((toString n).toList ++ [')']) = some n := by
  have hdigits : (toString n).toList.all Char.isDigit = true := by
    rw [List.all_eq_true]
    intro c hc
    rw [Nat.toString_eq_repr, Nat.toList_repr] at hc
    exact Nat.isDigit_of_mem_toDigits (by decide) (by decide) hc
  rw [readNumber, List.dropLast_concat, if_pos ⟨by simp, hdigits⟩, Nat.toString_eq_repr, Nat.toList_repr,
    Nat.ofDigitChars_ten_toDigits]

theorem readNumber_eq_none {text : List Char} (h : Sql.apostrophe ∈ text) : readNumber text = none := by
  refine if_neg ?_
  rintro ⟨hlast, hdigits⟩
  obtain ⟨init, rfl⟩ : ∃ init, text = init ++ [')'] := List.getLast?_eq_some_iff.mp hlast
  rw [List.dropLast_concat, List.all_eq_true] at hdigits
  have hmem : Sql.apostrophe ∈ init := by
    rcases List.mem_append.mp h with hinit | hlast
    · exact hinit
    · exact absurd (List.mem_singleton.mp hlast) (by decide)
  exact absurd (hdigits _ hmem) (by decide)

theorem readValues_path (hpath : Sql.unquote path = some p) : readValues (insertText path uri mtime) =
    (Sql.scanLiteral (uri ++ Sql.apostrophe :: (comma ++ ((toString mtime.toNat).toList ++ [')'])))).bind fun uri =>
      (uri.2.dropPrefix? comma).bind fun text =>
        (readNumber text).map fun mtime => ⟨some p, some uri.1, mtime⟩ := by
  have hhead (rest : List Char) : (comma ++ rest).head? ≠ some Sql.apostrophe := by
    rw [comma, List.cons_append, List.head?_cons]
    decide
  have hcomma (rest : List Char) :
      (comma ++ Sql.apostrophe :: rest).dropPrefix? (comma ++ [Sql.apostrophe]) = some rest := by
    rw [← List.singleton_append, ← List.append_assoc, dropPrefix?_self_append]
  rw [readValues, insertText, dropPrefix?_self_append, Option.bind_some,
    Sql.scanLiteral_unquote hpath (hhead _), Option.bind_some, hcomma, Option.bind_some]

theorem readValues_paired (hpath : Sql.unquote path = some p) (huri : Sql.unquote uri = some u) :
    readValues (insertText path uri mtime) = some ⟨some p, some u, mtime.toNat⟩ := by
  rw [readValues_path hpath, Sql.scanLiteral_unquote huri (by simp [comma, Sql.apostrophe]), Option.bind_some,
    dropPrefix?_self_append, Option.bind_some, readNumber_digits, Option.map_some]

/-- A single apostrophe leaves another where the number should be. -/
theorem readValues_unpaired (hpath : Sql.unquote path = some p) (huri : Sql.unquote uri = none) :
    readValues (insertText path uri mtime) = none := by
  have hnumber : Sql.apostrophe ∉ comma ++ ((toString mtime.toNat).toList ++ [')']) := by
    have hdigits := Sql.unquote_eq_self_iff.mp (unquote_digits mtime.toNat)
    simp only [List.mem_append, not_or]
    exact ⟨by decide, hdigits, by decide⟩
  rw [readValues_path hpath, Option.bind_eq_none_iff]
  intro r hr
  obtain ⟨y, hy⟩ := Sql.scanLiteral_unclosed huri hnumber hr
  rw [Option.bind_eq_none_iff]
  intro text htext
  obtain ⟨_, happend, hbeq⟩ := List.dropPrefix?_eq_some_iff.mp htext
  obtain rfl := eq_of_beq hbeq
  have hmem : Sql.apostrophe ∈ comma ++ text := by
    rw [← happend, hy]
    exact List.mem_append_right _ List.mem_cons_self
  have htail := (List.mem_append.mp hmem).resolve_left (by decide)
  rw [readNumber_eq_none htail, Option.map_none]

end Reading

section Statements
variable {db : Sqlite} {d : Database} {filen uri path p u : List Char} {mtime : UInt64}

/-- The rows with the entry of one path in place of the earlier ones. -/
def stored (rows : List Row) (path uri : List Char) (mtime : UInt64) : List Row :=
  rows.filter (fun row => row.path ≠ some path) ++ [⟨some path, some uri, mtime.toNat⟩]

theorem delete_paired (h : Sql.unquote filen = some p) : db.delete (whereText deleteWhere filen) d =
    d.onTable fun rows => rows.filter fun row => row.path ≠ some p := by
  rw [Sqlite.delete, readWhere_whereText, h]

theorem delete_unpaired (h : Sql.unquote filen = none) :
    db.delete (whereText deleteWhere filen) d = db.exec (whereText deleteWhere filen) d := by
  rw [Sqlite.delete, readWhere_whereText, h]

/-- The table that `out` finds or makes. -/
def Database.opened : Database → Database
  | .missing => .table []
  | .noTable => .noTable
  | .table rows => .table rows

theorem Database.opened_table (h : d ≠ .noTable) : d.opened = .table d.rows := by
  cases d with
  | missing => rfl
  | noTable => exact absurd rfl h
  | table rows => rfl

theorem Sqlite.out_opened : db.out d filen uri mtime =
    db.insert (insertText filen uri mtime) (db.delete (whereText deleteWhere filen) d.opened) := by
  cases d <;> rfl

theorem out_paired (hfilen : Sql.unquote filen = some p) (huri : Sql.unquote uri = some u) :
    db.out d filen uri mtime = d.opened.onTable fun rows => stored rows p u mtime := by
  rw [Sqlite.out_opened, delete_paired hfilen, Sqlite.insert, readValues_paired hfilen huri]
  cases d.opened <;> rfl

end Statements

end HildonThumbnail.JpegDb
