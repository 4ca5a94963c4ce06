import Mathlib.Logic.Function.Basic
import HildonThumbnail.OutPlugin.JpegDatabase

/-! What `get_orig` of the JPEG plugin finds after a successful `out`
(daemon/plugins/gdkpixbuf-jpeg-out-plugin.c). -/

namespace HildonThumbnail.JpegDb

/-- `get_orig` comes to its end and answers this. -/
def Gives (db : Sqlite) (d : Database) (path : List Char) (orig : Option (List Char)) : Prop :=
  ∃ fuel, db.getOrig fuel d path = some orig

/-- The plugin finds the URI again under the path, and for every other path what it
found before. -/
structure Recalls (db : Sqlite) (before after : Database) (filen uri : List Char) : Prop where
  orig : Gives db after filen (some uri)
  others : ∀ q, q ≠ filen → ∀ orig, Gives db after q orig ↔ Gives db before q orig

section RoundTrip
variable {db : Sqlite} {d : Database} {rows : List Row} {filen uri path p u : List Char} {mtime : UInt64}
  {orig : Option (List Char)}

theorem visitAll_firstText (columns : List (Option (List Char))) :
    Stepping.visitAll Sqlite.firstText none columns = columns.findSome? id := by
  induction columns with
  | nil => rfl
  | cons column columns ih =>
    rw [Stepping.visitAll, Sqlite.firstText]
    cases column with
    | none => exact ih
    | some text => rfl

theorem gives_paired (h : Sql.unquote path = some p) : Gives db d path orig ↔
    orig = (d.rows.filter fun row => row.path = some p).findSome? Row.uri := by
  cases d with
  | missing => simp [Gives, Sqlite.getOrig, Database.rows, eq_comm]
  | noTable => simp [Gives, Sqlite.getOrig, Sqlite.prepareSelect, readWhere_whereText, h, Database.rows, eq_comm]
  | table rows =>
    have hsteps : db.prepareSelect (whereText selectWhere path) (.table rows) =
        some (Stepping.rows db.busy ((rows.filter fun row => row.path = some p).map Row.uri)) := by
      simp [Sqlite.prepareSelect, readWhere_whereText, h]
    simp only [Gives, Sqlite.getOrig, hsteps, Stepping.run_rows_iff, visitAll_firstText, List.findSome?_map]
    rfl

theorem filter_deleted (rows : List Row) (p : List Char) :
    (rows.filter fun row => row.path ≠ some p).filter (fun row => row.path = some p) = [] := by
  rw [List.filter_filter, List.filter_eq_nil_iff]
  simp

theorem gives_stored_self (h : Sql.unquote filen = some p) :
    Gives db (.table (stored rows p u mtime)) filen orig ↔ orig = some u := by
  rw [gives_paired h, Database.rows, stored, List.filter_append, filter_deleted, List.nil_append]
  simp

theorem gives_stored_other {q g : List Char} (hq : Sql.unquote q = some g) (hne : g ≠ p) :
    Gives db (.table (stored rows p u mtime)) q orig ↔ Gives db (.table rows) q orig := by
  have hkept : (rows.filter fun row => row.path ≠ some p).filter (fun row => row.path = some g) =
      rows.filter fun row => row.path = some g := by
    rw [List.filter_filter]
    refine List.filter_congr fun row _ => ?_
    by_cases hrow : row.path = some g
    · simp [hrow, hne]
    · simp [hrow]
  have hlast : [(⟨some p, some u, mtime.toNat⟩ : Row)].filter (fun row => row.path = some g) = [] := by
    simp [Ne.symm hne]
  rw [gives_paired hq, gives_paired hq, Database.rows, stored, List.filter_append, hkept, hlast, List.append_nil,
    Database.rows]

theorem gives_opened (h : Sql.unquote path = some p) : Gives db d.opened path orig ↔ Gives db d path orig := by
  rw [gives_paired h, gives_paired h]
  cases d <;> rfl

theorem recalls_stored_iff (hd : d ≠ .noTable) (hfilen : Sql.unquote filen = some p)
    (huri : Sql.unquote uri = some u) :
    Recalls db d (.table (stored d.rows p u mtime)) filen uri ↔
      Sql.apostrophe ∉ uri ∧ ∀ q, Sql.unquote q = none → ∀ orig,
        Gives db (.table (stored d.rows p u mtime)) q orig ↔ Gives db d q orig := by
  have hplain : some uri = some u ↔ Sql.apostrophe ∉ uri := by
    rw [← Sql.unquote_eq_self_iff, huri, eq_comm]
  constructor
  · rintro ⟨horig, hothers⟩
    refine ⟨hplain.mp ((gives_stored_self hfilen).mp horig), fun q hq => hothers q ?_⟩
    rintro rfl
    rw [hfilen] at hq
    cases hq
  · rintro ⟨huri', hbroken⟩
    refine ⟨(gives_stored_self hfilen).mpr (hplain.mpr huri'), fun q hq orig => ?_⟩
    cases hread : Sql.unquote q with
    | none => exact hbroken q hread orig
    | some g =>
      have hne : g ≠ p := by
        rintro rfl
        exact hq ((Sql.eq_quote hread).trans (Sql.eq_quote hfilen).symm)
      rw [gives_stored_other hread hne, ← Database.opened_table hd, gives_opened hread]

theorem not_recalls_noTable (hfilen : Sql.unquote filen = some p) : ¬ Recalls db d .noTable filen uri := by
  intro h
  have horig := (gives_paired hfilen).mp h.orig
  cases horig

/-- Where its apostrophes are paired, a URI comes back just if it has none. With a
single one in the URI or in the path SQLite has to do by itself what is wanted,
for other statements than the ones meant. -/
theorem recalls_out_iff : Recalls db d (db.out d filen uri mtime) filen uri ↔
    match Sql.unquote filen, Sql.unquote uri with
    | some p, some u => d ≠ .noTable ∧ Sql.apostrophe ∉ uri ∧ ∀ q, Sql.unquote q = none → ∀ orig,
        Gives db (.table (stored d.rows p u mtime)) q orig ↔ Gives db d q orig
    | some p, none => Recalls db d (db.exec (insertText filen uri mtime)
        (d.opened.onTable fun rows => rows.filter fun row => row.path ≠ some p)) filen uri
    | none, _ => Recalls db d (db.insert (insertText filen uri mtime)
        (db.exec (whereText deleteWhere filen) d.opened)) filen uri := by
  cases hfilen : Sql.unquote filen with
  | none => rw [Sqlite.out_opened, delete_unpaired hfilen]
  | some p =>
    cases huri : Sql.unquote uri with
    | none =>
      rw [Sqlite.out_opened, delete_paired hfilen, Sqlite.insert, readValues_unpaired hfilen huri]
    | some u =>
      rw [out_paired hfilen huri]
      by_cases hd : d = .noTable
      · subst hd
        exact iff_of_false (not_recalls_noTable hfilen) fun h => h.1 rfl
      · rw [Database.opened_table hd]
        exact (recalls_stored_iff hd hfilen huri).trans (and_iff_right hd).symm

/-- When SQLite refuses the text of the insertion, the row that was deleted to be
stored anew is not stored. -/
theorem not_recalls_refused (hfilen : Sql.unquote filen = some p) (huri : Sql.unquote uri = none)
    (hrefused : ∀ d, db.exec (insertText filen uri mtime) d = d) :
    ¬ Recalls db d (db.out d filen uri mtime) filen uri := by
  rw [recalls_out_iff, hfilen, huri]
  intro h
  have horig := (gives_paired hfilen).mp h.orig
  rw [hrefused] at horig
  cases d with
  | missing => cases horig
  | noTable => cases horig
  | table rows =>
    rw [Database.opened, Database.onTable, Database.rows, filter_deleted] at horig
    cases horig

end RoundTrip

section Thumbnails
variable (env : CacheEnv) (db : Sqlite) (d : Database) (type : HildonThumbnailPluginOutType) (mtime : UInt64)
  (uri : String)

/-- The thumbnail of a URI leads back to it, and every other thumbnail to where it
led before. -/
def LeadsBack : Prop :=
  Recalls db d (db.out d (thumbText env type uri) uri.toList mtime) (thumbText env type uri) uri.toList

/-- A call for what the table says already changes no answer of any SQLite. -/
theorem leadsBack_again (hd : d ≠ .noTable) (hfilen : Sql.apostrophe ∉ thumbText env type uri)
    (huri : Sql.apostrophe ∉ uri.toList) :
    LeadsBack env db (db.out d (thumbText env type uri) uri.toList mtime) type mtime uri := by
  have hpath := Sql.unquote_eq_self_iff.mpr hfilen
  have horig := Sql.unquote_eq_self_iff.mpr huri
  have hagain (rows : List Row) : stored (stored rows (thumbText env type uri) uri.toList mtime)
      (thumbText env type uri) uri.toList mtime = stored rows (thumbText env type uri) uri.toList mtime := by
    simp [stored, List.filter_filter]
  rw [LeadsBack, out_paired hpath horig, Database.opened_table hd, Database.onTable, out_paired hpath horig,
    Database.opened, Database.onTable, hagain]
  exact ⟨(gives_stored_self hpath).mpr rfl, fun _ _ _ => Iff.rfl⟩

/-- On the texts that come up below SQLite does nothing else: they are not SQL. -/
def refusing : Sqlite := ⟨50000, 0, fun _ d => d, fun _ _ => none⟩

def swapQuote (c : Char) : Char := if c = Sql.apostrophe then 'q' else if c = 'q' then Sql.apostrophe else c

theorem swapQuote_involutive : Function.Involutive swapQuote := by
  intro c
  by_cases hquote : c = Sql.apostrophe
  · simp [swapQuote, hquote]
  · by_cases hq : c = 'q'
    · simp [swapQuote, hq]
    · simp [swapQuote, hquote, hq]

/-- A digest without an apostrophe for a URI without a q. -/
def swapped (uri : String) : String := String.ofList (uri.toList.map swapQuote)

theorem swapped_injective : Function.Injective swapped := by
  intro u v h
  have hmap := String.ofList_injective h
  exact String.toList_injective (swapQuote_involutive.injective.list_map hmap)

variable {env d type mtime uri} in
theorem not_leadsBack_refusing (hfilen : Sql.apostrophe ∉ thumbText env type uri)
    (huri : Sql.unquote uri.toList = none) : ¬ LeadsBack env refusing d type mtime uri :=
  not_recalls_refused (Sql.unquote_eq_self_iff.mpr hfilen) huri fun _ => rfl

def quotedText : List Char := "file:///it".toList ++ Sql.apostrophe :: "s.jpg".toList

end Thumbnails

end HildonThumbnail.JpegDb
