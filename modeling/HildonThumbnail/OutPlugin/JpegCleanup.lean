import HildonThumbnail.OutPlugin.JpegIndex

/-! What the JPEG plugin's cleanup removes, with the prefix spliced into its
statements as it is (`hildon_thumbnail_outplugin_cleanup`). -/

namespace HildonThumbnail

namespace Jpeg

open JpegDb (Row Database Sqlite Answers pathText)

def selectHead : List Char := "select Path from jpegthumbnails where ".toList

def deleteHead : List Char := "delete from jpegthumbnails where ".toList

def uriLike : List Char := "URI LIKE ".toList ++ [Sql.apostrophe]

def andTime : List Char := ' ' :: ("and MTime <= ".toList ++ [Sql.apostrophe])

/-- The condition of both statements, as it is printed. -/
def condition (uriMatch : String) (since : UInt32) : List Char :=
  uriLike ++
    (uriMatch.toList ++ '%' :: Sql.apostrophe :: (andTime ++ ((toString since.toNat).toList ++ [Sql.apostrophe])))

/-- The pattern and the time of a statement. -/
def readCondition (head text : List Char) : Option (List Char × List Char) :=
  (text.dropPrefix? (head ++ uriLike)).bind fun text =>
    (Sql.scanLiteral text).bind fun uri =>
      (uri.2.dropPrefix? andTime).bind fun text =>
        (Sql.scanLiteral text).bind fun time => if time.2 = [] then some (uri.1, time.1) else none

/-- The column MTime has no type, so that it has no affinity. -/
def satisfies (pattern time : List Char) (row : Row) : Bool :=
  row.uri.any (Sql.like pattern) && (Sql.Value.integer row.mtime).le (.text (String.ofList time))

def fitsLike (db : Sqlite) (pattern : List Char) : Bool := (String.ofList pattern).utf8ByteSize ≤ db.likeLimit

/-- LIKE fails on the first row when its pattern is too long. -/
def selectPaths (db : Sqlite) (text : List Char) (d : Database) : Option Answers :=
  match readCondition selectHead text, d with
  | some (pattern, time), .table rows =>
    if rows = [] ∨ fitsLike db pattern then
      some (Stepping.rows db.busy ((rows.filter (satisfies pattern time)).map Row.path))
    else some fun n => if n < db.busy then .busy else .error
  | some _, _ => none
  | none, d => db.steps text d

def deleteRows (db : Sqlite) (text : List Char) (d : Database) : Database :=
  match readCondition deleteHead text with
  | some (pattern, time) =>
    d.onTable fun rows => if fitsLike db pattern then rows.filter fun row => !satisfies pattern time row else rows
  | none => db.exec text d

/-- The names that `????????????????????????????????.jpeg` stands for. -/
def isMarkerName (name : String) : Bool :=
  name.toList.length = 37 ∧ ".jpeg".toList.isSuffixOf name.toList ∧ name.toList.head? ≠ some '.'

def removeMarkers (env : CacheEnv) (files : Files) : Files :=
  KeyTable.removeIf (fun path _ =>
    gFileGetParent path = env.home ++ [".thumbnails", "fail", "hildon-thumbnail"] &&
      isMarkerName (gFileGetBasename path)) files

def gUnlink (files : Files) (text : List Char) : Files :=
  KeyTable.removeIf (fun path _ => pathText path = text) files

/-- What the loop over the paths makes of a row; a NULL is no path. -/
def unlinkPath (files : Files) (column : Option (List Char)) : Files × Bool :=
  (match column with
    | some text => gUnlink files text
    | none => files, false)

def unlinkSelected (fuel : Nat) (answers : Option Answers) (files : Files) : Option Files :=
  match answers with
  | none => some files
  | some answers => Stepping.run unlinkPath answers fuel files

/-- `fuel` bounds the turns of the loop; without meta.db nothing is asked. -/
def cleanup (fuel : Nat) (env : CacheEnv) (db : Sqlite) (c : JpegCache) (uriMatch : String) (since : UInt32) :
    Option JpegCache :=
  let files := removeMarkers env c.files
  match c.db with
  | .missing => some { c with files := files }
  | d =>
    (unlinkSelected fuel (selectPaths db (selectHead ++ condition uriMatch since) d) files).map fun files =>
      ⟨files, deleteRows db (deleteHead ++ condition uriMatch since) d⟩

section Condition
variable {uriMatch : String} {since : UInt32} {pattern head : List Char}

theorem head?_andTime (text : List Char) : (andTime ++ text).head? ≠ some Sql.apostrophe := by
  rw [andTime, List.cons_append, List.head?_cons]
  decide

theorem dropPrefix?_condition (head : List Char) :
    (head ++ condition uriMatch since).dropPrefix? (head ++ uriLike) =
    some
      (uriMatch.toList ++
        '%' :: Sql.apostrophe :: (andTime ++ ((toString since.toNat).toList ++ [Sql.apostrophe]))) := by
  rw [condition, ← List.append_assoc, JpegDb.dropPrefix?_self_append]

theorem readCondition_paired (h : Sql.unquote uriMatch.toList = some pattern) :
    readCondition head (head ++ condition uriMatch since) =
      some (pattern ++ ['%'], (toString since.toNat).toList) := by
  have hpattern : Sql.unquote (uriMatch.toList ++ ['%']) = some (pattern ++ ['%']) := by
    rw [Sql.unquote_concat (by decide), h, Option.map_some]
  have huri (rest : List Char) : Sql.scanLiteral (uriMatch.toList ++ '%' :: Sql.apostrophe :: (andTime ++ rest)) =
      some (pattern ++ ['%'], andTime ++ rest) := by
    rw [← Sql.scanLiteral_unquote hpattern (head?_andTime rest), List.append_assoc, List.singleton_append]
  have htime : Sql.scanLiteral ((toString since.toNat).toList ++ [Sql.apostrophe]) =
      some ((toString since.toNat).toList, []) :=
        Sql.scanLiteral_unquote (JpegDb.unquote_digits since.toNat) (by simp)
  rw [readCondition, dropPrefix?_condition, Option.bind_some, huri, Option.bind_some,
    JpegDb.dropPrefix?_self_append, Option.bind_some, htime, Option.bind_some, if_pos rfl]

theorem readCondition_broken (h : Sql.unquote uriMatch.toList = none) :
    readCondition head (head ++ condition uriMatch since) = none := by
  have hpercent : '%' ≠ Sql.apostrophe := by decide
  rw [readCondition, dropPrefix?_condition, Option.bind_some]
  generalize (toString since.toNat).toList ++ [Sql.apostrophe] = digits
  obtain ⟨x, y, hscan⟩ : ∃ x y, Sql.scanLiteral (uriMatch.toList ++ '%' :: Sql.apostrophe :: (andTime ++ digits)) =
      some (x, y ++ '%' :: Sql.apostrophe :: (andTime ++ digits)) := Sql.scanLiteral_closed h hpercent
  rw [hscan, Option.bind_some, Option.bind_eq_none_iff]
  intro text htext
  obtain ⟨_, happend, hbeq⟩ := List.dropPrefix?_eq_some_iff.mp htext
  obtain rfl := eq_of_beq hbeq
  obtain ⟨z, rfl⟩ : ∃ z, text = z ++ '%' :: Sql.apostrophe :: (andTime ++ digits) := by
    rcases List.append_eq_append_iff.mp happend with ⟨z, hz, hrest⟩ | ⟨z, hz, hrest⟩
    · cases z with
      | nil => exact ⟨[], by simpa using hrest.symm⟩
      | cons d z =>
        obtain ⟨rfl, _⟩ := List.cons.inj hrest
        have hmem : '%' ∈ andTime := hz ▸ List.mem_append_right _ List.mem_cons_self
        exact absurd hmem (by decide)
    · exact ⟨z, hrest⟩
  rw [Option.bind_eq_none_iff]
  intro time htime
  refine if_neg ?_
  rw [andTime, List.cons_append] at htime
  exact Sql.scanLiteral_rest_ne_nil hpercent (by decide) htime

end Condition

/-- The entries that a cleanup is asked to remove. -/
def Wanted (uriMatch : String) (since : UInt32) (row : Row) : Prop :=
  (row.uri.any fun uri => uriMatch.toList.isPrefixOf uri) = true ∧ row.mtime ≤ since.toNat

instance (uriMatch : String) (since : UInt32) (row : Row) : Decidable (Wanted uriMatch since row) :=
  inferInstanceAs (Decidable (_ ∧ _))

/-- The wanted entries are gone with their files, and everything else is left. -/
structure CleanedUp (env : CacheEnv) (uriMatch : String) (since : UInt32) (c c' : JpegCache) : Prop where
  rows : c'.db.rows = c.db.rows.filter fun row => ¬ Wanted uriMatch since row
  gone : ∀ row ∈ c.db.rows, Wanted uriMatch since row → ∀ path, row.path = some (pathText path) →
    c'.files.lookup path = none
  kept : ∀ (f : OutFormat) t u,
    (∀ row ∈ c.db.rows, row.path = some (pathText (f.thumb env t u)) → ¬ Wanted uriMatch since row) →
      c'.files.lookup (f.thumb env t u) = c.files.lookup (f.thumb env t u)

section Removed
variable {env : CacheEnv} {db : Sqlite} {c : JpegCache} {rows : List Row} {uriMatch : String} {since : UInt32}
  {pattern : List Char} {path : Path}

theorem lookup_removeMarkers_thumb (files : Files) (f : OutFormat) (t : HildonThumbnailPluginOutType) (u : String) :
    (removeMarkers env files).lookup (f.thumb env t u) = files.lookup (f.thumb env t u) := by
  have hdir : gFileGetParent (f.thumb env t u) ≠ env.home ++ [".thumbnails", "fail", "hildon-thumbnail"] := by
    simp [gFileGetParent, OutFormat.thumb]
  rw [removeMarkers, KeyTable.lookup_removeIf]
  cases files.lookup (f.thumb env t u) <;> simp [hdir]

theorem lookup_gUnlink (files : Files) (text : List Char) (path : Path) :
    (gUnlink files text).lookup path = if pathText path = text then none else files.lookup path := by
  rw [gUnlink, KeyTable.lookup_removeIf]
  by_cases h : pathText path = text
  · cases files.lookup path <;> simp [h]
  · cases files.lookup path <;> simp [h]

/-- The loop over the selected rows removes the files that they name. -/
theorem lookup_visitAll (columns : List (Option (List Char))) (files : Files) (path : Path) :
    (Stepping.visitAll unlinkPath files columns).lookup path =
      if some (pathText path) ∈ columns then none else files.lookup path := by
  induction columns generalizing files with
  | nil => rfl
  | cons column columns ih =>
    rw [Stepping.visitAll, if_neg (by simp [unlinkPath]), ih]
    cases column with
    | none => simp [unlinkPath]
    | some text =>
      rw [unlinkPath, lookup_gUnlink]
      by_cases hrest : some (pathText path) ∈ columns
      · simp [hrest]
      · by_cases hfirst : pathText path = text <;> simp [hrest, hfirst]

/-- A number is less than any text, whatever the text says. -/
theorem satisfies_eq (pattern time : List Char) :
    satisfies pattern time = fun row => row.uri.any (Sql.like pattern) := by
  funext row
  simp [satisfies, Sql.Value.le]

theorem cleanedUp_missing (files : Files) :
    CleanedUp env uriMatch since ⟨files, .missing⟩ ⟨removeMarkers env files, .missing⟩ where
  rows := rfl
  gone row hrow := by cases hrow
  kept f t u _ := lookup_removeMarkers_thumb files f t u

theorem cleanedUp_noTable (files : Files) :
    CleanedUp env uriMatch since ⟨files, .noTable⟩ ⟨removeMarkers env files, .noTable⟩ where
  rows := rfl
  gone row hrow := by cases hrow
  kept f t u _ := lookup_removeMarkers_thumb files f t u

/-- What LIKE selects is removed: that is right just if it selects what is wanted. -/
theorem cleanedUp_selected_iff (files : Files) (like : Row → Bool) :
    CleanedUp env uriMatch since ⟨files, .table rows⟩
        ⟨Stepping.visitAll unlinkPath (removeMarkers env files) ((rows.filter like).map Row.path),
          .table (rows.filter fun row => !like row)⟩ ↔
      ∀ row ∈ rows, like row = true ↔ Wanted uriMatch since row := by
  constructor
  · intro h row hrow
    have hmem : (row ∈ rows.filter fun row => !like row) ↔
      row ∈ rows.filter fun row => ¬ Wanted uriMatch since row := by
      rw [show (rows.filter fun row => !like row) = rows.filter fun row => ¬ Wanted uriMatch since row from h.rows]
    simp only [List.mem_filter, hrow, true_and, Bool.not_eq_true', decide_eq_true_eq] at hmem
    rw [← Bool.not_eq_false, hmem, not_not]
  · intro h
    refine ⟨List.filter_congr fun row hrow => ?_, fun row hrow hw path hpath => ?_, fun f t u hnot => ?_⟩
    · have hh := h row hrow
      by_cases hw : Wanted uriMatch since row
      · simp [hw, hh.mpr hw]
      · simpa [hw] using fun hl => hw (hh.mp hl)
    · rw [lookup_visitAll, if_pos]
      exact List.mem_map.mpr ⟨row, List.mem_filter.mpr ⟨hrow, (h row hrow).mpr hw⟩, hpath⟩
    · rw [lookup_visitAll, if_neg, lookup_removeMarkers_thumb]
      intro hmem
      obtain ⟨row, hrow, hpath⟩ := List.mem_map.mp hmem
      obtain ⟨hrow, hl⟩ := List.mem_filter.mp hrow
      exact hnot row hrow hpath ((h row hrow).mp hl)

/-- With a pattern that LIKE takes, both statements go by the same rows. -/
theorem cleanup_table_eq_iff (h : Sql.unquote uriMatch.toList = some pattern)
    (hfits : rows = [] ∨ fitsLike db (pattern ++ ['%'])) (files : Files) (c' : JpegCache) :
    (∃ fuel, cleanup fuel env db ⟨files, .table rows⟩ uriMatch since = some c') ↔
      c' = ⟨Stepping.visitAll unlinkPath (removeMarkers env files)
          ((rows.filter fun row => row.uri.any (Sql.like (pattern ++ ['%']))).map Row.path),
        .table (rows.filter fun row => !row.uri.any (Sql.like (pattern ++ ['%'])))⟩ := by
  have hkept : (if fitsLike db (pattern ++ ['%']) = true then
      rows.filter fun row => !row.uri.any (Sql.like (pattern ++ ['%'])) else rows) =
        rows.filter fun row => !row.uri.any (Sql.like (pattern ++ ['%'])) := by
    rcases hfits with rfl | hfits
    · simp
    · rw [if_pos hfits]
  simp only [cleanup, selectPaths, readCondition_paired h, if_pos hfits, unlinkSelected, deleteRows,
    Database.onTable, satisfies_eq, hkept, Option.map_eq_some_iff]
  constructor
  · rintro ⟨fuel, files', hrun, rfl⟩
    rw [(Stepping.run_rows_iff _ _ _ _).mp ⟨fuel, hrun⟩]
  · rintro rfl
    obtain ⟨fuel, hrun⟩ := (Stepping.run_rows_iff db.busy _ _ _).mpr rfl
    exact ⟨fuel, _, hrun, rfl⟩

/-- With any other every step fails, and the loop begins again. -/
theorem cleanup_table_eq_none (h : Sql.unquote uriMatch.toList = some pattern)
    (hfits : ¬ (rows = [] ∨ fitsLike db (pattern ++ ['%']))) (files : Files) (fuel : Nat) :
    cleanup fuel env db ⟨files, .table rows⟩ uriMatch since = none := by
  have hnever : Stepping.run unlinkPath (fun n => if n < db.busy then .busy else .error) fuel
      (removeMarkers env files) = none := by
    refine Stepping.run_error (fun n => ?_) fuel _
    split
    · exact .inr rfl
    · exact .inl rfl
  simp [cleanup, selectPaths, readCondition_paired h, if_neg hfits, unlinkSelected, hnever]

theorem cleanup_table_iff (h : Sql.unquote uriMatch.toList = some pattern) (files : Files) :
    (∃ fuel c', cleanup fuel env db ⟨files, .table rows⟩ uriMatch since = some c' ∧
        CleanedUp env uriMatch since ⟨files, .table rows⟩ c') ↔
      (rows = [] ∨ fitsLike db (pattern ++ ['%'])) ∧
        ∀ row ∈ rows, row.uri.any (Sql.like (pattern ++ ['%'])) = true ↔ Wanted uriMatch since row := by
  by_cases hfits : rows = [] ∨ fitsLike db (pattern ++ ['%']) = true
  · have hends (c' : JpegCache) :
        (∃ fuel, cleanup fuel env db ⟨files, .table rows⟩ uriMatch since = some c') ↔ c' = _ :=
      cleanup_table_eq_iff h hfits files c'
    rw [and_iff_right hfits, ← cleanedUp_selected_iff files]
    constructor
    · rintro ⟨fuel, c', hc', hclean⟩
      rwa [(hends c').mp ⟨fuel, hc'⟩] at hclean
    · intro hclean
      obtain ⟨fuel, hfuel⟩ := (hends _).mpr rfl
      exact ⟨fuel, _, hfuel, hclean⟩
  · refine iff_of_false ?_ fun hh => hfits hh.1
    rintro ⟨fuel, c', hc', _⟩
    rw [cleanup_table_eq_none h hfits] at hc'
    cases hc'

/-- A cleanup comes to its end and removes what it is asked to remove just if its
pattern is not too long for LIKE, or there is no row, and LIKE, which goes by the
pattern alone, selects the wanted entries; a prefix with a single apostrophe makes
other statements, which have to be right by themselves. -/
theorem cleanedUp_iff (env : CacheEnv) (db : Sqlite) (c : JpegCache) (uriMatch : String) (since : UInt32) :
    (∃ fuel c', cleanup fuel env db c uriMatch since = some c' ∧ CleanedUp env uriMatch since c c') ↔
      match Sql.unquote uriMatch.toList with
      | some pattern => (c.db.rows = [] ∨ fitsLike db (pattern ++ ['%'])) ∧
          ∀ row ∈ c.db.rows, row.uri.any (Sql.like (pattern ++ ['%'])) = true ↔ Wanted uriMatch since row
      | none => c.db = .missing ∨ ∃ fuel files',
          unlinkSelected fuel (db.steps (selectHead ++ condition uriMatch since) c.db) (removeMarkers env c.files) =
              some files' ∧
            CleanedUp env uriMatch since c ⟨files', db.exec (deleteHead ++ condition uriMatch since) c.db⟩ := by
  obtain ⟨files, d⟩ := c
  cases h : Sql.unquote uriMatch.toList with
  | some pattern =>
    cases d with
    | missing =>
      refine iff_of_true ⟨0, _, rfl, cleanedUp_missing files⟩ ⟨.inl rfl, fun row hrow => ?_⟩
      cases hrow
    | noTable =>
      have hrefused : cleanup 0 env db ⟨files, .noTable⟩ uriMatch since =
        some ⟨removeMarkers env files, .noTable⟩ := by
        simp [cleanup, selectPaths, deleteRows, readCondition_paired h, unlinkSelected, Database.onTable]
      refine iff_of_true ⟨0, _, hrefused, cleanedUp_noTable files⟩ ⟨.inl rfl, fun row hrow => ?_⟩
      cases hrow
    | table rows => exact cleanup_table_iff h files
  | none =>
    by_cases hd : d = .missing
    · subst hd
      exact iff_of_true ⟨0, _, rfl, cleanedUp_missing files⟩ (.inl rfl)
    · have hcleanup (fuel : Nat) : cleanup fuel env db ⟨files, d⟩ uriMatch since =
          (unlinkSelected fuel (db.steps (selectHead ++ condition uriMatch since) d) (removeMarkers env files)).map
            fun files' => ⟨files', db.exec (deleteHead ++ condition uriMatch since) d⟩ := by
        cases d with
        | missing => exact absurd rfl hd
        | noTable => simp [cleanup, selectPaths, deleteRows, readCondition_broken h]
        | table rows => simp [cleanup, selectPaths, deleteRows, readCondition_broken h]
      simp only [hcleanup, Option.map_eq_some_iff, hd, false_or]
      constructor
      · rintro ⟨fuel, c', ⟨files', hrun, rfl⟩, hclean⟩
        exact ⟨fuel, files', hrun, hclean⟩
      · rintro ⟨fuel, files', hrun, hclean⟩
        exact ⟨fuel, _, ⟨files', hrun, rfl⟩, hclean⟩

/-- A prefix without wildcards and apostrophes goes wrong for entries that are
newer, or whose URI begins with it only in other letters. -/
theorem cleanedUp_plain (hplain : ∀ ch ∈ uriMatch.toList, (ch ≠ '%' ∧ ch ≠ '_') ∧ ch ≠ Sql.apostrophe)
    (hfits : fitsLike db (uriMatch.toList ++ ['%'])) :
    (∃ fuel c', cleanup fuel env db c uriMatch since = some c' ∧ CleanedUp env uriMatch since c c') ↔
      ∀ row ∈ c.db.rows, ∀ uri, row.uri = some uri →
        uriMatch.toList.map Char.toLower <+: uri.map Char.toLower → Wanted uriMatch since row := by
  rw [cleanedUp_iff, Sql.unquote_of_forall_ne fun ch hch => (hplain ch hch).2]
  dsimp only
  rw [and_iff_right (.inr hfits)]
  refine forall₂_congr fun row _ => ?_
  cases huri : row.uri with
  | none => simp [Wanted, huri]
  | some uri =>
    simp only [Option.any_some, Sql.like_beginning fun ch hch => (hplain ch hch).1, Option.some.injEq, forall_eq']
    refine ⟨fun hl => hl.mp, fun hl => ⟨hl, fun hw => ?_⟩⟩
    obtain ⟨hbegins, _⟩ := hw
    rw [huri, Option.any_some, List.isPrefixOf_iff_prefix] at hbegins
    exact hbegins.map _

def sampleCache : JpegCache := outIndexed sampleEnv sampleDb ⟨∅, .missing⟩ 9 .large 9 "file:///b.jpg"

/-- An entry that is newer than `since` is removed too. -/
theorem cleanedUp_not_newer :
    ¬ ∀ (env : CacheEnv) (db : Sqlite) (c : JpegCache) (uriMatch : String) (since : UInt32),
    Function.Injective env.md5 → Agrees env c →
      ∃ fuel c', cleanup fuel env db c uriMatch since = some c' ∧ CleanedUp env uriMatch since c c' := by
  intro h
  have huri : Sql.apostrophe ∉ "file:///b.jpg".toList := by decide
  have hagrees : Agrees sampleEnv sampleCache :=
    (Agrees.empty sampleEnv).outIndexed Function.injective_id (plain_sampleEnv .large huri) huri 9 9
  have hrows : sampleCache.db = .table (JpegDb.stored [] _ _ 9) :=
    rows_outIndexed sampleDb (by simp) (plain_sampleEnv .large huri) huri 9 9
  have hplain : ∀ ch ∈ "file:///".toList, (ch ≠ '%' ∧ ch ≠ '_') ∧ ch ≠ Sql.apostrophe := by
    simp [Sql.apostrophe]
  have hclean := h sampleEnv sampleDb sampleCache "file:///" 5 Function.injective_id hagrees
  have hwanted := (cleanedUp_plain hplain (by decide)).mp hclean
  rw [hrows] at hwanted
  have hnew := hwanted _ List.mem_cons_self "file:///b.jpg".toList rfl (by decide)
  exact absurd hnew.2 (by decide)

end Removed

end Jpeg

end HildonThumbnail
