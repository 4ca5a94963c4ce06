import HildonThumbnail.Lib.Run
import HildonThumbnail.OutPlugin.JpegDatabase
import HildonThumbnail.Thumbnailer.Moves

/-! The index of the JPEG thumbnails (the table jpegthumbnails of
~/.thumbnails/meta.db): `out` keeps it, the moves of the thumbnailer do not. -/

namespace HildonThumbnail

/-- The files and meta.db. -/
structure JpegCache where
  files : Files
  db : JpegDb.Database

namespace Jpeg

variable (env : CacheEnv) (db : JpegDb.Sqlite)

/-- A successful `out`: the thumbnail and its row. -/
def outIndexed (c : JpegCache) (now : UInt64) (type : HildonThumbnailPluginOutType) (mtime : UInt64)
    (uri : String) :
    JpegCache where
  files := out env c.files now type mtime uri (.ok ())
  db := db.out c.db (JpegDb.thumbText env type uri) uri.toList mtime

inductive Call
  | out (now : UInt64) (type : HildonThumbnailPluginOutType) (mtime : UInt64) (uri : String)
  | move (fromUrls toUrls : List String)
  | copy (fromUrls toUrls : List String)
  | delete (urls : List String)

def step (c : JpegCache) : Call → Option JpegCache
  | .out now type mtime uri =>
    if Sql.apostrophe ∈ uri.toList then none else some (outIndexed env db c now type mtime uri)
  | .move fromUrls toUrls => some { c with files := thumbnailerMove env fromUrls toUrls c.files }
  | .copy fromUrls toUrls => some { c with files := thumbnailerCopy env fromUrls toUrls c.files }
  | .delete urls => some { c with files := thumbnailerDelete env urls c.files }

/-- Exactly one row for each JPEG thumbnail, and none without a file. -/
structure Indexed (c : JpegCache) : Prop where
  row_of_file : ∀ t u, gFileQueryExists c.files (OutFormat.jpeg.thumb env t u) = true →
    ∃ mtime, c.db.rows.filter (fun row => row.path = some (JpegDb.pathText (OutFormat.jpeg.thumb env t u))) =
      [⟨some (JpegDb.pathText (OutFormat.jpeg.thumb env t u)), some u.toList, mtime⟩]
  file_of_row : ∀ row ∈ c.db.rows, ∃ path, row.path = some (JpegDb.pathText path) ∧
    gFileQueryExists c.files path = true

/-- The calls that take no JPEG thumbnail away and add none, and those that store
a thumbnail under a path without an apostrophe. -/
def Keeps (c : JpegCache) : Call → Prop
  | .out _ type _ uri => Sql.apostrophe ∉ JpegDb.thumbText env type uri
  | .move fromUrls toUrls => ∀ pair ∈ fromUrls.zip toUrls, pair.1 = pair.2 ∨
      ∀ t, gFileQueryExists c.files (OutFormat.jpeg.thumb env t pair.1) = false
  | .copy fromUrls toUrls => ∀ pair ∈ fromUrls.zip toUrls, ∀ t,
      gFileQueryExists c.files (OutFormat.jpeg.thumb env t pair.1) = true →
        gFileQueryExists c.files (OutFormat.jpeg.thumb env t pair.2) = true
  | .delete urls => ∀ u ∈ urls, ∀ t, gFileQueryExists c.files (OutFormat.jpeg.thumb env t u) = false

section Same
variable {env} {files files' files'' : Files} {f : OutFormat} {s t : HildonThumbnailPluginOutType} {u v : String}

def JpegSame (env : CacheEnv) (files files' : Files) : Prop :=
  ∀ t u, gFileQueryExists files' (OutFormat.jpeg.thumb env t u) =
    gFileQueryExists files (OutFormat.jpeg.thumb env t u)

theorem JpegSame.refl (env : CacheEnv) (files : Files) : JpegSame env files files := fun _ _ => rfl

theorem JpegSame.trans (h : JpegSame env files files') (h' : JpegSame env files' files'') :
    JpegSame env files files'' :=
  fun t u => (h' t u).trans (h t u)

theorem JpegSame.foldl {α : Type} {op : Files → α → Files} {l : List α}
    (h : ∀ x ∈ l, ∀ files', JpegSame env files files' → JpegSame env files' (op files' x)) :
    JpegSame env files (l.foldl op files) := by
  induction l generalizing files with
  | nil => exact .refl env files
  | cons x l ih =>
    have hx := h x List.mem_cons_self files (.refl env files)
    exact hx.trans (ih fun y hy files' hs => h y (List.mem_cons_of_mem x hy) files' (hx.trans hs))

theorem png_thumb_ne : OutFormat.jpeg.thumb env t u ≠ OutFormat.png.thumb env s v := by
  intro h
  have hname : digestName env u OutFormat.jpeg.asPng = digestName env v OutFormat.png.asPng := by
    simp only [OutFormat.thumb, List.append_cancel_left_eq, List.cons.injEq] at h
    exact h.2.2.1
  cases OutFormat.digestName_format hname

theorem JpegSame.rename (h : f = .jpeg → u = v ∨ gFileQueryExists files (OutFormat.jpeg.thumb env s u) = false) :
    JpegSame env files (gRename files (f.thumb env s u) (f.thumb env s v)) := by
  intro t w
  cases f with
  | png => exact exists_gRename png_thumb_ne png_thumb_ne
  | jpeg =>
    rcases h rfl with rfl | h
    · exact exists_gRename_self
    · rw [gRename_missing h]

theorem JpegSame.copy (h : f = .jpeg → gFileQueryExists files (OutFormat.jpeg.thumb env s u) = true →
      gFileQueryExists files (OutFormat.jpeg.thumb env s v) = true) :
    JpegSame env files (gFileCopy files (f.thumb env s u) (f.thumb env s v)) := by
  intro t w
  rw [exists_gFileCopy]
  cases f with
  | png => simp [png_thumb_ne]
  | jpeg =>
    by_cases htarget : OutFormat.jpeg.thumb env t w = OutFormat.jpeg.thumb env s v
    · have hh := h rfl
      rw [htarget]
      cases hsource : gFileQueryExists files (OutFormat.jpeg.thumb env s u) with
      | false => simp
      | true => simp [hh hsource]
    · simp [htarget]

theorem JpegSame.erase (h : f = .jpeg → gFileQueryExists files (OutFormat.jpeg.thumb env s u) = false) :
    JpegSame env files (files.erase (f.thumb env s u)) := by
  intro t w
  rw [exists_erase]
  cases f with
  | png => simp [png_thumb_ne]
  | jpeg =>
    by_cases hgone : OutFormat.jpeg.thumb env t w = OutFormat.jpeg.thumb env s u
    · simp [hgone, h rfl]
    · simp [hgone]

def flavours : List HildonThumbnailPluginOutType := [.large, .normal, .cropped]

theorem pairThumbs_eq (op : Files → Path → Path → Files) (f : OutFormat) : pairThumbs env op u v files f.asPng =
    flavours.foldl (fun files t => op files (f.thumb env t u) (f.thumb env t v)) files := by
  simp only [flavours, List.foldl_cons, List.foldl_nil, ← OutFormat.file_eq]
  rfl

theorem deleteThumbs_eq (f : OutFormat) : deleteThumbs env u files f.asPng =
    flavours.foldl (fun files t => files.erase (f.thumb env t u)) files := by
  simp only [flavours, List.foldl_cons, List.foldl_nil, ← OutFormat.file_eq]
  rfl

theorem JpegSame.eachFormat {round : Files → Bool → Files}
    (h : ∀ (f : OutFormat) files', JpegSame env files files' → JpegSame env files' (round files' f.asPng)) :
    JpegSame env files (eachFormat round files) := by
  change JpegSame env files ([OutFormat.png, .jpeg].foldl (fun files f => round files f.asPng) files)
  exact .foldl fun f _ => h f

theorem JpegSame.eachPair {op : Files → Path → Path → Files} {fromUrls toUrls : List String}
    (h : ∀ pair ∈ fromUrls.zip toUrls, ∀ (f : OutFormat) t files', JpegSame env files files' →
      JpegSame env files' (op files' (f.thumb env t pair.1) (f.thumb env t pair.2))) :
    JpegSame env files (eachPair env op fromUrls toUrls files) := by
  refine .foldl fun pair hpair files₁ h₁ => .eachFormat fun f files₂ h₂ => ?_
  rw [pairThumbs_eq]
  exact .foldl fun t _ files₃ h₃ => h pair hpair f t files₃ ((h₁.trans h₂).trans h₃)

theorem jpegSame_move {fromUrls toUrls : List String} (h : ∀ pair ∈ fromUrls.zip toUrls, pair.1 = pair.2 ∨
      ∀ t, gFileQueryExists files (OutFormat.jpeg.thumb env t pair.1) = false) :
    JpegSame env files (thumbnailerMove env fromUrls toUrls files) := by
  refine .eachPair fun pair hpair f t files' hsame => .rename fun _ => ?_
  exact (h pair hpair).imp_right fun hh => (hsame t pair.1).trans (hh t)

theorem jpegSame_copy {fromUrls toUrls : List String} (h : ∀ pair ∈ fromUrls.zip toUrls, ∀ t,
      gFileQueryExists files (OutFormat.jpeg.thumb env t pair.1) = true →
        gFileQueryExists files (OutFormat.jpeg.thumb env t pair.2) = true) :
    JpegSame env files (thumbnailerCopy env fromUrls toUrls files) := by
  refine .eachPair fun pair hpair f t files' hsame => .copy fun _ => ?_
  rw [hsame, hsame]
  exact h pair hpair t

theorem jpegSame_delete {urls : List String}
    (h : ∀ u ∈ urls, ∀ t, gFileQueryExists files (OutFormat.jpeg.thumb env t u) = false) :
    JpegSame env files (thumbnailerDelete env urls files) := by
  refine .foldl fun u hu files₁ h₁ => .eachFormat fun f files₂ h₂ => ?_
  rw [deleteThumbs_eq]
  refine .foldl fun t _ files₃ h₃ => .erase fun _ => ?_
  have hsame := (h₁.trans h₂).trans h₃
  exact (hsame t u).trans (h u hu t)

end Same

section Runs
variable {env} {db} {c c' : JpegCache} {t : HildonThumbnailPluginOutType} {u : String}

/-- The index agrees with the files, and tells of nothing but thumbnails; there is a
table or no file of one. -/
structure Agrees (env : CacheEnv) (c : JpegCache) : Prop where
  indexed : Indexed env c
  thumb_of_row : ∀ row ∈ c.db.rows, ∃ t u, row.path = some (JpegDb.pathText (OutFormat.jpeg.thumb env t u)) ∧
    gFileQueryExists c.files (OutFormat.jpeg.thumb env t u) = true
  made : c.db ≠ .noTable

theorem Agrees.of_same {files : Files} (h : Agrees env c) (hs : JpegSame env c.files files) :
    Agrees env { c with files := files } where
  indexed.row_of_file t u hfile := h.indexed.row_of_file t u ((hs t u).symm.trans hfile)
  indexed.file_of_row row hrow := by
    obtain ⟨t, u, hpath, hfile⟩ := h.thumb_of_row row hrow
    exact ⟨_, hpath, (hs t u).trans hfile⟩
  thumb_of_row row hrow := by
    obtain ⟨t, u, hpath, hfile⟩ := h.thumb_of_row row hrow
    exact ⟨t, u, hpath, (hs t u).trans hfile⟩
  made := h.made

theorem exists_eq_isSome_stamp (files : Files) (p : Path) :
    gFileQueryExists files p = (Png.stamp files p).isSome := by
  simp [gFileQueryExists, Png.stamp]

theorem exists_out (files : Files) (now mtime : UInt64) {p : Path}
    (hp : p ≠ Png.tempPath (OutFormat.jpeg.thumb env t u)) :
    gFileQueryExists (out env files now t mtime u (.ok ())) p =
      (decide (p = OutFormat.jpeg.thumb env t u) || gFileQueryExists files p) := by
  have hstamp := OutFormat.stamp_out env .jpeg files now mtime t u hp
  change Png.stamp (out env files now t mtime u (.ok ())) p = _ at hstamp
  rw [exists_eq_isSome_stamp, exists_eq_isSome_stamp, hstamp]
  by_cases h : p = OutFormat.jpeg.thumb env t u <;> simp [h]

theorem thumbText_thumb (t : HildonThumbnailPluginOutType) (u : String) :
    JpegDb.thumbText env t u = JpegDb.pathText (OutFormat.jpeg.thumb env t u) :=
  congrArg JpegDb.pathText (OutFormat.file_eq (f := .jpeg))

theorem pathText_thumb_inj (hmd5 : Function.Injective env.md5) {s t : HildonThumbnailPluginOutType} {u v : String} :
    JpegDb.pathText (OutFormat.jpeg.thumb env s u) = JpegDb.pathText (OutFormat.jpeg.thumb env t v) ↔
      s = t ∧ u = v := by
  rw [← thumbText_thumb, ← thumbText_thumb]
  constructor
  · intro h
    obtain ⟨htype, huri⟩ := JpegDb.thumbText_inj h
    exact ⟨htype, hmd5 huri⟩
  · rintro ⟨rfl, rfl⟩
    rfl

theorem stored_filter (rows : List JpegDb.Row) (filen uri : List Char) (mtime : UInt64) (p : List Char) :
    (JpegDb.stored rows filen uri mtime).filter (fun row => row.path = some p) =
      if p = filen then [⟨some filen, some uri, mtime.toNat⟩] else rows.filter fun row => row.path = some p := by
  rw [JpegDb.stored, List.filter_append, List.filter_filter]
  split
  · next hp =>
    subst hp
    simp
  · next hp =>
    have hold (row : JpegDb.Row) : (decide (row.path = some p) && decide (row.path ≠ some filen)) =
        decide (row.path = some p) := by
      by_cases hrow : row.path = some p
      · simp [hrow, hp]
      · simp [hrow]
    simp only [hold]
    simp [Ne.symm hp]

theorem mem_stored {rows : List JpegDb.Row} {filen uri : List Char} {mtime : UInt64} {row : JpegDb.Row}
    (h : row ∈ JpegDb.stored rows filen uri mtime) :
    row ∈ rows ∧ row.path ≠ some filen ∨ row.path = some filen := by
  rcases List.mem_append.mp h with hold | hnew
  · obtain ⟨hrow, hpath⟩ := List.mem_filter.mp hold
    exact .inl ⟨hrow, of_decide_eq_true hpath⟩
  · exact .inr (by rw [List.mem_singleton.mp hnew])

/-- Under a path and with a URI without apostrophes the statements store what they
are told. -/
theorem rows_outIndexed (db : JpegDb.Sqlite) (hmade : c.db ≠ .noTable)
    (hpath : Sql.apostrophe ∉ JpegDb.thumbText env t u)
    (huri : Sql.apostrophe ∉ u.toList) (now mtime : UInt64) : (outIndexed env db c now t mtime u).db =
      .table (JpegDb.stored c.db.rows (JpegDb.pathText (OutFormat.jpeg.thumb env t u)) u.toList mtime) := by
  rw [outIndexed, JpegDb.out_paired (Sql.unquote_eq_self_iff.mpr hpath) (Sql.unquote_eq_self_iff.mpr huri),
    JpegDb.Database.opened_table hmade, thumbText_thumb]
  rfl

theorem Agrees.outIndexed (hmd5 : Function.Injective env.md5) (h : Agrees env c)
    (hpath : Sql.apostrophe ∉ JpegDb.thumbText env t u) (huri : Sql.apostrophe ∉ u.toList) (now mtime : UInt64) :
    Agrees env (outIndexed env db c now t mtime u) := by
  have hrows := rows_outIndexed db h.made hpath huri now mtime
  have hexists (s : HildonThumbnailPluginOutType) (v : String) :
      gFileQueryExists (Jpeg.outIndexed env db c now t mtime u).files (OutFormat.jpeg.thumb env s v) =
        (decide (OutFormat.jpeg.thumb env s v = OutFormat.jpeg.thumb env t u) ||
          gFileQueryExists c.files (OutFormat.jpeg.thumb env s v)) :=
    exists_out c.files now mtime OutFormat.tempPath_ne_thumb.symm
  have hthumb : ∀ row ∈ (Jpeg.outIndexed env db c now t mtime u).db.rows, ∃ s v,
      row.path = some (JpegDb.pathText (OutFormat.jpeg.thumb env s v)) ∧
        gFileQueryExists (Jpeg.outIndexed env db c now t mtime u).files (OutFormat.jpeg.thumb env s v) = true := by
    intro row hrow
    rw [hrows] at hrow
    rcases mem_stored hrow with ⟨hold, _⟩ | hnew
    · obtain ⟨s, v, hp, hfile⟩ := h.thumb_of_row row hold
      exact ⟨s, v, hp, by rw [hexists, hfile, Bool.or_true]⟩
    · exact ⟨t, u, hnew, by simp [hexists]⟩
  refine ⟨⟨fun s v hfile => ?_, fun row hrow => ?_⟩, hthumb, by rw [hrows]; simp⟩
  · rw [hrows, JpegDb.Database.rows, stored_filter]
    split
    · next hp =>
      obtain ⟨rfl, rfl⟩ := (pathText_thumb_inj hmd5).mp hp
      exact ⟨mtime.toNat, rfl⟩
    · next hp =>
      have hne : OutFormat.jpeg.thumb env s v ≠ OutFormat.jpeg.thumb env t u := fun heq => hp (congrArg _ heq)
      rw [hexists, decide_eq_false hne, Bool.false_or] at hfile
      exact h.indexed.row_of_file s v hfile
  · obtain ⟨s, v, hp, hfile⟩ := hthumb row hrow
    exact ⟨_, hp, hfile⟩

theorem Agrees.step (hmd5 : Function.Injective env.md5) (h : Agrees env c) {call : Call} (hk : Keeps env c call)
    (hs : step env db c call = some c') : Agrees env c' := by
  cases call with
  | out now type mtime uri =>
    obtain ⟨huri, hout⟩ := Option.ite_none_left_eq_some.mp hs
    obtain rfl := Option.some.inj hout
    exact h.outIndexed hmd5 hk huri now mtime
  | move fromUrls toUrls =>
    obtain rfl := Option.some.inj hs
    exact h.of_same (jpegSame_move hk)
  | copy fromUrls toUrls =>
    obtain rfl := Option.some.inj hs
    exact h.of_same (jpegSame_copy hk)
  | delete urls =>
    obtain rfl := Option.some.inj hs
    exact h.of_same (jpegSame_delete hk)

theorem Agrees.empty (env : CacheEnv) : Agrees env ⟨∅, .missing⟩ where
  indexed.row_of_file t u hfile := by simp [gFileQueryExists] at hfile
  indexed.file_of_row row hrow := by cases hrow
  thumb_of_row row hrow := by cases hrow
  made h := by cases h

/-- The index agrees with the files as long as the paths have no apostrophe and
every move, copy and deletion finds no JPEG thumbnail to take away and leaves none
that was not there. -/
theorem indexed_run (hmd5 : Function.Injective env.md5) {calls : List Call}
    (hg : StepRun.Guarded (Jpeg.step env db) (Keeps env) ⟨∅, .missing⟩ calls)
    (h : StepRun.run (Jpeg.step env db) ⟨∅, .missing⟩ calls = some c) : Indexed env c :=
  (StepRun.guarded_invariant (fun _ _ _ hi hk hs => Agrees.step hmd5 hi hk hs) (Agrees.empty env) hg h).indexed

def sampleEnv : CacheEnv := ⟨["home", "user"], id⟩

/-- An SQLite that takes no other statements than the ones meant. -/
def sampleDb : JpegDb.Sqlite := ⟨50000, 0, fun _ d => d, fun _ _ => none⟩

theorem plain_sampleEnv (t : HildonThumbnailPluginOutType) {u : String} (hu : Sql.apostrophe ∉ u.toList) :
    Sql.apostrophe ∉ JpegDb.thumbText sampleEnv t u :=
  JpegDb.apostrophe_notMem_thumbText.mpr ⟨by decide, hu⟩

/-- A deletion takes the file and leaves its row. -/
theorem indexed_not_deleted : ¬ ∀ (env : CacheEnv) (db : JpegDb.Sqlite) (_ : Function.Injective env.md5)
    (calls : List Call) (c : JpegCache),
    StepRun.run (Jpeg.step env db) ⟨∅, .missing⟩ calls = some c → Indexed env c := by
  intro h
  have huri : Sql.apostrophe ∉ "file:///a.jpg".toList := by decide
  have hrows : (outIndexed sampleEnv sampleDb ⟨∅, .missing⟩ 9 .large 5 "file:///a.jpg").db =
      .table (JpegDb.stored [] _ _ 5) := rows_outIndexed sampleDb (by simp) (plain_sampleEnv .large huri) huri 9 5
  have hempty : thumbnailerDelete sampleEnv ["file:///a.jpg"]
      (out sampleEnv ∅ 9 .large 5 "file:///a.jpg" (.ok ())) = ∅ := AList.ext (by decide)
  have hindexed := h sampleEnv sampleDb Function.injective_id
    [.out 9 .large 5 "file:///a.jpg", .delete ["file:///a.jpg"]] _ rfl
  obtain ⟨path, _, hfile⟩ := hindexed.file_of_row
    ⟨some (JpegDb.pathText (OutFormat.jpeg.thumb sampleEnv .large "file:///a.jpg")), some "file:///a.jpg".toList, 5⟩
    (by rw [hrows]; exact List.mem_cons_self)
  rw [show (outIndexed sampleEnv sampleDb ⟨∅, .missing⟩ 9 .large 5 "file:///a.jpg").files =
    out sampleEnv ∅ 9 .large 5 "file:///a.jpg" (.ok ()) from rfl, hempty] at hfile
  cases hfile

theorem indexed_run_copied : ∃ c, StepRun.run (Jpeg.step sampleEnv sampleDb) ⟨∅, .missing⟩
    [.out 9 .large 5 "a", .out 9 .large 6 "b", .copy ["a"] ["b"], .move ["c"] ["a"], .delete ["c"]] = some c ∧
      Indexed sampleEnv c := by
  have hg : StepRun.Guarded (Jpeg.step sampleEnv sampleDb) (Keeps sampleEnv) ⟨∅, .missing⟩
      [.out 9 .large 5 "a", .out 9 .large 6 "b", .copy ["a"] ["b"], .move ["c"] ["a"], .delete ["c"]] := by
    refine ⟨plain_sampleEnv .large (by decide), ?_⟩
    rintro _ ⟨⟩
    refine ⟨plain_sampleEnv .large (by decide), ?_⟩
    rintro _ ⟨⟩
    refine ⟨List.forall_mem_singleton.mpr fun t => by cases t <;> decide, ?_⟩
    rintro _ ⟨⟩
    refine ⟨List.forall_mem_singleton.mpr (.inr fun t => by cases t <;> decide), ?_⟩
    rintro _ ⟨⟩
    exact ⟨List.forall_mem_singleton.mpr fun t => by cases t <;> decide, fun _ _ => trivial⟩
  exact ⟨_, rfl, indexed_run Function.injective_id hg rfl⟩

end Runs

end Jpeg

end HildonThumbnail
