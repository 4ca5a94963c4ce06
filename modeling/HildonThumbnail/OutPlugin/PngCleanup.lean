import HildonThumbnail.OutPlugin.Png

/-! The original that a PNG thumbnail names, the loops of the PNG plugin's
cleanup over the three directories, and what they remove
(daemon/plugins/gdkpixbuf-png-out-plugin.c). -/

namespace HildonThumbnail.Png

/-- The text chunk Thumb::URI, its key in any case and not empty. Nothing catches
the error of `png_read_info` for what is no PNG: libpng ends the process. -/
def origOf (file : CacheFile) : Option (Option String) :=
  match file.content with
  | .png options => some (options.findSome? fun option =>
      if option.1.toLower = "text::thumb::uri" ∧ option.2 ≠ "" then some option.2 else none)
  | .jpeg | .text _ => none

/-- There is a NULL for a file that cannot be opened. -/
def getOrig (files : Files) (path : Path) : Option (Option String) :=
  match files.lookup path with
  | none => some none
  | some file => origOf file

def stMtime (file : CacheFile) : Int64 := file.mtime.toInt64

def cleanupFile (dirname : Path) (uriMatch : String) (since : UInt32) (files : Files) (filen : String) :
    Option Files :=
  if "png".toList.isSuffixOf filen.toList then do
    let fulln := gFileGetChild dirname filen
    match ← getOrig files fulln with
    | none => some files
    | some orig =>
      if uriMatch.toList.isPrefixOf orig.toList then
        match files.lookup fulln with
        | none => some files
        -- `(gint) since` is a signed integer of 32 bits
        | some st => some (if stMtime st ≤ since.toInt32.toInt64 then files.erase fulln else files)
      else some files
  else some files

section
variable (env : CacheEnv) (order : KeyTable.Order Path) (files : Files) (uriMatch : String) (since : UInt32)

/-- The names in a directory, in the order in which it gives them. -/
def gDirRead (dirname : Path) : List String :=
  ((order.visit files).filter fun entry => gFileGetParent entry.1 = dirname).map fun entry =>
    gFileGetBasename entry.1

def cleanupDir (dirname : Path) : Option Files :=
  (gDirRead order files dirname).foldlM (cleanupFile dirname uriMatch since) files

def cleanup : Option Files :=
  [HildonThumbnailPluginOutType.large, .normal, .cropped].foldlM
    (fun files type => cleanupDir order files uriMatch since (thumbDir env type)) files

/-- The files that a cleanup is asked to remove. -/
structure Wanted (path : Path) (file : CacheFile) : Prop where
  dir : ∃ type, gFileGetParent path = thumbDir env type
  name : "png".toList <:+ (gFileGetBasename path).toList
  uri : ∃ orig, origOf file = some (some orig) ∧ uriMatch.toList <+: orig.toList
  mtime : file.mtime.toNat ≤ since.toNat

structure CleanedUp (files' : Files) : Prop where
  gone : ∀ path file, files.lookup path = some file → Wanted env uriMatch since path file →
    files'.lookup path = none
  kept : ∀ path, (∀ file, files.lookup path = some file → ¬ Wanted env uriMatch since path file) →
    files'.lookup path = files.lookup path

/-- A file in one of the directories that is called a PNG and is none. -/
structure Misnamed (path : Path) (file : CacheFile) : Prop where
  dir : ∃ type, gFileGetParent path = thumbDir env type
  name : "png".toList <:+ (gFileGetBasename path).toList
  none : origOf file = none

end

section Removal
variable {env : CacheEnv} {order : KeyTable.Order Path} {files files' : Files} {uriMatch : String} {since : UInt32}
  {dirname path : Path} {file : CacheFile}

/-- The process ends at this file. -/
def fatal (path : Path) (file : CacheFile) : Bool :=
  "png".toList.isSuffixOf (gFileGetBasename path).toList && (origOf file).isNone

def removable (uriMatch : String) (since : UInt32) (path : Path) (file : CacheFile) : Bool :=
  "png".toList.isSuffixOf (gFileGetBasename path).toList &&
    ((origOf file).join.any fun orig => uriMatch.toList.isPrefixOf orig.toList) &&
    decide (stMtime file ≤ since.toInt32.toInt64)

theorem not_removable_of_fatal (h : fatal path file = true) : removable uriMatch since path file = false := by
  obtain ⟨_, hnone⟩ := Bool.and_eq_true_iff.mp h
  simp [removable, Option.isNone_iff_eq_none.mp hnone]

theorem gFileGetBasename_child (dir : Path) (name : String) : gFileGetBasename (gFileGetChild dir name) = name := by
  simp [gFileGetBasename, gFileGetChild]

theorem child_of_parent (hdir : dirname ≠ []) (h : gFileGetParent path = dirname) :
    gFileGetChild dirname (gFileGetBasename path) = path := by
  have hne : path ≠ [] := by
    rintro rfl
    exact hdir h.symm
  have hlast := List.dropLast_append_getLast hne
  rw [← h, gFileGetChild, gFileGetParent, gFileGetBasename, List.getLastD_eq_getLast?,
    List.getLast?_eq_some_getLast hne, Option.getD_some, hlast]

theorem cleanupFile_eq (filen : String) : cleanupFile dirname uriMatch since files filen =
    if (files.lookup (gFileGetChild dirname filen)).any (fatal (gFileGetChild dirname filen)) then none
    else some (if (files.lookup (gFileGetChild dirname filen)).any
        (removable uriMatch since (gFileGetChild dirname filen)) then files.erase (gFileGetChild dirname filen)
      else files) := by
  rw [cleanupFile]
  cases hlookup : files.lookup (gFileGetChild dirname filen) with
  | none => simp [getOrig, hlookup]
  | some file =>
    simp only [getOrig, hlookup, Option.any_some, fatal, removable, gFileGetBasename_child]
    cases hname : "png".toList.isSuffixOf filen.toList with
    | false => simp
    | true =>
      cases horig : origOf file with
      | none => simp
      | some orig =>
        cases orig with
        | none => simp
        | some orig =>
          cases hmatch : uriMatch.toList.isPrefixOf orig.toList
          · simp only [hmatch, if_true, Option.bind_eq_bind, Option.bind_some, Option.join_some, Option.any_some]
            simp
          · simp only [hmatch, if_true, Option.bind_eq_bind, Option.bind_some, Option.join_some, Option.any_some]
            simp

theorem mem_gDirRead {filen : String} : filen ∈ gDirRead order files dirname ↔
    ∃ path, (files.lookup path).isSome ∧ gFileGetParent path = dirname ∧ gFileGetBasename path = filen := by
  simp only [gDirRead, List.mem_map, List.mem_filter, decide_eq_true_eq, Prod.exists, order.mem_visit]
  constructor
  · rintro ⟨path, file, ⟨hlookup, hparent⟩, hname⟩
    exact ⟨path, by simp [hlookup], hparent, hname⟩
  · rintro ⟨path, hsome, hparent, hname⟩
    obtain ⟨file, hlookup⟩ := Option.isSome_iff_exists.mp hsome
    exact ⟨path, file, ⟨hlookup, hparent⟩, hname⟩

theorem mem_fulln (hdir : dirname ≠ []) (h : (files.lookup path).isSome) :
    path ∈ (gDirRead order files dirname).map (gFileGetChild dirname) ↔ gFileGetParent path = dirname := by
  simp only [List.mem_map, mem_gDirRead]
  constructor
  · rintro ⟨filen, -, rfl⟩
    simp [gFileGetParent, gFileGetChild]
  · intro hparent
    exact ⟨gFileGetBasename path, ⟨path, h, hparent, rfl⟩, child_of_parent hdir hparent⟩

theorem cleanupDir_eq : cleanupDir order files uriMatch since dirname =
    ((gDirRead order files dirname).map (gFileGetChild dirname)).foldlM (fun files fulln =>
      if (files.lookup fulln).any (fatal fulln) then none
      else some (if (files.lookup fulln).any (removable uriMatch since fulln) then files.erase fulln else files))
      files := by
  rw [cleanupDir, List.foldlM_map]
  congr 1
  funext files filen
  exact cleanupFile_eq filen

/-- A directory is cleaned up to its end unless one of its files ends the process. -/
theorem cleanupDir_eq_none_iff (hdir : dirname ≠ []) : cleanupDir order files uriMatch since dirname = none ↔
    ∃ path file, files.lookup path = some file ∧ gFileGetParent path = dirname ∧ fatal path file = true := by
  rw [cleanupDir_eq, KeyTable.foldlM_eraseIf, ite_eq_left_iff]
  simp only [reduceCtorEq, imp_false, not_not, Option.any_eq_true]
  constructor
  · rintro ⟨path, hmem, file, hlookup, hfatal⟩
    exact ⟨path, file, hlookup, (mem_fulln hdir (by rw [hlookup, Option.isSome_some])).mp hmem, hfatal⟩
  · rintro ⟨path, file, hlookup, hparent, hfatal⟩
    exact ⟨path, (mem_fulln hdir (by rw [hlookup, Option.isSome_some])).mpr hparent, file, hlookup, hfatal⟩

theorem lookup_cleanupDir (hdir : dirname ≠ []) (h : cleanupDir order files uriMatch since dirname = some files')
    (path : Path) : files'.lookup path =
      (files.lookup path).filter fun file =>
        !(decide (gFileGetParent path = dirname) && removable uriMatch since path file) := by
  rw [cleanupDir_eq, KeyTable.foldlM_eraseIf, Option.ite_none_left_eq_some] at h
  obtain rfl := Option.some.inj h.2
  rw [KeyTable.lookup_foldl_eraseIf]
  cases hlookup : files.lookup path with
  | none => rfl
  | some file =>
    have hthere : (files.lookup path).isSome = true := by rw [hlookup, Option.isSome_some]
    have hmem : path ∈ (gDirRead order files dirname).map (gFileGetChild dirname) ↔ gFileGetParent path = dirname :=
      mem_fulln hdir hthere
    simp only [Option.filter, hmem]

theorem thumbDir_ne_nil (t : HildonThumbnailPluginOutType) : thumbDir env t ≠ [] := by
  simp [thumbDir]

/-- The loops over some of the directories, in any order. -/
theorem cleanupDirs_eq_none_iff (types : List HildonThumbnailPluginOutType) :
    types.foldlM (fun files type => cleanupDir order files uriMatch since (thumbDir env type)) files = none ↔
      ∃ path file, files.lookup path = some file ∧ (∃ type ∈ types, gFileGetParent path = thumbDir env type) ∧
        fatal path file = true := by
  induction types generalizing files with
  | nil => simp
  | cons type types ih =>
    rw [List.foldlM_cons]
    cases hfirst : cleanupDir order files uriMatch since (thumbDir env type) with
    | none =>
      obtain ⟨path, file, hlookup, hparent, hfatal⟩ := (cleanupDir_eq_none_iff (thumbDir_ne_nil type)).mp hfirst
      exact iff_of_true rfl ⟨path, file, hlookup, ⟨type, List.mem_cons_self, hparent⟩, hfatal⟩
    | some files₁ =>
      have hnone : ¬ ∃ path file, files.lookup path = some file ∧ gFileGetParent path = thumbDir env type ∧
          fatal path file = true := by
        rw [← cleanupDir_eq_none_iff (thumbDir_ne_nil type), hfirst]
        simp
      have hkept {path : Path} {file : CacheFile} (hfatal : fatal path file = true) :
          files₁.lookup path = some file ↔ files.lookup path = some file := by
        rw [lookup_cleanupDir (thumbDir_ne_nil type) hfirst, Option.filter_eq_some_iff]
        exact and_iff_left (by simp [not_removable_of_fatal hfatal])
      refine ih.trans ?_
      constructor
      · rintro ⟨path, file, hlookup, ⟨t, ht, hparent⟩, hfatal⟩
        exact ⟨path, file, (hkept hfatal).mp hlookup, ⟨t, List.mem_cons_of_mem _ ht, hparent⟩, hfatal⟩
      · rintro ⟨path, file, hlookup, ⟨t, ht, hparent⟩, hfatal⟩
        rcases List.mem_cons.mp ht with rfl | ht
        · exact absurd ⟨path, file, hlookup, hparent, hfatal⟩ hnone
        · exact ⟨path, file, (hkept hfatal).mpr hlookup, ⟨t, ht, hparent⟩, hfatal⟩

theorem lookup_cleanupDirs {types : List HildonThumbnailPluginOutType}
    (h : types.foldlM (fun files type => cleanupDir order files uriMatch since (thumbDir env type)) files =
      some files') (path : Path) :
    files'.lookup path = (files.lookup path).filter fun file =>
      !(types.any (fun type => gFileGetParent path = thumbDir env type) && removable uriMatch since path file) := by
  induction types generalizing files with
  | nil =>
    obtain rfl := Option.some.inj h
    cases files.lookup path <;> simp [Option.filter]
  | cons type types ih =>
    obtain ⟨files₁, hfirst, hrest⟩ := Option.bind_eq_some_iff.mp h
    rw [ih hrest, lookup_cleanupDir (thumbDir_ne_nil type) hfirst, Option.filter_filter]
    refine congrArg (fun q => Option.filter q (files.lookup path)) (funext fun file => ?_)
    cases removable uriMatch since path file <;> simp [Bool.and_comm]

def inThumbDir (env : CacheEnv) (path : Path) : Bool :=
  [HildonThumbnailPluginOutType.large, .normal, .cropped].any fun type => gFileGetParent path = thumbDir env type

theorem inThumbDir_iff : inThumbDir env path = true ↔ ∃ type, gFileGetParent path = thumbDir env type := by
  constructor
  · intro h
    obtain ⟨type, _, htype⟩ := List.any_eq_true.mp h
    exact ⟨type, of_decide_eq_true htype⟩
  · rintro ⟨type, htype⟩
    refine List.any_eq_true.mpr ⟨type, ?_, decide_eq_true htype⟩
    cases type <;> simp

/-- The cleanup comes to its end unless a file that is called a PNG is none. -/
theorem cleanup_eq_none_iff : cleanup env order files uriMatch since = none ↔
    ∃ path file, files.lookup path = some file ∧ Misnamed env path file := by
  have hfatal (path : Path) (file : CacheFile) : fatal path file = true ↔
      "png".toList <:+ (gFileGetBasename path).toList ∧ origOf file = none := by
    simp [fatal]
  rw [cleanup, cleanupDirs_eq_none_iff]
  refine exists₂_congr fun path file => and_congr_right fun _ => ?_
  rw [hfatal]
  constructor
  · rintro ⟨⟨type, _, hparent⟩, hname, hnone⟩
    exact ⟨⟨type, hparent⟩, hname, hnone⟩
  · rintro ⟨⟨type, hparent⟩, hname, hnone⟩
    exact ⟨⟨type, by cases type <;> simp, hparent⟩, hname, hnone⟩

theorem lookup_cleanup (h : cleanup env order files uriMatch since = some files') (path : Path) :
    files'.lookup path = (files.lookup path).filter fun file =>
      !(inThumbDir env path && removable uriMatch since path file) :=
  lookup_cleanupDirs h path

/-- The conversion of `since` makes it negative from 2^31 on, and no file is that
old. -/
theorem stMtime_le_iff (hfile : file.mtime.toNat < 2 ^ 63) :
    stMtime file ≤ since.toInt32.toInt64 ↔ since.toNat < 2 ^ 31 ∧ file.mtime.toNat ≤ since.toNat := by
  have hsince := since.toNat_lt
  have hmtime : (stMtime file).toInt = file.mtime.toNat := by
    rw [stMtime, ← Int64.toInt_toBitVec, UInt64.toBitVec_toInt64, BitVec.toInt_eq_toNat_bmod, UInt64.toNat_toBitVec]
    exact Int.bmod_eq_of_le (by omega) (by omega)
  have hgint : since.toInt32.toInt = (since.toNat : Int).bmod (2 ^ 32) := by
    rw [← Int32.toInt_toBitVec, UInt32.toBitVec_toInt32, BitVec.toInt_eq_toNat_bmod, UInt32.toNat_toBitVec]
  rw [Int64.le_iff_toInt_le, Int32.toInt_toInt64, hmtime, hgint, Int.bmod_def]
  omega

theorem removed_iff (hfile : (∃ type, gFileGetParent path = thumbDir env type) → file.mtime.toNat < 2 ^ 63) :
    (inThumbDir env path && removable uriMatch since path file) = true ↔
      since.toNat < 2 ^ 31 ∧ Wanted env uriMatch since path file := by
  have horig : ((origOf file).join.any fun orig => uriMatch.toList.isPrefixOf orig.toList) = true ↔
      ∃ orig, origOf file = some (some orig) ∧ uriMatch.toList <+: orig.toList := by
    simp [Option.any_eq_true, List.isPrefixOf_iff_prefix, Option.join_eq_some_iff]
  rw [Bool.and_eq_true, inThumbDir_iff]
  constructor
  · rintro ⟨hdir, hremovable⟩
    simp only [removable, Bool.and_eq_true, List.isSuffixOf_iff_suffix, horig, decide_eq_true_eq,
      stMtime_le_iff (hfile hdir)] at hremovable
    obtain ⟨⟨hname, huri⟩, hlt, hmtime⟩ := hremovable
    exact ⟨hlt, ⟨hdir, hname, huri, hmtime⟩⟩
  · rintro ⟨hlt, ⟨hdir, hname, huri, hmtime⟩⟩
    refine ⟨hdir, ?_⟩
    simp only [removable, Bool.and_eq_true, List.isSuffixOf_iff_suffix, horig, decide_eq_true_eq,
      stMtime_le_iff (hfile hdir)]
    exact ⟨⟨hname, huri⟩, hlt, hmtime⟩

theorem lookup_of_removed (h : cleanup env order files uriMatch since = some files')
    (hlookup : files.lookup path = some file)
    (hremoved : (inThumbDir env path && removable uriMatch since path file) = true) :
    files'.lookup path = none := by
  rw [lookup_cleanup h, hlookup]
  simp only [Option.filter, hremoved, Bool.not_true, Bool.false_eq_true, if_false]

theorem lookup_of_not_removed (h : cleanup env order files uriMatch since = some files')
    (hnot : ∀ file, files.lookup path = some file →
      ¬ (inThumbDir env path && removable uriMatch since path file) = true) :
    files'.lookup path = files.lookup path := by
  rw [lookup_cleanup h]
  cases hlookup : files.lookup path with
  | none => rfl
  | some file => simp only [Option.filter, hnot file hlookup, Bool.not_false, if_true]

theorem cleanedUp_iff_of_some (h : cleanup env order files uriMatch since = some files')
    (hfiles : ∀ path file, files.lookup path = some file → (∃ type, gFileGetParent path = thumbDir env type) →
      file.mtime.toNat < 2 ^ 63) : CleanedUp env files uriMatch since files' ↔
      since.toNat < 2 ^ 31 ∨ ∀ path file, files.lookup path = some file →
      ¬ Wanted env uriMatch since path file := by
  constructor
  · intro hclean
    by_contra hbad
    obtain ⟨hsince, hwanted⟩ := not_or.mp hbad
    refine hwanted fun path file hlookup hw => ?_
    have hgone := hclean.gone path file hlookup hw
    have hstays : files'.lookup path = files.lookup path := by
      refine lookup_of_not_removed h fun file' hlookup' hremoved => ?_
      exact hsince ((removed_iff (hfiles path file' hlookup')).mp hremoved).1
    rw [hstays, hlookup] at hgone
    cases hgone
  · intro hright
    constructor
    · intro path file hlookup hw
      have hsince := hright.resolve_right fun hnone => hnone path file hlookup hw
      exact lookup_of_removed h hlookup ((removed_iff (hfiles path file hlookup)).mpr ⟨hsince, hw⟩)
    · intro path hnot
      refine lookup_of_not_removed h fun file hlookup hremoved => ?_
      exact hnot file hlookup ((removed_iff (hfiles path file hlookup)).mp hremoved).2

/-- A cleanup up to a time that does not fit into an `int` removes nothing, and one
that comes to a file that is only called a PNG is the end of the daemon. -/
theorem pngCleanedUp_iff (order : KeyTable.Order Path) (uriMatch : String) (since : UInt32)
    (hfiles : ∀ path file, files.lookup path = some file → (∃ type, gFileGetParent path = thumbDir env type) →
      file.mtime.toNat < 2 ^ 63) :
    (∃ files', cleanup env order files uriMatch since = some files' ∧ CleanedUp env files uriMatch since files') ↔
      (∀ path file, files.lookup path = some file → ¬ Misnamed env path file) ∧
        (since.toNat < 2 ^ 31 ∨ ∀ path file, files.lookup path = some file →
        ¬ Wanted env uriMatch since path file) := by
  cases h : cleanup env order files uriMatch since with
  | none =>
    obtain ⟨path, file, hlookup, hmisnamed⟩ := cleanup_eq_none_iff.mp h
    refine iff_of_false ?_ fun hright => hright.1 path file hlookup hmisnamed
    rintro ⟨files', hsome, _⟩
    cases hsome
  | some files' =>
    have hends : ∀ path file, files.lookup path = some file → ¬ Misnamed env path file := by
      intro path file hlookup hmisnamed
      have hnone : cleanup env order files uriMatch since = none :=
        cleanup_eq_none_iff.mpr ⟨path, file, hlookup, hmisnamed⟩
      rw [h] at hnone
      cases hnone
    rw [and_iff_right hends, ← cleanedUp_iff_of_some h hfiles]
    constructor
    · rintro ⟨files'', hsome, hclean⟩
      exact Option.some.inj hsome ▸ hclean
    · exact fun hclean => ⟨files', rfl, hclean⟩

def oneThumbPath : Path := ["home", "user", ".thumbnails", "normal", "0.png"]

def oneThumb : Files := (∅ : Files).insert oneThumbPath ⟨100, .png (pngOptions "file:///a.png" 100)⟩

theorem lookup_oneThumb : oneThumb.lookup path = some file ↔
    path = oneThumbPath ∧ file = ⟨100, .png (pngOptions "file:///a.png" 100)⟩ := by
  rw [oneThumb, KeyTable.lookup_insert_eq]
  split
  · next h => simp [h, eq_comm]
  · next h => simp [h]

theorem toLower_uriOption : "tEXt::Thumb::URI".toLower = "text::thumb::uri" := by
  apply String.toList_injective
  show (String.map Char.toLower "tEXt::Thumb::URI").toList = "text::thumb::uri".toList
  rw [String.toList_map]
  decide

/-- The URI that the plugin writes into a thumbnail is the one it reads back. -/
theorem origOf_pngOptions {uri : String} (huri : uri ≠ "") (now mtime : UInt64) :
    origOf ⟨now, .png (pngOptions uri mtime)⟩ = some (some uri) := by
  simp [origOf, pngOptions, toLower_uriOption, huri]

theorem wanted_oneThumb (hsince : 100 ≤ since.toNat) :
    Wanted ⟨["home", "user"], id⟩ "file://" since oneThumbPath ⟨100, .png (pngOptions "file:///a.png" 100)⟩ where
  dir := ⟨.normal, rfl⟩
  name := by decide
  uri := ⟨"file:///a.png", origOf_pngOptions (by decide) _ _, by decide⟩
  mtime := hsince

theorem not_cleanedUp : ¬ ∀ (env : CacheEnv) (order : KeyTable.Order Path) (files : Files) (uriMatch : String)
    (since : UInt32),
    (∀ path file, files.lookup path = some file → file.mtime.toNat < 2 ^ 31) →
      ∃ files', cleanup env order files uriMatch since = some files' ∧
        CleanedUp env files uriMatch since files' := by
  intro h
  have hsmall : ∀ path file, oneThumb.lookup path = some file → file.mtime.toNat < 2 ^ 31 := by
    intro path file hlookup
    obtain ⟨_, rfl⟩ := lookup_oneThumb.mp hlookup
    decide
  obtain ⟨files', hsome, hclean⟩ :=
    h ⟨["home", "user"], id⟩ (KeyTable.Order.stored Path) oneThumb "file://" 4294967295 hsmall
  have hfits : ∀ path file, oneThumb.lookup path = some file →
      (∃ type, gFileGetParent path = thumbDir ⟨["home", "user"], id⟩ type) → file.mtime.toNat < 2 ^ 63 :=
    fun path file hlookup _ => (hsmall path file hlookup).trans (by decide)
  rcases (cleanedUp_iff_of_some hsome hfits).mp hclean with hsince | hnone
  · exact absurd hsince (by decide)
  · exact hnone _ _ (lookup_oneThumb.mpr ⟨rfl, rfl⟩) (wanted_oneThumb (by decide))

theorem cleanedUp_oneThumb : ∃ files',
    cleanup ⟨["home", "user"], id⟩ (KeyTable.Order.stored Path) oneThumb "file://" 200 = some files' ∧
      CleanedUp ⟨["home", "user"], id⟩ oneThumb "file://" 200 files' := by
  refine (pngCleanedUp_iff (KeyTable.Order.stored Path) "file://" 200 ?_).mpr ⟨?_, .inl (by decide)⟩
  · intro path file hlookup _
    obtain ⟨_, rfl⟩ := lookup_oneThumb.mp hlookup
    decide
  · rintro path file hlookup hmisnamed
    obtain ⟨_, rfl⟩ := lookup_oneThumb.mp hlookup
    have hnone := hmisnamed.none
    rw [origOf_pngOptions (by decide)] at hnone
    cases hnone

end Removal

end HildonThumbnail.Png
