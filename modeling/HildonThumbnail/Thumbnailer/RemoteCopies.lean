import HildonThumbnail.Cache.Local
import HildonThumbnail.Thumbnailer.WorkSignals

/-! The copies of fresh thumbnails next to their originals on removable and remote
locations (the last loop over a group in `do_the_work`). -/

namespace HildonThumbnail

/-- The files, and the copies that were made so far: from where, and to where. -/
structure CopyRun where
  files : Files
  copied : List (Path × Path)

/-- `g_file_copy` without flags: nothing is written over. A target without a name cannot be written. -/
def gFileCopyOnce (s : CopyRun) (source : Path) (target : Option Path) : Option CopyRun :=
  match target, s.files.lookup source with
  | some target, some file =>
    if gFileQueryExists s.files target then none
    else some ⟨s.files.insert target file, s.copied ++ [(source, target)]⟩
  | _, _ => none

section
variable (env : LocalEnv)

/-- `for (z = 0; z < 3 && !error; z++)` -/
def copyFlavours (uri : String) (asPng : Bool) : List HildonThumbnailPluginOutType → CopyRun → CopyRun
  | [], s => s
  | t :: types, s =>
    match gFileCopyOnce s ((hildonThumbnailUtilGetThumbPaths env.toCacheEnv uri asPng).file t)
        (localFile env uri asPng t) with
    | none => s
    | some s' => copyFlavours uri asPng types s'

def copyUri (s : CopyRun) (uri : String) : CopyRun :=
  [true, false].foldl (fun s asPng => copyFlavours env uri asPng [.large, .normal, .cropped] s) s

def copyUris (uris : List String) (s : CopyRun) : CopyRun :=
  uris.foldl (fun s uri => if strvContains remotefss uri then copyUri env s uri else s) s

def copyGroup (uris : List String) (hadErr : Bool) (files : Files) : CopyRun :=
  if hadErr then ⟨files, []⟩ else copyUris env uris ⟨files, []⟩

end

section Places
variable {env : LocalEnv} {u v : String} {f g : OutFormat} {s t : HildonThumbnailPluginOutType} {p : Path}

theorem localThumbPaths_eq {asPng : Bool} (h : localFile env u asPng t = some p) : ∃ dirFile name,
    p = dirFile ++ [".thumblocal", t.dirName, name ++ if asPng then ".png" else ".jpeg"] ∧
      ∀ b : Bool, localThumbPaths env u b =
        some ⟨dirFile ++ [".thumblocal", "large", name ++ if b then ".png" else ".jpeg"],
        dirFile ++ [".thumblocal", "normal", name ++ if b then ".png" else ".jpeg"],
        dirFile ++ [".thumblocal", "cropped", name ++ if b then ".png" else ".jpeg"]⟩ := by
  rw [localFile, Option.map_eq_some_iff] at h
  obtain ⟨paths, hpaths, rfl⟩ := h
  rw [localThumbPaths.eq_def] at hpaths
  split at hpaths
  · next info dirFile hinfo hparent =>
    obtain ⟨hname, hsome⟩ := Option.ite_none_left_eq_some.mp hpaths
    obtain rfl := Option.some.inj hsome
    refine ⟨dirFile, env.md5 info.name, ?_, ?_⟩
    · cases t <;> simp [ThumbPaths.file, gFileGetChild, HildonThumbnailPluginOutType.dirName, digestName]
    · intro b
      simp [localThumbPaths, hinfo, hparent, hname, gFileGetChild, digestName]
  · cases hpaths

/-- Two URIs that share one place share them all, flavour by flavour and format by format. -/
theorem samePlace_of_localFile (hu : localFile env u f.asPng s = some p) (hv : localFile env v g.asPng t = some p) :
    f = g ∧ s = t ∧ ∀ b, localThumbPaths env u b = localThumbPaths env v b := by
  obtain ⟨dirU, nameU, hpU, hpathsU⟩ := localThumbPaths_eq hu
  obtain ⟨dirV, nameV, hpV, hpathsV⟩ := localThumbPaths_eq hv
  obtain ⟨hdir, hrest⟩ := List.append_inj' (hpU.symm.trans hpV) rfl
  simp only [List.cons.injEq, true_and, and_true, HildonThumbnailPluginOutType.dirName_inj] at hrest
  obtain ⟨hflavour, hname⟩ := hrest
  have hformat : f = g ∧ nameU = nameV := by
    have hlists := congrArg String.toList hname
    cases f <;> cases g <;> simp [OutFormat.asPng, String.toList_append] at hlists ⊢
    · exact String.toList_injective hlists
    · have hlast := congrArg (fun l => l.reverse.take 2) hlists
      simp at hlast
    · have hlast := congrArg (fun l => l.reverse.take 2) hlists
      simp at hlast
    · exact String.toList_injective hlists
  refine ⟨hformat.1, hflavour, ?_⟩
  intro b
  rw [hpathsU, hpathsV, hdir, hformat.2]

end Places

section Runs
variable {env : LocalEnv} {u v : String} {f g : OutFormat} {t : HildonThumbnailPluginOutType} {p : Path}
    {s s' : CopyRun}

theorem gFileCopyOnce_eq_some {source : Path} {target : Option Path} :
    gFileCopyOnce s source target = some s' ↔ ∃ p file, target = some p ∧ s.files.lookup source = some file ∧
      gFileQueryExists s.files p = false ∧ s' = ⟨s.files.insert p file, s.copied ++ [(source, p)]⟩ := by
  cases target with
  | none => simp [gFileCopyOnce]
  | some p =>
    cases hfile : s.files.lookup source with
    | none => simp [gFileCopyOnce, hfile]
    | some file =>
      constructor
      · intro h
        simp only [gFileCopyOnce, hfile] at h
        split at h
        · cases h
        · next hnew => exact ⟨p, file, rfl, rfl, Bool.not_eq_true _ ▸ hnew, (Option.some.inj h).symm⟩
      · rintro ⟨q, file', hq, hfile', hnew, rfl⟩
        obtain rfl := Option.some.inj hq
        obtain rfl := Option.some.inj hfile'
        simp [gFileCopyOnce, hfile, hnew]

theorem gFileCopyOnce_eq_none {source : Path} {target : Option Path}
    (h : gFileQueryExists s.files source = false ∨ ∀ p, target = some p → gFileQueryExists s.files p = true) :
    gFileCopyOnce s source target = none := by
  rw [Option.eq_none_iff_forall_ne_some]
  intro s' hs'
  obtain ⟨p, file, rfl, hfile, hnew, _⟩ := gFileCopyOnce_eq_some.mp hs'
  rcases h with h | h
  · rw [gFileQueryExists, hfile] at h
    cases h
  · rw [h p rfl] at hnew
    cases hnew

theorem copyFlavours_cons (f : OutFormat) (types : List HildonThumbnailPluginOutType) :
    copyFlavours env v f.asPng (t :: types) s =
      match gFileCopyOnce s (f.thumb env.toCacheEnv t v) (localFile env v f.asPng t) with
      | none => s
      | some s' => copyFlavours env v f.asPng types s' := by
  rw [copyFlavours, OutFormat.file_eq]

theorem copyFlavours_frame {types : List HildonThumbnailPluginOutType}
    (h : ∀ t ∈ types, localFile env v f.asPng t ≠ some p) :
    (copyFlavours env v f.asPng types s).files.lookup p = s.files.lookup p ∧
      ∀ a, (a, p) ∈ (copyFlavours env v f.asPng types s).copied ↔ (a, p) ∈ s.copied := by
  induction types generalizing s with
  | nil => exact ⟨rfl, fun a => Iff.rfl⟩
  | cons t types ih =>
    rw [copyFlavours_cons]
    cases hcopy : gFileCopyOnce s (f.thumb env.toCacheEnv t v) (localFile env v f.asPng t) with
    | none => exact ⟨rfl, fun a => Iff.rfl⟩
    | some s' =>
      obtain ⟨q, file, hq, _, _, rfl⟩ := gFileCopyOnce_eq_some.mp hcopy
      have hne : p ≠ q := by
        rintro rfl
        exact h t List.mem_cons_self hq
      obtain ⟨hfiles, hcopied⟩ := ih (s := ⟨s.files.insert q file, s.copied ++ [(f.thumb env.toCacheEnv t v, q)]⟩)
        fun t ht => h t (List.mem_cons_of_mem _ ht)
      refine ⟨hfiles.trans (AList.lookup_insert_ne hne), ?_⟩
      intro a
      rw [hcopied]
      simp [hne]

theorem copyFlavours_thumb (types : List HildonThumbnailPluginOutType) (w : String) :
    (copyFlavours env v f.asPng types s).files.lookup (g.thumb env.toCacheEnv t w) =
      s.files.lookup (g.thumb env.toCacheEnv t w) :=
  (copyFlavours_frame fun _ _ hlocal => localFile_ne_thumb hlocal rfl).1

theorem copyFlavours_mono {types : List HildonThumbnailPluginOutType} (h : gFileQueryExists s.files p = true) :
    gFileQueryExists (copyFlavours env v f.asPng types s).files p = true := by
  induction types generalizing s with
  | nil => exact h
  | cons t types ih =>
    rw [copyFlavours_cons]
    cases hcopy : gFileCopyOnce s (f.thumb env.toCacheEnv t v) (localFile env v f.asPng t) with
    | none => exact h
    | some s' =>
      obtain ⟨q, file, _, _, _, rfl⟩ := gFileCopyOnce_eq_some.mp hcopy
      apply ih
      rw [exists_insert, h, Bool.or_true]

theorem copyFlavours_blocked {types : List HildonThumbnailPluginOutType}
    (h : gFileQueryExists s.files (f.thumb env.toCacheEnv t v) = false ∨
      ∀ p, localFile env v f.asPng t = some p → gFileQueryExists s.files p = true) :
    copyFlavours env v f.asPng (t :: types) s = s := by
  rw [copyFlavours_cons, gFileCopyOnce_eq_none h]

theorem copyFlavours_there {types : List HildonThumbnailPluginOutType} (hlocal : localFile env v f.asPng t = some p)
    (hthere : gFileQueryExists s.files (f.thumb env.toCacheEnv t v) = true)
    (hclear : gFileQueryExists s.files p = false) :
    gFileQueryExists (copyFlavours env v f.asPng (t :: types) s).files p = true := by
  obtain ⟨file, hfile⟩ := Option.isSome_iff_exists.mp hthere
  rw [copyFlavours_cons, hlocal, gFileCopyOnce_eq_some.mpr ⟨p, file, rfl, hfile, hclear, rfl⟩]
  apply copyFlavours_mono
  rw [exists_insert, decide_eq_true rfl, Bool.true_or]

/-- Where nothing is in the way the copies go on to the first flavour that is missing. -/
theorem copyFlavours_copied {types : List HildonThumbnailPluginOutType} (hnodup : types.Nodup)
    {place : HildonThumbnailPluginOutType → Path} (hplace : ∀ t, localFile env v f.asPng t = some (place t))
    (hclear : ∀ t ∈ types, gFileQueryExists s.files (place t) = false) :
    (copyFlavours env v f.asPng types s).copied = s.copied ++
      (types.takeWhile fun t => gFileQueryExists s.files (f.thumb env.toCacheEnv t v)).map
        fun t => (f.thumb env.toCacheEnv t v, place t) := by
  induction types generalizing s with
  | nil => simp [copyFlavours]
  | cons t types ih =>
    rw [copyFlavours_cons, hplace]
    obtain ⟨hnotin, hnodup⟩ := List.nodup_cons.mp hnodup
    cases hfile : s.files.lookup (f.thumb env.toCacheEnv t v) with
    | none =>
      have hmissing : gFileQueryExists s.files (f.thumb env.toCacheEnv t v) = false := by
        rw [gFileQueryExists, hfile]
        rfl
      rw [gFileCopyOnce_eq_none (.inl hmissing), List.takeWhile_cons, hmissing]
      simp
    | some file =>
      have hthere : gFileQueryExists s.files (f.thumb env.toCacheEnv t v) = true := by
        rw [gFileQueryExists, hfile]
        rfl
      have hcopy := gFileCopyOnce_eq_some.mpr ⟨place t, file, rfl, hfile, hclear t List.mem_cons_self, rfl⟩
      rw [hcopy, List.takeWhile_cons, hthere]
      simp only [if_true, List.map_cons]
      have hother : ∀ r, r ≠ place t →
        gFileQueryExists (s.files.insert (place t) file) r = gFileQueryExists s.files r := by
        intro r hr
        rw [exists_insert, decide_eq_false hr, Bool.false_or]
      rw [ih hnodup]
      · have hsame : (fun t' => gFileQueryExists (s.files.insert (place t) file) (f.thumb env.toCacheEnv t' v)) =
            fun t' => gFileQueryExists s.files (f.thumb env.toCacheEnv t' v) := by
          funext t'
          exact hother _ fun heq => localFile_ne_thumb (hplace t) heq.symm
        rw [hsame, List.append_assoc]
        rfl
      · intro t' ht'
        rw [hother _ fun heq => ?_]
        · exact hclear t' (List.mem_cons_of_mem _ ht')
        · have hsame := (samePlace_of_localFile (hplace t') (heq ▸ hplace t)).2.1
          exact hnotin (hsame ▸ ht')

/-- A thumbnail of the URI, and its place next to the original. -/
def CopyOf (env : LocalEnv) (v : String) (copy : Path × Path) : Prop :=
  ∃ (f : OutFormat) (t : HildonThumbnailPluginOutType), copy.1 = f.thumb env.toCacheEnv t v ∧
    localFile env v f.asPng t = some copy.2

theorem mem_copyFlavours {copy : Path × Path} {types : List HildonThumbnailPluginOutType}
    (h : copy ∈ (copyFlavours env v f.asPng types s).copied) : copy ∈ s.copied ∨ CopyOf env v copy := by
  induction types generalizing s with
  | nil => exact .inl h
  | cons t types ih =>
    rw [copyFlavours_cons] at h
    cases hcopy : gFileCopyOnce s (f.thumb env.toCacheEnv t v) (localFile env v f.asPng t) with
    | none =>
      rw [hcopy] at h
      exact .inl h
    | some s' =>
      rw [hcopy] at h
      obtain ⟨q, file, hq, _, _, rfl⟩ := gFileCopyOnce_eq_some.mp hcopy
      rcases ih h with hold | hnew
      · rcases List.mem_append.mp hold with hold | hlast
        · exact .inl hold
        · obtain rfl := List.mem_singleton.mp hlast
          exact .inr ⟨f, t, rfl, hq⟩
      · exact .inr hnew

theorem mem_copyUri {copy : Path × Path} (h : copy ∈ (copyUri env s v).copied) :
    copy ∈ s.copied ∨ CopyOf env v copy := by
  have hjpeg : copy ∈ (copyFlavours env v OutFormat.jpeg.asPng [.large, .normal, .cropped]
      (copyFlavours env v OutFormat.png.asPng [.large, .normal, .cropped] s)).copied := h
  rcases mem_copyFlavours hjpeg with hpng | hnew
  · exact mem_copyFlavours hpng
  · exact .inr hnew

end Runs

theorem copyUris_cons (env : LocalEnv) (v : String) (uris : List String) (s : CopyRun) :
    copyUris env (v :: uris) s = if strvContains remotefss v then copyUris env uris (copyUri env s v)
      else copyUris env uris s := by
  rw [copyUris, List.foldl_cons]
  split <;> rfl

theorem mem_copyUris {env : LocalEnv} {uris : List String} {s : CopyRun} {copy : Path × Path}
    (h : copy ∈ (copyUris env uris s).copied) :
    copy ∈ s.copied ∨ ∃ v ∈ uris.filter (strvContains remotefss), CopyOf env v copy := by
  induction uris generalizing s with
  | nil => exact .inl h
  | cons v uris ih =>
    rw [copyUris_cons] at h
    rw [List.filter_cons]
    split at h
    · next hremote =>
      rw [if_pos hremote]
      rcases ih h with hold | ⟨w, hw, hcopy⟩
      · rcases mem_copyUri hold with hold | hcopy
        · exact .inl hold
        · exact .inr ⟨v, List.mem_cons_self, hcopy⟩
      · exact .inr ⟨w, List.mem_cons_of_mem _ hw, hcopy⟩
    · next hremote =>
      rw [if_neg hremote]
      exact ih h

theorem mem_copyGroup_remoteCopies (w : WorkEnv) (task : WorkTask) (env : LocalEnv) (files : Files)
    {g : UrlGroup} (hg : g ∈ groups w (sortUrls w task).schemes) {copy : Path × Path}
    (h : copy ∈ (copyGroup env g.uris (handleGroup w task.num g.uriScheme g.mimeType g.uris).hadErr files).copied) :
    ∃ u ∈ remoteCopies w task, CopyOf env u copy := by
  cases herr : (handleGroup w task.num g.uriScheme g.mimeType g.uris).hadErr with
  | true =>
    rw [herr] at h
    exact absurd h List.not_mem_nil
  | false =>
    rw [herr] at h
    rcases mem_copyUris (h : copy ∈ (copyUris env g.uris ⟨files, []⟩).copied) with hold | ⟨u, hu, hcopy⟩
    · exact absurd hold List.not_mem_nil
    · refine ⟨u, List.mem_flatMap.mpr ⟨g, hg, ?_⟩, hcopy⟩
      rw [herr, if_neg Bool.false_ne_true]
      exact hu

def SameThumbs (env : LocalEnv) (files : Files) (s : CopyRun) : Prop :=
  ∀ (g : OutFormat) t w, s.files.lookup (g.thumb env.toCacheEnv t w) = files.lookup (g.thumb env.toCacheEnv t w)

theorem SameThumbs.exists {env : LocalEnv} {files : Files} {s : CopyRun} (h : SameThumbs env files s)
    (g : OutFormat)
    (t : HildonThumbnailPluginOutType) (w : String) : gFileQueryExists s.files (g.thumb env.toCacheEnv t w) =
      gFileQueryExists files (g.thumb env.toCacheEnv t w) := by
  rw [gFileQueryExists, h, gFileQueryExists]

def reached (env : LocalEnv) (files : Files) (f : OutFormat) (v : String) : List HildonThumbnailPluginOutType :=
  [.large, .normal, .cropped].takeWhile fun t => gFileQueryExists files (f.thumb env.toCacheEnv t v)

/-- A URI that has the same place next to its original, and a large thumbnail to be copied there. -/
def sharesPlace (env : LocalEnv) (files : Files) (f : OutFormat) (u v : String) : Bool :=
  decide (localFile env v f.asPng .large = localFile env u f.asPng .large) &&
    gFileQueryExists files (f.thumb env.toCacheEnv .large v)

section CopiedFor
variable (place : HildonThumbnailPluginOutType → Path)

structure Untouched (s : CopyRun) : Prop where
  missing : ∀ t, gFileQueryExists s.files (place t) = false
  untold : ∀ t a, (a, place t) ∉ s.copied

structure CopiedFor (env : LocalEnv) (files : Files) (f : OutFormat) (v : String) (s : CopyRun) : Prop where
  there : gFileQueryExists s.files (place .large) = true
  told : ∀ t a, (a, place t) ∈ s.copied ↔ a = f.thumb env.toCacheEnv t v ∧ t ∈ reached env files f v

variable {place} {env : LocalEnv} {files : Files} {f g : OutFormat} {u v w : String} {s : CopyRun}

theorem Untouched.congr {s' : CopyRun} (h : Untouched place s)
    (hframe : ∀ t, s'.files.lookup (place t) = s.files.lookup (place t) ∧
      ∀ a, (a, place t) ∈ s'.copied ↔ (a, place t) ∈ s.copied) : Untouched place s' where
  missing t := by
    rw [gFileQueryExists, (hframe t).1]
    exact h.missing t
  untold t a := by
    rw [(hframe t).2]
    exact h.untold t a

theorem CopiedFor.congr {s' : CopyRun} (h : CopiedFor place env files f w s)
    (hframe : ∀ t, s'.files.lookup (place t) = s.files.lookup (place t) ∧
      ∀ a, (a, place t) ∈ s'.copied ↔ (a, place t) ∈ s.copied) : CopiedFor place env files f w s' where
  there := by
    rw [gFileQueryExists, (hframe .large).1]
    exact h.there
  told t a := by rw [(hframe t).2, h.told]

theorem SameThumbs.round (h : SameThumbs env files s) (g : OutFormat) (v : String) :
    SameThumbs env files (copyFlavours env v g.asPng [.large, .normal, .cropped] s) :=
  fun _ _ w => (copyFlavours_thumb _ w).trans (h _ _ w)

theorem SameThumbs.copyUri (h : SameThumbs env files s) (v : String) : SameThumbs env files (copyUri env s v) :=
  (h.round .png v).round .jpeg v

variable (hplace : ∀ t, localFile env u f.asPng t = some (place t))
include hplace

theorem localFile_eq_place (h : localFile env v f.asPng .large = localFile env u f.asPng .large)
    (t : HildonThumbnailPluginOutType) : localFile env v f.asPng t = some (place t) := by
  have hsame := (samePlace_of_localFile (h.trans (hplace .large)) (hplace .large)).2.2 f.asPng
  rw [← hplace t, localFile, hsame, localFile]

/-- A round in the other format or for another place does not touch this place. -/
theorem copyFlavours_elsewhere (h : g ≠ f ∨ localFile env v f.asPng .large ≠ localFile env u f.asPng .large)
    (types : List HildonThumbnailPluginOutType) (s : CopyRun) (t : HildonThumbnailPluginOutType) :
    (copyFlavours env v g.asPng types s).files.lookup (place t) = s.files.lookup (place t) ∧
      ∀ a, (a, place t) ∈ (copyFlavours env v g.asPng types s).copied ↔ (a, place t) ∈ s.copied := by
  apply copyFlavours_frame
  intro t' _ hlocal
  obtain ⟨hformat, _, hpaths⟩ := samePlace_of_localFile hlocal (hplace t)
  rcases h with h | h
  · exact h hformat
  · apply h
    rw [localFile, hpaths, localFile]

theorem place_inj {t t' : HildonThumbnailPluginOutType} (h : place t = place t') : t = t' :=
  (samePlace_of_localFile (hplace t) (h ▸ hplace t')).2.1

theorem Untouched.round (h : Untouched place s) (hsame : SameThumbs env files s) (g : OutFormat) (v : String) :
    let after := copyFlavours env v g.asPng [.large, .normal, .cropped] s
    if g = f ∧ sharesPlace env files f u v = true then CopiedFor place env files f v after
    else Untouched place after := by
  intro after
  by_cases hshares : g = f ∧ localFile env v f.asPng .large = localFile env u f.asPng .large
  · obtain ⟨rfl, hlarge⟩ := hshares
    have hlocal := localFile_eq_place hplace hlarge
    cases hthere : gFileQueryExists files (g.thumb env.toCacheEnv .large v) with
    | true =>
      rw [if_pos ⟨rfl, by simp [sharesPlace, hlarge, hthere]⟩]
      have hcopied : after.copied = s.copied ++
          (reached env files g v).map fun t => (g.thumb env.toCacheEnv t v, place t) := by
        have hprefix :=
          copyFlavours_copied (by decide : [.large, .normal, .cropped].Nodup) hlocal fun t _ => h.missing t
        simp only [hsame.exists] at hprefix
        exact hprefix
      constructor
      · exact copyFlavours_there (hlocal .large) (by rw [hsame.exists, hthere]) (h.missing .large)
      · intro t a
        rw [hcopied, List.mem_append, List.mem_map]
        constructor
        · rintro (hold | ⟨t', ht', heq⟩)
          · exact absurd hold (h.untold t a)
          · obtain ⟨rfl, hp⟩ := Prod.mk.inj heq
            obtain rfl := place_inj hplace hp
            exact ⟨rfl, ht'⟩
        · rintro ⟨rfl, ht⟩
          exact .inr ⟨t, ht, rfl⟩
    | false =>
      have hunchanged : after = s := copyFlavours_blocked (.inl (by rw [hsame.exists, hthere]))
      rw [if_neg (by simp [sharesPlace, hthere]), hunchanged]
      exact h
  · rw [if_neg]
    · apply h.congr
      exact copyFlavours_elsewhere hplace (not_and_or.mp hshares) _ s
    · rintro ⟨rfl, hs⟩
      exact hshares ⟨rfl, of_decide_eq_true (Bool.and_eq_true_iff.mp hs).1⟩

theorem CopiedFor.round (h : CopiedFor place env files f w s) (g : OutFormat) (v : String) :
    CopiedFor place env files f w (copyFlavours env v g.asPng [.large, .normal, .cropped] s) := by
  by_cases hshares : g = f ∧ localFile env v f.asPng .large = localFile env u f.asPng .large
  · obtain ⟨rfl, hlarge⟩ := hshares
    rw [copyFlavours_blocked (.inr ?_)]
    · exact h
    · intro p hp
      obtain rfl := Option.some.inj ((localFile_eq_place hplace hlarge .large).symm.trans hp)
      exact h.there
  · exact h.congr (copyFlavours_elsewhere hplace (not_and_or.mp hshares) _ s)

theorem CopiedFor.copyUri (h : CopiedFor place env files f w s) (v : String) :
    CopiedFor place env files f w (copyUri env s v) :=
  (h.round hplace .png v).round hplace .jpeg v

theorem Untouched.copyUri (h : Untouched place s) (hsame : SameThumbs env files s) (v : String) :
    if sharesPlace env files f u v = true then CopiedFor place env files f v (copyUri env s v)
    else Untouched place (copyUri env s v) := by
  have hpng := h.round hplace hsame .png v
  cases f with
  | png =>
    by_cases hshares : sharesPlace env files .png u v = true
    · rw [if_pos hshares]
      rw [if_pos ⟨rfl, hshares⟩] at hpng
      exact hpng.round hplace .jpeg v
    · rw [if_neg hshares]
      rw [if_neg fun hh => hshares hh.2] at hpng
      have hjpeg := hpng.round hplace (hsame.round .png v) .jpeg v
      rwa [if_neg fun hh => nomatch hh.1] at hjpeg
  | jpeg =>
    rw [if_neg fun hh => nomatch hh.1] at hpng
    have hjpeg := hpng.round hplace (hsame.round .png v) .jpeg v
    simp only [true_and] at hjpeg
    exact hjpeg

theorem CopiedFor.copyUris (h : CopiedFor place env files f w s) (uris : List String) :
    CopiedFor place env files f w (copyUris env uris s) := by
  induction uris generalizing s with
  | nil => exact h
  | cons v uris ih =>
    rw [copyUris_cons]
    split
    · exact ih (h.copyUri hplace v)
    · exact ih h

/-- The first URI of the group that has something for a place is the one that is copied there. -/
theorem Untouched.copyUris (h : Untouched place s) (hsame : SameThumbs env files s) (uris : List String) :
    match uris.find? fun v => strvContains remotefss v && sharesPlace env files f u v with
    | none => Untouched place (copyUris env uris s)
    | some v => CopiedFor place env files f v (copyUris env uris s) := by
  induction uris generalizing s with
  | nil => exact h
  | cons v uris ih =>
    rw [List.find?_cons, copyUris_cons]
    cases hremote : strvContains remotefss v with
    | false =>
      rw [Bool.false_and, if_neg Bool.false_ne_true]
      exact ih h hsame
    | true =>
      have hstep := h.copyUri hplace hsame v
      rw [Bool.true_and, if_pos rfl]
      cases hshares : sharesPlace env files f u v with
      | true =>
        rw [if_pos hshares] at hstep
        exact hstep.copyUris hplace uris
      | false =>
        rw [if_neg (by rw [hshares]; exact Bool.false_ne_true)] at hstep
        exact ih hstep (hsame.copyUri v)

end CopiedFor

def ReportedReady (outcome : GroupOutcome) (u : String) : Prop :=
  ∃ uris, Signal.ready uris ∈ outcome.signals ∧ u ∈ uris

def NoLocalCopies (env : LocalEnv) (files : Files) (u : String) : Prop :=
  ∀ (f : OutFormat) t p, localFile env u f.asPng t = some p → gFileQueryExists files p = false

def ToBeCopied (env : LocalEnv) (files : Files) (uris : List String) (outcome : GroupOutcome) (u : String) : Prop :=
  u ∈ uris ∧ ReportedReady outcome u ∧ strvContains remotefss u = true ∧ NoLocalCopies env files u

/-- Nothing keeps the thumbnails of a format from being copied. -/
structure Unhindered (env : LocalEnv) (files : Files) (uris : List String) (hadErr : Bool) (u : String)
    (f : OutFormat) : Prop where
  noError : hadErr = false
  large : gFileQueryExists files (f.thumb env.toCacheEnv .large u) = true
  normal : gFileQueryExists files (f.thumb env.toCacheEnv .cropped u) = true →
    gFileQueryExists files (f.thumb env.toCacheEnv .normal u) = true
  alone : ∀ v, (uris.find? fun v => strvContains remotefss v && sharesPlace env files f u v) = some v →
    f.thumb env.toCacheEnv .large v = f.thumb env.toCacheEnv .large u

section Copied
variable {env : LocalEnv} {files : Files} {uris : List String} {f : OutFormat} {u v : String}
  {s t : HildonThumbnailPluginOutType} {p : Path}

theorem thumb_congr (h : f.thumb env.toCacheEnv s u = f.thumb env.toCacheEnv s v)
    (t : HildonThumbnailPluginOutType) :
    f.thumb env.toCacheEnv t u = f.thumb env.toCacheEnv t v := by
  have hdigest : digestName env.toCacheEnv u f.asPng = digestName env.toCacheEnv v f.asPng := by
    simpa [OutFormat.thumb] using h
  rw [OutFormat.thumb, hdigest, OutFormat.thumb]

theorem mem_reached : t ∈ reached env files f v ↔ gFileQueryExists files (f.thumb env.toCacheEnv .large v) = true ∧
    (t ≠ .large → gFileQueryExists files (f.thumb env.toCacheEnv .normal v) = true) ∧
    (t = .cropped → gFileQueryExists files (f.thumb env.toCacheEnv .cropped v) = true) := by
  rw [reached]
  cases hlarge : gFileQueryExists files (f.thumb env.toCacheEnv .large v) <;>
    cases hnormal : gFileQueryExists files (f.thumb env.toCacheEnv .normal v) <;>
    cases hcropped : gFileQueryExists files (f.thumb env.toCacheEnv .cropped v) <;>
    cases t <;> simp [hlarge, hnormal, hcropped]

theorem exists_place (h : localFile env u f.asPng s = some p) :
    ∃ place : HildonThumbnailPluginOutType → Path, ∀ t, localFile env u f.asPng t = some (place t) := by
  rw [localFile, Option.map_eq_some_iff] at h
  obtain ⟨paths, hpaths, _⟩ := h
  refine ⟨paths.file, fun t => ?_⟩
  rw [localFile, hpaths]
  rfl

theorem untouched_start (hnone : NoLocalCopies env files u) {place : HildonThumbnailPluginOutType → Path}
    (hplace : ∀ t, localFile env u f.asPng t = some (place t)) : Untouched place ⟨files, []⟩ where
  missing t := hnone f t _ (hplace t)
  untold _ _ := List.not_mem_nil

theorem unhindered_of_copied (hnone : NoLocalCopies env files u) {place : HildonThumbnailPluginOutType → Path}
    (hplace : ∀ t, localFile env u f.asPng t = some (place t))
    (h : ∀ t, gFileQueryExists files (f.thumb env.toCacheEnv t u) = true →
      (f.thumb env.toCacheEnv t u, place t) ∈ (copyUris env uris ⟨files, []⟩).copied)
    (ht : gFileQueryExists files (f.thumb env.toCacheEnv t u) = true) : Unhindered env files uris false u f := by
  have hrun := (untouched_start hnone hplace).copyUris hplace (fun _ _ _ => rfl : SameThumbs env files _) uris
  cases hfind : uris.find? fun v => strvContains remotefss v && sharesPlace env files f u v with
  | none =>
    rw [hfind] at hrun
    exact absurd (h t ht) (hrun.untold t _)
  | some v =>
    rw [hfind] at hrun
    obtain ⟨hthumb, hreached⟩ := (hrun.told t _).mp (h t ht)
    have hsame := thumb_congr hthumb
    constructor
    · rfl
    · rw [hsame]
      exact (mem_reached.mp hreached).1
    · intro hcropped
      have hall := mem_reached.mp ((hrun.told .cropped _).mp (h .cropped hcropped)).2
      rw [hsame]
      exact hall.2.1 (by decide)
    · intro w hw
      obtain rfl := Option.some.inj (hfind.symm.trans hw)
      exact (hsame .large).symm

theorem copied_of_unhindered (hu : u ∈ uris) (hremote : strvContains remotefss u = true)
    (hnone : NoLocalCopies env files u) {place : HildonThumbnailPluginOutType → Path}
    (hplace : ∀ t, localFile env u f.asPng t = some (place t))
    (ht : gFileQueryExists files (f.thumb env.toCacheEnv t u) = true) (h : Unhindered env files uris false u f) :
    (f.thumb env.toCacheEnv t u, place t) ∈ (copyUris env uris ⟨files, []⟩).copied := by
  have hrun := (untouched_start hnone hplace).copyUris hplace (fun _ _ _ => rfl : SameThumbs env files _) uris
  obtain ⟨v, hfind⟩ :
      ∃ v, (uris.find? fun v => strvContains remotefss v && sharesPlace env files f u v) = some v := by
    apply Option.isSome_iff_exists.mp
    rw [List.find?_isSome]
    exact ⟨u, hu, by simp [hremote, sharesPlace, h.large]⟩
  have hsame := thumb_congr (h.alone v hfind)
  rw [hfind] at hrun
  apply (hrun.told t _).mpr
  refine ⟨(hsame t).symm, mem_reached.mpr ⟨?_, ?_, ?_⟩⟩
  · rw [hsame]
    exact h.large
  · intro hne
    rw [hsame]
    cases t with
    | large => exact absurd rfl hne
    | normal => exact ht
    | cropped => exact h.normal ht
  · rintro rfl
    rw [hsame]
    exact ht

/-- One URI and one format: what is there is copied exactly if nothing hinders it. -/
theorem copied_iff (hu : u ∈ uris) (hremote : strvContains remotefss u = true) (hnone : NoLocalCopies env files u)
    {place : HildonThumbnailPluginOutType → Path} (hplace : ∀ t, localFile env u f.asPng t = some (place t))
    (hadErr : Bool) :
    (∀ t, gFileQueryExists files (f.thumb env.toCacheEnv t u) = true →
      (f.thumb env.toCacheEnv t u, place t) ∈ (copyGroup env uris hadErr files).copied) ↔
    ∀ t, gFileQueryExists files (f.thumb env.toCacheEnv t u) = true → Unhindered env files uris hadErr u f := by
  cases hadErr with
  | true =>
    constructor
    · intro h t ht
      exact absurd (h t ht) List.not_mem_nil
    · intro h t ht
      exact nomatch (h t ht).noError
  | false =>
    constructor
    · intro h t ht
      exact unhindered_of_copied hnone hplace h ht
    · intro h t ht
      exact copied_of_unhindered hu hremote hnone hplace ht (h t ht)

end Copied

/-- What is copied of a group: everything exactly where no URI of it failed, the large flavour is
there with the others, the normal one with the cropped one, and no URI comes before for its place. -/
theorem copyGroup_iff (w : WorkEnv) (num : UInt32) (uriScheme mimeType : String) (uris : List String)
    (env : LocalEnv) (files : Files) :
    (∀ u, ToBeCopied env files uris (handleGroup w num uriScheme mimeType uris) u →
      ∀ (f : OutFormat) t p, localFile env u f.asPng t = some p →
        gFileQueryExists files (f.thumb env.toCacheEnv t u) = true →
        (f.thumb env.toCacheEnv t u, p) ∈
          (copyGroup env uris (handleGroup w num uriScheme mimeType uris).hadErr files).copied) ↔
    ∀ u, ToBeCopied env files uris (handleGroup w num uriScheme mimeType uris) u →
      ∀ (f : OutFormat) t p, localFile env u f.asPng t = some p →
        gFileQueryExists files (f.thumb env.toCacheEnv t u) = true →
        Unhindered env files uris (handleGroup w num uriScheme mimeType uris).hadErr u f := by
  apply forall₂_congr
  rintro u ⟨hu, _, hremote, hnone⟩
  apply forall_congr'
  intro f
  constructor
  · intro h t p hp
    obtain ⟨place, hplace⟩ := exists_place hp
    exact (copied_iff hu hremote hnone hplace _).mp (fun t => h t _ (hplace t)) t
  · intro h t p hp
    obtain ⟨place, hplace⟩ := exists_place hp
    obtain rfl := Option.some.inj ((hplace t).symm.trans hp)
    exact (copied_iff hu hremote hnone hplace _).mpr (fun t => h t _ (hplace t)) t

def cardEnv : LocalEnv where
  home := ["home", "user"]
  md5 := id
  fileInfo := fun _ => some ⟨"a.png", 5⟩
  parent := fun _ => some ["media", "card"]

def cardFiles : Files :=
  (∅ : Files).insert (OutFormat.jpeg.thumb cardEnv.toCacheEnv .cropped "file:///media/card/a.png") ⟨5, .jpeg⟩

/-- The copy of the large flavour fails, and that of the cropped one is not tried. -/
theorem copyGroup_cropped_only : ¬ ∀ (w : WorkEnv) (num : UInt32) (uriScheme mimeType : String) (uris : List String)
    (env : LocalEnv) (files : Files) (u : String),
    ToBeCopied env files uris (handleGroup w num uriScheme mimeType uris) u →
      ∀ (f : OutFormat) t p, localFile env u f.asPng t = some p →
        gFileQueryExists files (f.thumb env.toCacheEnv t u) = true →
        (f.thumb env.toCacheEnv t u, p) ∈
          (copyGroup env uris (handleGroup w num uriScheme mimeType uris).hadErr files).copied := by
  intro h
  have houtcome : handleGroup sampleWorkEnv 1 "file" "image/png" ["file:///media/card/a.png"] =
      ⟨[.ready ["file:///media/card/a.png"]], false⟩ := rfl
  have hnone : NoLocalCopies cardEnv cardFiles "file:///media/card/a.png" := by
    intro f t p hp
    have hmissing : (localFile cardEnv "file:///media/card/a.png" f.asPng t).all
        (fun p => !gFileQueryExists cardFiles p) = true := by
      cases f <;> cases t <;> rfl
    rw [hp] at hmissing
    simpa using hmissing
  have hcopied := h sampleWorkEnv 1 "file" "image/png" ["file:///media/card/a.png"] cardEnv cardFiles
    "file:///media/card/a.png"
    ⟨List.mem_singleton_self _, ⟨_, by rw [houtcome]; exact List.mem_singleton_self _, List.mem_singleton_self _⟩,
      by decide, hnone⟩ .jpeg .cropped _ rfl rfl
  have hnothing : (copyGroup cardEnv ["file:///media/card/a.png"] false cardFiles).copied = [] := rfl
  rw [houtcome, hnothing] at hcopied
  exact List.not_mem_nil hcopied

end HildonThumbnail
