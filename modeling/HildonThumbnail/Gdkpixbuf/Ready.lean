import Mathlib.Data.Set.Operations
import HildonThumbnail.Gdkpixbuf.Create
import HildonThumbnail.Thumbnailer.WorkSignals

/-! What a URI without an error is worth: an output plugin has to be active and
some flavour has to be made, or nothing is written for it. -/

namespace HildonThumbnail

namespace Gdkpixbuf

section Flavours
variable {env : Env} {files : Files} {i : Nat} {m : UInt64} {u v : String}
  {types : List HildonThumbnailPluginOutType} {t : HildonThumbnailPluginOutType} {errFile : Bool}

theorem errFile_of_needsSome (h : (needsSome env files i m u types errFile).errFile = false) : errFile = false := by
  induction types generalizing errFile with
  | nil => exact h
  | cons t types ih =>
    rw [needsSome] at h
    split at h
    · exact errFile_of_needsOut h
    · exact errFile_of_needsOut (ih h)

/-- Nothing to do and no failure on file: every flavour asked for is there. -/
theorem thumb_of_not_needsSome (hr : (needsSome env files i m u types errFile).retval = false)
    (he : (needsSome env files i m u types errFile).errFile = false) (ht : t ∈ types) {p : OutPlugin}
    (hp : p ∈ env.plugins) (ha : p.isActive = true) :
    ∃ a, Png.stamp files (p.format.thumb env.cache t u) = some a ∧ sameTime a m = true := by
  induction types generalizing errFile with
  | nil => cases ht
  | cons s types ih =>
    rw [needsSome] at hr he
    split at hr
    · next hneeds => exact absurd hr (by simp [hneeds])
    · next hneeds =>
      rw [if_neg hneeds] at he
      rcases List.mem_cons.mp ht with rfl | ht
      · have herr := errFile_of_needsSome he
        have hfound : outpluginsNeedsOut env.cache (env.now i (.needsOut t)) t m u files env.plugins errFile =
            ⟨false, false⟩ := Png.NeedsOut.ext (Bool.eq_false_iff.mpr hneeds) herr
        exact thumb_of_not_needsOut hfound hp ha
      · exact ih hr he ht

theorem exists_active_of_needsSome (h : (needsSome env files i m u types errFile).retval = true) :
    ∃ p ∈ env.plugins, p.isActive = true := by
  induction types generalizing errFile with
  | nil => cases h
  | cons t types ih =>
    rw [needsSome] at h
    split at h
    · next hneeds => exact exists_active_of_needsOut hneeds
    · exact ih h

theorem needsSome_congr {files' : Files} (h : SameStamps env.cache u files files') :
    needsSome env files' i m u types errFile = needsSome env files i m u types errFile := by
  induction types generalizing errFile with
  | nil => rfl
  | cons t types ih => simp only [needsSome, outpluginsNeedsOut_congr h, ih]

theorem stamps_makeFlavour {m' : UInt64} (hmd5 : env.cache.md5 u = env.cache.md5 v → u = v) (hm : v = u → m = m') :
    Stamps env.cache u m' files (makeFlavour env i m v files errFile t).files := by
  rw [makeFlavour]
  split
  · have hout : Stamps env.cache u m' files
        (outpluginsDoOut env.cache (env.now i (.doOut t)) t m v env.plugins (env.saved i t) files none).1 :=
      stamps_outpluginsDoOut hmd5 hm _ none
    split
    · exact .refl _ _ _ _
    · split
      · next hwritten => simpa [hwritten] using hout
      · next hwritten => simpa [hwritten] using hout
  · exact .refl _ _ _ _

theorem stamps_makeFlavours {m' : UInt64} (hmd5 : env.cache.md5 u = env.cache.md5 v → u = v) (hm : v = u → m = m') :
    Stamps env.cache u m' files (makeFlavours env i m v types files errFile).files := by
  induction types generalizing files errFile with
  | nil => exact .refl _ _ _ _
  | cons t types ih =>
    rw [makeFlavours]
    split
    · exact stamps_makeFlavour hmd5 hm
    · exact (stamps_makeFlavour hmd5 hm).trans ih

theorem errFile_of_makeFlavour (h : (makeFlavour env i m u files errFile t).errFile = false) : errFile = false := by
  rw [makeFlavour] at h
  split at h
  · split at h
    · exact errFile_of_needsOut h
    · split at h <;> exact errFile_of_needsOut h
  · exact errFile_of_needsOut h

theorem errFile_of_makeFlavours (h : (makeFlavours env i m u types files errFile).errFile = false) :
    errFile = false := by
  induction types generalizing files errFile with
  | nil => exact h
  | cons t types ih =>
    rw [makeFlavours] at h
    split at h
    · exact errFile_of_makeFlavour h
    · exact errFile_of_makeFlavour (ih h)

/-- A flavour is made, or found to be there when it is asked for again. -/
theorem upToDate_makeFlavour (hn : (makeFlavour env i m u files errFile t).nerror = none)
    (he : (makeFlavour env i m u files errFile t).errFile = false) {p : OutPlugin} (hp : p ∈ env.plugins)
    (ha : p.isActive = true) : UpToDate env.cache (makeFlavour env i m u files errFile t).files u m := by
  rw [makeFlavour] at hn he ⊢
  split at hn
  · next hneeds =>
    rw [if_pos hneeds] at he ⊢
    cases hload : env.pixbuf i t with
    | some message => simp [hload] at hn
    | none =>
      simp only [hload] at hn he ⊢
      split at hn
      · cases hn
      · next written hwritten =>
        have hthumb := thumb_of_outpluginsDoOut (congrArg Prod.snd hwritten) hp ha
        rw [hwritten] at hthumb
        exact ⟨p.format, t, m, hthumb, sameTime_self m⟩
  · next hneeds =>
    rw [if_neg hneeds] at he ⊢
    obtain ⟨a, hthumb, hsame⟩ := thumb_of_not_needsOut (Png.NeedsOut.ext (Bool.eq_false_iff.mpr hneeds) he) hp ha
    exact ⟨p.format, t, a, hthumb, hsame⟩

theorem upToDate_makeFlavours (hn : (makeFlavours env i m u types files errFile).nerror = none)
    (he : (makeFlavours env i m u types files errFile).errFile = false) (htypes : types ≠ []) {p : OutPlugin}
    (hp : p ∈ env.plugins) (ha : p.isActive = true) :
    UpToDate env.cache (makeFlavours env i m u types files errFile).files u m := by
  cases types with
  | nil => exact absurd rfl htypes
  | cons t types =>
    rw [makeFlavours] at hn he ⊢
    split at hn
    · next hsome => exact absurd hn (Option.isSome_iff_ne_none.mp hsome)
    · next hsome =>
      rw [if_neg hsome] at he ⊢
      have hfirst :=
        upToDate_makeFlavour (Option.not_isSome_iff_eq_none.mp hsome) (errFile_of_makeFlavours he) hp ha
      exact (stamps_makeFlavours (fun _ => rfl) (fun _ => rfl)).upToDate hfirst

end Flavours

def Env.Makes (env : Env) : Prop := (∃ p ∈ env.plugins, p.isActive = true) ∧ env.made ≠ []

/-- The plugin has nothing against the URI as it finds it: it can be looked at,
is not too large, no failure is on file, and it can be read if need be. -/
def Accepted (env : Env) (files : Files) (i : Nat) (uri : String) : Prop :=
  ∃ info, originalInfo env uri = .ok info ∧ (needsSome env files i info.mtime uri env.asked false).errFile = false ∧
    ((needsSome env files i info.mtime uri env.asked false).retval = true → env.read i = none)

theorem queryInfo_of_originalInfo {env : Env} {uri : String} {info : OriginalInfo}
    (h : originalInfo env uri = .ok info) : env.queryInfo uri = .ok info := by
  rw [originalInfo] at h
  split at h
  · cases h
  · split at h
    · cases h
    · next hq =>
      split at h
      · cases h
      · rw [hq, Except.ok.inj h]

theorem fails_eq_false {round : Round} : round.fails = false ↔ round.nerror = none ∧ round.errFile = false := by
  simp [Round.fails]

section Rounds
variable {env : Env} {files files' : Files} {i : Nat} {u v : String} {info : OriginalInfo}

theorem stamps_createOne (hmd5 : env.cache.md5 u = env.cache.md5 v → u = v) (hq : env.queryInfo u = .ok info) :
    Stamps env.cache u info.mtime files (createOne env i v files).files := by
  rw [createOne]
  split
  · exact .refl _ _ _ _
  · next info' hinfo =>
    have hm : v = u → info'.mtime = info.mtime := by
      rintro rfl
      have hsame := (queryInfo_of_originalInfo hinfo).symm.trans hq
      rw [Except.ok.inj hsame]
    dsimp only
    split
    · split
      · exact .refl _ _ _ _
      · exact stamps_makeFlavours hmd5 hm
    · exact .refl _ _ _ _

theorem upToDate_createOne (hmakes : env.Makes) (h : (createOne env i u files).fails = false) :
    ∃ info, env.queryInfo u = .ok info ∧ UpToDate env.cache (createOne env i u files).files u info.mtime := by
  obtain ⟨⟨p, hp, ha⟩, hmade⟩ := hmakes
  obtain ⟨hn, he⟩ := fails_eq_false.mp h
  rw [createOne] at hn he ⊢
  split at hn
  · cases hn
  · next info hinfo =>
    refine ⟨info, queryInfo_of_originalInfo hinfo, ?_⟩
    simp only [hinfo] at hn he ⊢
    split at hn
    · next hneeds =>
      rw [if_pos hneeds] at he ⊢
      split at hn
      · cases hn
      · next hread =>
        simp only [hread] at he ⊢
        exact upToDate_makeFlavours hn he hmade hp ha
    · next hneeds =>
      rw [if_neg hneeds] at he ⊢
      obtain ⟨a, hthumb, hsame⟩ := thumb_of_not_needsSome (Bool.eq_false_iff.mpr hneeds) he
        (List.mem_append_right _ (List.mem_singleton_self _)) hp ha
      exact ⟨p.format, .cropped, a, hthumb, hsame⟩

/-- Where nothing is made, a round writes nothing, and its end is told by what
it finds. -/
theorem createOne_of_not_makes (hmakes : ¬ env.Makes) : (createOne env i u files).files = files ∧
    ((createOne env i u files).fails = false ↔ Accepted env files i u) := by
  rw [createOne]
  split
  · next hinfo => exact ⟨rfl, by simp [Round.fails, Accepted, hinfo]⟩
  · next info hinfo =>
    dsimp only
    split
    · next hneeds =>
      have hmade : env.made = [] := by
        by_contra hmade
        exact hmakes ⟨exists_active_of_needsSome hneeds, hmade⟩
      split
      · next hread => exact ⟨rfl, by simp [Round.fails, Accepted, hinfo, hneeds, hread]⟩
      · next hread =>
        rw [hmade]
        exact ⟨rfl, by simp [makeFlavours, Round.fails, Accepted, hinfo, hread]⟩
    · next hneeds => exact ⟨rfl, by simp [Round.fails, Accepted, hinfo, hneeds]⟩

theorem accepted_congr (h : SameStamps env.cache u files files') :
    Accepted env files' i u ↔ Accepted env files i u := by
  simp only [Accepted, needsSome_congr h]

end Rounds

section Loop
variable {env : Env} {s : Created} {r : String × Nat} {rounds : List (String × Nat)} {u : String}
    {info : OriginalInfo}

theorem thumb_createStep (f : OutFormat) (t : HildonThumbnailPluginOutType) :
    Png.stamp (createStep env s r).files (f.thumb env.cache t u) =
      Png.stamp (createOne env r.2 r.1 s.files).files (f.thumb env.cache t u) := by
  rw [createStep, nerrorHandler]
  split
  · dsimp only
    split
    · rfl
    · split
      · rfl
      · exact thumb_outpluginsPutError _ f t
  · rfl

theorem stamps_createStep (hmd5 : env.cache.md5 u = env.cache.md5 r.1 → u = r.1) (hq : env.queryInfo u = .ok info) :
    Stamps env.cache u info.mtime s.files (createStep env s r).files := by
  intro f t
  rw [thumb_createStep]
  exact stamps_createOne hmd5 hq f t

theorem stamps_loop (hmd5 : ∀ r ∈ rounds, env.cache.md5 u = env.cache.md5 r.1 → u = r.1)
    (hq : env.queryInfo u = .ok info) :
    Stamps env.cache u info.mtime s.files (rounds.foldl (createStep env) s).files := by
  induction rounds generalizing s with
  | nil => exact .refl _ _ _ _
  | cons r rounds ih =>
    obtain ⟨hmd5, hrest⟩ := List.forall_mem_cons.mp hmd5
    exact (stamps_createStep hmd5 hq).trans (ih hrest)

theorem mem_failed_createStep : u ∈ (createStep env s r).failed ↔
    r.1 = u ∧ (createOne env r.2 r.1 s.files).fails = true ∨ u ∈ s.failed := by
  rw [createStep, nerrorHandler]
  split
  · next hf => simp [hf, eq_comm]
  · next hf => simp [hf]

theorem mem_failed_loop (h : u ∈ s.failed) : u ∈ (rounds.foldl (createStep env) s).failed := by
  induction rounds generalizing s with
  | nil => exact h
  | cons r rounds ih => exact ih (mem_failed_createStep.mpr (.inr h))

/-- The last round of a URI that never fails leaves it up to date. -/
theorem upToDate_loop (hmakes : env.Makes) (hmd5 : ∀ r ∈ rounds, env.cache.md5 u = env.cache.md5 r.1 → u = r.1)
    (hu : ∃ i, (u, i) ∈ rounds) (hfailed : u ∉ (rounds.foldl (createStep env) s).failed) :
    ∃ info, env.queryInfo u = .ok info ∧
      UpToDate env.cache (rounds.foldl (createStep env) s).files u info.mtime := by
  induction rounds generalizing s with
  | nil => simp at hu
  | cons r rounds ih =>
    obtain ⟨hmd5, hrest⟩ := List.forall_mem_cons.mp hmd5
    by_cases hlater : ∃ i, (u, i) ∈ rounds
    · exact ih hrest hlater hfailed
    · obtain ⟨i, hi⟩ := hu
      have hr : (u, i) = r := (List.mem_cons.mp hi).resolve_right fun h => hlater ⟨i, h⟩
      subst hr
      have hok : (createOne env i u s.files).fails = false := by
        by_contra hf
        have hstep := mem_failed_createStep (s := s) (r := (u, i)).mpr (.inl ⟨rfl, (Bool.not_eq_false _).mp hf⟩)
        rw [List.foldl_cons] at hfailed
        exact hfailed (mem_failed_loop hstep)
      obtain ⟨info, hq, f, t, a, hthumb, hsame⟩ := upToDate_createOne hmakes hok
      have hstep : UpToDate env.cache (createStep env s (u, i)).files u info.mtime :=
        ⟨f, t, a, thumb_createStep f t |>.trans hthumb, hsame⟩
      exact ⟨info, hq, (stamps_loop hrest hq).upToDate hstep⟩

/-- Where nothing is made, the thumbnails stay as they are. -/
theorem thumb_loop_of_not_makes (hmakes : ¬ env.Makes) (f : OutFormat) (t : HildonThumbnailPluginOutType) :
    Png.stamp (rounds.foldl (createStep env) s).files (f.thumb env.cache t u) =
      Png.stamp s.files (f.thumb env.cache t u) := by
  induction rounds generalizing s with
  | nil => rfl
  | cons r rounds ih =>
    refine ih.trans ?_
    rw [thumb_createStep, (createOne_of_not_makes hmakes).1]

/-- Errors are marked for the URI of the round alone, and only if it fails. -/
theorem sameStamps_createStep (hmakes : ¬ env.Makes) (hmd5 : env.cache.md5 u = env.cache.md5 r.1 → u = r.1)
    (h : r.1 = u → (createOne env r.2 r.1 s.files).fails = false) :
    SameStamps env.cache u s.files (createStep env s r).files := by
  have hround : (createOne env r.2 r.1 s.files).files = s.files := (createOne_of_not_makes hmakes).1
  rw [createStep, nerrorHandler]
  split
  · next hf =>
    have hne : r.1 ≠ u := fun hr => by simp [h hr] at hf
    rw [hround]
    dsimp only
    split
    · exact .refl _ _ _
    · split
      · exact .refl _ _ _
      · exact sameStamps_outpluginsPutError hmd5 hne _
  · rw [hround]
    exact .refl _ _ _

theorem mem_failed_loop_of_not_makes (hmakes : ¬ env.Makes)
    (hmd5 : ∀ r ∈ rounds, env.cache.md5 u = env.cache.md5 r.1 → u = r.1) :
    u ∈ (rounds.foldl (createStep env) s).failed ↔
      u ∈ s.failed ∨ ∃ i, (u, i) ∈ rounds ∧ ¬ Accepted env s.files i u := by
  induction rounds generalizing s with
  | nil => simp
  | cons r rounds ih =>
    obtain ⟨hmd5, hrest⟩ := List.forall_mem_cons.mp hmd5
    have haccepted : (createOne env r.2 r.1 s.files).fails = false ↔ Accepted env s.files r.2 r.1 :=
      (createOne_of_not_makes hmakes).2
    by_cases hf : r.1 = u ∧ (createOne env r.2 r.1 s.files).fails = true
    · have hstep : u ∈ (createStep env s r).failed := mem_failed_createStep.mpr (.inl hf)
      rw [List.foldl_cons]
      obtain ⟨rfl, hf⟩ := hf
      have hnot : ¬ Accepted env s.files r.2 r.1 := fun ha => by simp [haccepted.mpr ha] at hf
      exact ⟨fun _ => .inr ⟨r.2, List.mem_cons_self, hnot⟩, fun _ => mem_failed_loop hstep⟩
    · have hok : r.1 = u → (createOne env r.2 r.1 s.files).fails = false :=
        fun hr => Bool.eq_false_iff.mpr fun h => hf ⟨hr, h⟩
      have hsame := sameStamps_createStep hmakes hmd5 hok
      rw [List.foldl_cons, ih hrest, mem_failed_createStep, or_iff_right hf]
      simp only [accepted_congr hsame, List.mem_cons]
      refine or_congr_right (exists_congr fun i => and_congr_left fun hi => (or_iff_right ?_).symm)
      rintro rfl
      exact hi (haccepted.mp (hok rfl))

theorem errors_loop {s : Created} (h : s.errors = none → s.failed = []) :
    (rounds.foldl (createStep env) s).errors = none → (rounds.foldl (createStep env) s).failed = [] := by
  induction rounds generalizing s with
  | nil => exact h
  | cons r rounds ih =>
    refine ih ?_
    rw [createStep, nerrorHandler]
    split
    · exact fun herr => absurd herr (by simp)
    · exact h

end Loop

def Env.work (env : Env) (work : WorkEnv) (files : Files) : WorkEnv :=
  { work with create := fun _ uris _ => hildonThumbnailPluginCreate env uris files }

theorem mem_ready_newlist (newlist : List String) {num : UInt32} {uris : List String} {code : Int}
    (message : String) (u : String) :
    (∃ us, .ready us ∈ (if newlist = [] then [] else [Signal.ready newlist]) ++ [.error num uris code message] ∧
      u ∈ us) ↔ u ∈ newlist := by
  by_cases h : newlist = []
  · simp [h]
  · simp [h]

theorem ready_iff (env : Env) (work : WorkEnv) (num : UInt32) (module : GModule) (mimeType : String)
    (uris : List String) (files : Files) (u : String) :
    (∃ us, .ready us ∈ (createWithPlugin (env.work work files) num module mimeType uris).signals ∧ u ∈ us) ↔
      u ∈ uris ∧ u ∉ (createLoop env uris files).failed := by
  have hnone : (createLoop env uris files).errors = none → (createLoop env uris files).failed = [] :=
    errors_loop fun _ => rfl
  simp only [createWithPlugin, Env.work, hildonThumbnailPluginCreate]
  split
  · exact (mem_ready_newlist _ _ u).trans (by simp [subtractStrv])
  · next herr => simp [hnone herr]

/-- Every URI of a Ready signal is up to date just if something is made, or the
URIs that the plugin has nothing against were up to date before. -/
theorem ready_upToDate_iff (env : Env) (work : WorkEnv) (num : UInt32) (module : GModule) (mimeType : String)
    (uris : List String) (files : Files) (hmd5 : Set.InjOn env.cache.md5 {u | u ∈ uris}) :
    (∀ us, .ready us ∈ (createWithPlugin (env.work work files) num module mimeType uris).signals → ∀ u ∈ us,
      ∃ info, env.queryInfo u = .ok info ∧ UpToDate env.cache (createLoop env uris files).files u info.mtime) ↔
    env.Makes ∨ ∀ u ∈ uris, (∀ i, uris[i]? = some u → Accepted env files i u) →
      ∃ info, env.queryInfo u = .ok info ∧ UpToDate env.cache files u info.mtime := by
  have hready := ready_iff env work num module mimeType uris files
  have hinj : ∀ u ∈ uris, ∀ r ∈ uris.zipIdx, env.cache.md5 u = env.cache.md5 r.1 → u = r.1 :=
    fun u hu r hr => hmd5 hu (List.fst_mem_of_mem_zipIdx hr)
  have hplace : ∀ u i, (u, i) ∈ uris.zipIdx ↔ uris[i]? = some u := fun u i => List.mem_zipIdx_iff_getElem?
  by_cases hmakes : env.Makes
  · refine iff_of_true ?_ (.inl hmakes)
    intro us hus u hu
    obtain ⟨hmem, hfailed⟩ := (hready u).mp ⟨us, hus, hu⟩
    obtain ⟨i, hi⟩ := List.mem_iff_getElem?.mp hmem
    exact upToDate_loop hmakes (hinj u hmem) ⟨i, (hplace u i).mpr hi⟩ hfailed
  · rw [or_iff_right hmakes]
    have hfailed : ∀ u ∈ uris, u ∉ (createLoop env uris files).failed ↔
        ∀ i, uris[i]? = some u → Accepted env files i u := by
      intro u hu
      rw [createLoop, mem_failed_loop_of_not_makes hmakes (hinj u hu)]
      simp [hplace]
    have hsame : ∀ u m, UpToDate env.cache (createLoop env uris files).files u m ↔
      UpToDate env.cache files u m := by
      intro u m
      simp only [UpToDate, createLoop, thumb_loop_of_not_makes hmakes]
    simp only [hsame]
    constructor
    · intro h u hu haccepted
      obtain ⟨us, hus, hmem⟩ := (hready u).mpr ⟨hu, (hfailed u hu).mpr haccepted⟩
      exact h us hus u hmem
    · intro h us hus u hu
      obtain ⟨hmem, hnot⟩ := (hready u).mp ⟨us, hus, hu⟩
      exact h u hmem ((hfailed u hmem).mp hnot)

def sampleEnv (doCropped : Bool) : Env where
  cache := ⟨["home", "user"], id⟩
  largeThumbnails := false
  normalThumbnails := false
  doCropped := doCropped
  maxSize := 1024 * 1024 * 100
  plugins := [⟨.png, true⟩]
  isAnimatedGif := fun _ => false
  queryInfo := fun _ => .ok ⟨100, 1000⟩
  now := fun _ _ => 200
  read := fun _ => none
  pixbuf := fun _ _ => none
  seek := fun _ _ => none
  saved := fun _ _ _ => .ok ()

theorem sampleEnv_ready (doCropped : Bool) (work : WorkEnv) :
    (createWithPlugin ((sampleEnv doCropped).work work ∅) 1 1 "image/jpeg" ["file:///a.jpg"]).signals =
      [.ready ["file:///a.jpg"]] := by
  cases doCropped <;> rfl

/-- With DoCropping off the default build makes nothing, and says Ready. -/
theorem ready_not_upToDate : ¬ ∀ (env : Env) (work : WorkEnv) (num : UInt32) (module : GModule) (mimeType : String)
    (uris : List String) (files : Files), Set.InjOn env.cache.md5 {u | u ∈ uris} →
    ∀ us, .ready us ∈ (createWithPlugin (env.work work files) num module mimeType uris).signals → ∀ u ∈ us,
      ∃ info, env.queryInfo u = .ok info ∧ UpToDate env.cache (createLoop env uris files).files u info.mtime := by
  intro h
  have hready := sampleEnv_ready false sampleWorkEnv
  have hfiles : (createLoop (sampleEnv false) ["file:///a.jpg"] ∅).files = ∅ := rfl
  obtain ⟨info, -, f, t, a, ha, -⟩ := h (sampleEnv false) sampleWorkEnv 1 1 "image/jpeg" ["file:///a.jpg"] ∅
    (fun _ _ _ _ hmd5 => hmd5) ["file:///a.jpg"] (by simp [hready]) "file:///a.jpg" (List.mem_singleton_self _)
  rw [hfiles] at ha
  simp [Png.stamp] at ha

theorem ready_upToDate_iff_sample : ∃ info, (sampleEnv true).queryInfo "file:///a.jpg" = .ok info ∧
    UpToDate (sampleEnv true).cache
      (createLoop (sampleEnv true) ["file:///a.jpg"] ∅).files "file:///a.jpg" info.mtime :=
  have hmakes : (sampleEnv true).Makes := ⟨⟨⟨.png, true⟩, List.mem_singleton_self _, rfl⟩, List.cons_ne_nil _ _⟩
  (ready_upToDate_iff (sampleEnv true) sampleWorkEnv 1 1 "image/jpeg" ["file:///a.jpg"] ∅
    (fun _ _ _ _ hmd5 => hmd5)).mpr (.inl hmakes) ["file:///a.jpg"] (by simp [sampleEnv_ready]) "file:///a.jpg"
    (List.mem_singleton_self _)

end Gdkpixbuf

end HildonThumbnail
