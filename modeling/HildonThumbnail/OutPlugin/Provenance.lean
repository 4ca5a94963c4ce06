import HildonThumbnail.Daemon.Methods
import HildonThumbnail.Thumbnailer.Deleted
import HildonThumbnail.Thumbnailer.Store

/-! Where the thumbnails in the home directory come from, over any run of what
the output plugins write and of what is moved, copied, deleted and cleaned up. -/

namespace HildonThumbnail

/-- `index` is whatever SQLite makes of meta.db. -/
inductive CacheEvent
  | write (w : CacheWrite)
  | index (d : JpegDb.Database)
  | request (r : StoreRequest)
  | cleanup (plugins : List OutPlugin) (uriMatch : String) (since : UInt32)

def CacheEvent.step (env : CleanupEnv) (c : JpegCache) : CacheEvent → Option JpegCache
  | .write w => some { c with files := w.apply env.cache c.files }
  | .index d => some { c with db := d }
  | .request r => some { c with files := r.onFiles env.cache c.files }
  | .cleanup plugins uriMatch since => outpluginsCleanup env plugins uriMatch since c

def StoreRequest.pairs (env : CacheEnv) : StoreRequest → List (String × String)
  | .move fromUrls toUrls | .copy fromUrls toUrls => digestPairs env fromUrls toUrls
  | .delete _ => []

/-- A request of the run carries thumbnails from the one digest to the other. -/
def Carried (env : CacheEnv) (events : List CacheEvent) (d e : String) : Prop :=
  ∃ r, CacheEvent.request r ∈ events ∧ (d, e) ∈ r.pairs env

/-- A thumbnail as the plugin leaves it. -/
def OutFormat.written (f : OutFormat) (mtime : UInt64) (uri : String) : CacheFile :=
  ⟨mtime, match f with
    | .png => .png (Png.pngOptions uri mtime)
    | .jpeg => .jpeg⟩

/-- A call of the run wrote the file, as this flavour and format, for a URI from which
the requests lead to the digest. -/
def Made (env : CacheEnv) (events : List CacheEvent) (f : OutFormat) (t : HildonThumbnailPluginOutType) (d : String)
    (file : CacheFile) : Prop :=
  ∃ now mtime uri, CacheEvent.write (.out f now t mtime uri (.ok ())) ∈ events ∧ file = f.written mtime uri ∧
    Relation.ReflTransGen (Carried env events) (env.md5 uri) d

section Made
variable {env : CacheEnv} {files : Files} {f g : OutFormat} {s t : HildonThumbnailPluginOutType}
  {u v d e : String} {now mtime : UInt64} {file : CacheFile} {events events' : List CacheEvent} {p : Path}

theorem Carried.mono (h : events ⊆ events') (hcarried : Carried env events d e) : Carried env events' d e := by
  obtain ⟨r, hr, hmem⟩ := hcarried
  exact ⟨r, h hr, hmem⟩

theorem Made.mono (h : events ⊆ events') (hmade : Made env events f t d file) : Made env events' f t d file := by
  obtain ⟨now, mtime, uri, hcall, hfile, hreach⟩ := hmade
  exact ⟨now, mtime, uri, h hcall, hfile, Relation.ReflTransGen.mono (fun _ _ => Carried.mono h) _ _ hreach⟩

theorem lookup_renamed (temp filen : Path) (file : CacheFile) (hp : p ≠ temp) :
    (utime (gRename (files.insert temp file) temp filen) filen mtime).lookup p =
      if p = filen then some { file with mtime := mtime } else files.lookup p := by
  rw [Png.gRename_insert, utime, AList.lookup_insert, KeyTable.lookup_insert_eq]
  split
  · rfl
  · next hne => rw [AList.lookup_insert_ne hne, AList.lookup_erase_ne hp, AList.lookup_insert_ne hp]

theorem lookup_marked (path : Path) (file : CacheFile) (hp : p ≠ path) :
    (utime (gFileCreate (if gFileQueryExists files path then files.erase path else files) path file) path
      mtime).lookup p =
      files.lookup p := by
  have herase : (if gFileQueryExists files path then files.erase path else files).lookup p = files.lookup p := by
    split
    · rw [AList.lookup_erase_ne hp]
    · rfl
  have hcreate (files : Files) : (gFileCreate files path file).lookup p = files.lookup p := by
    rw [gFileCreate]
    split
    · rfl
    · rw [AList.lookup_insert_ne hp]
  have hutime (files : Files) : (utime files path mtime).lookup p = files.lookup p := by
    rw [utime]
    split
    · rfl
    · rw [AList.lookup_insert_ne hp]
  rw [hutime, hcreate, herase]

theorem digestThumb_ne_marker : digestThumb env.home d (g, t) ≠ f.marker env v := fun h =>
  @OutFormat.marker_ne_thumb ⟨env.home, id⟩ f g t (env.md5 v) d h.symm

theorem digestThumb_ne_temp : digestThumb env.home d (g, t) ≠ Png.tempPath (f.thumb env s v) := fun h =>
  @OutFormat.tempPath_ne_thumb ⟨env.home, id⟩ f g s t d (env.md5 v) h.symm

theorem lookup_putError (message : Option String) : (f.putError env files now mtime v message).lookup
    (digestThumb env.home d (g, t)) = files.lookup (digestThumb env.home d (g, t)) := by
  have hlarge : (hildonThumbnailUtilGetThumbPaths env v f.asPng).large = f.thumb env .large v :=
    OutFormat.file_eq (t := .large)
  have hmarker : digestThumb env.home d (g, t) ≠ f.marker env v := digestThumb_ne_marker
  cases f <;> simp only [OutFormat.putError, Png.putError, Jpeg.putError, OutFormat.asPng] at hlarge ⊢ <;>
    rw [hlarge, OutFormat.failFile_thumb] <;> exact lookup_marked _ _ hmarker

theorem lookup_out : (f.out env files now s mtime v (.ok ())).lookup (digestThumb env.home d (g, t)) =
    if env.md5 v = d ∧ f = g ∧ s = t then some (f.written mtime v)
    else files.lookup (digestThumb env.home d (g, t)) := by
  have hfile : (hildonThumbnailUtilGetThumbPaths env v f.asPng).file s = f.thumb env s v := OutFormat.file_eq
  have htemp : digestThumb env.home d (g, t) ≠ Png.tempPath (f.thumb env s v) := digestThumb_ne_temp
  have hplace : digestThumb env.home d (g, t) = f.thumb env s v ↔ env.md5 v = d ∧ f = g ∧ s = t := by
    constructor
    · intro h
      obtain ⟨hdigest, hkey⟩ := digestThumb_separate env.home d (env.md5 v) (g, t) (f, s) h
      exact ⟨hdigest.symm, (congrArg Prod.fst hkey).symm, (congrArg Prod.snd hkey).symm⟩
    · rintro ⟨rfl, rfl, rfl⟩
      rfl
  rw [← if_congr hplace rfl rfl]
  cases f <;> simp only [OutFormat.out, Png.out, Jpeg.out, OutFormat.asPng] at hfile ⊢ <;> rw [hfile] <;>
    exact lookup_renamed _ _ _ htemp

/-- The loop over the selected paths only takes files away, whatever it is told. -/
theorem lookup_of_unlinkSelected {fuel : Nat} {answers : Option JpegDb.Answers} {files' : Files}
    (hrun : Jpeg.unlinkSelected fuel answers files = some files') (h : files'.lookup p = some file) :
    files.lookup p = some file := by
  cases answers with
  | none => exact Option.some.inj hrun ▸ h
  | some answers =>
    refine Stepping.run_invariant (P := fun files' => files'.lookup p = some file → files.lookup p = some file)
      (fun files₁ column hkept hnew => hkept ?_) id hrun h
    cases column with
    | none => exact hnew
    | some text =>
      rw [Jpeg.unlinkPath, Jpeg.lookup_gUnlink] at hnew
      exact (Option.ite_none_left_eq_some.mp hnew).2

theorem lookup_of_removeIf (q : Path → CacheFile → Bool)
    (h : (KeyTable.removeIf q files).lookup p = some file) : files.lookup p = some file := by
  rw [KeyTable.lookup_removeIf] at h
  exact (Option.filter_eq_some_iff.mp h).1

theorem lookup_of_jpegCleanup {env : CleanupEnv} {uriMatch : String} {since : UInt32} {c c' : JpegCache}
    (hrun : Jpeg.cleanup env.fuel env.cache env.sqlite c uriMatch since = some c')
    (h : c'.files.lookup p = some file) :
    c.files.lookup p = some file := by
  rw [Jpeg.cleanup] at hrun
  split at hrun
  · obtain rfl := Option.some.inj hrun
    exact lookup_of_removeIf _ h
  · obtain ⟨files', hloop, rfl⟩ := Option.map_eq_some_iff.mp hrun
    exact lookup_of_removeIf _ (lookup_of_unlinkSelected hloop h)

theorem lookup_of_plugin {env : CleanupEnv} {uriMatch : String} {since : UInt32} {c c' : JpegCache}
    {plugin : OutPlugin}
    (hrun : plugin.cleanup env uriMatch since c = some c') (h : c'.files.lookup p = some file) :
    c.files.lookup p = some file := by
  rw [OutPlugin.cleanup] at hrun
  split at hrun
  · split at hrun
    · obtain ⟨files', hpng, rfl⟩ := Option.map_eq_some_iff.mp hrun
      rw [Png.lookup_cleanup hpng] at h
      exact (Option.filter_eq_some_iff.mp h).1
    · exact lookup_of_jpegCleanup hrun h
  · exact Option.some.inj hrun ▸ h

/-- A cleanup adds nothing. -/
theorem lookup_of_cleanup {env : CleanupEnv} {plugins : List OutPlugin} {uriMatch : String} {since : UInt32}
    {c c' : JpegCache} (hrun : outpluginsCleanup env plugins uriMatch since c = some c')
    (h : c'.files.lookup p = some file) : c.files.lookup p = some file := by
  induction plugins generalizing c with
  | nil => exact Option.some.inj hrun ▸ h
  | cons plugin plugins ih =>
    obtain ⟨c₁, hfirst, hrest⟩ := Option.bind_eq_some_iff.mp hrun
    exact lookup_of_plugin hfirst (ih hrest)

/-- A request only carries thumbnails along its pairs. -/
theorem held_of_request (r : StoreRequest) (h : heldThumbs env (r.onFiles env files) d (f, t) = some file) :
    ∃ e, Relation.ReflTransGen (fun a b => (a, b) ∈ r.pairs env) e d ∧
      heldThumbs env files e (f, t) = some file := by
  rw [heldThumbs_request] at h
  cases r with
  | move fromUrls toUrls => exact Transfer.transferAll_source (fun _ x (hx : none = some x) => nomatch hx) h
  | copy fromUrls toUrls => exact Transfer.transferAll_source (fun _ _ h => h) h
  | delete urls =>
    rw [StoreRequest.onHeld, Transfer.dropAll_apply] at h
    split at h
    · cases h
    · exact ⟨d, .refl, h⟩

/-- Everything that the cache holds was made in the run. -/
def Attributed (env : CacheEnv) (events : List CacheEvent) (files : Files) : Prop :=
  ∀ (f : OutFormat) (t : HildonThumbnailPluginOutType) (d : String) (file : CacheFile),
    heldThumbs env files d (f, t) = some file → Made env events f t d file

theorem Attributed.of_held {events : List CacheEvent} {e : CacheEvent} {files files' : Files}
    (h : Attributed env events files)
    (hheld : ∀ f t d file, heldThumbs env files' d (f, t) = some file → heldThumbs env files d (f, t) = some file) :
    Attributed env (events ++ [e]) files' := fun f t d file hfile =>
  (h f t d file (hheld f t d file hfile)).mono (List.subset_append_left _ _)

theorem Attributed.step {env : CleanupEnv} {c c' : JpegCache} (h : Attributed env.cache events c.files)
    {e : CacheEvent}
    (hstep : e.step env c = some c') : Attributed env.cache (events ++ [e]) c'.files := by
  have hlast : e ∈ events ++ [e] := List.mem_append_right _ List.mem_cons_self
  cases e with
  | write w =>
    obtain rfl := Option.some.inj hstep
    cases w with
    | putError f now mtime uri message =>
      refine h.of_held fun g t d file hfile => ?_
      rwa [heldThumbs, Transfer.contents, CacheWrite.apply, lookup_putError] at hfile
    | out f now s mtime uri saved =>
      cases saved with
      | error message =>
        refine h.of_held fun g t d file hfile => ?_
        rwa [heldThumbs, Transfer.contents, CacheWrite.apply, OutFormat.out_error, lookup_putError] at hfile
      | ok _ =>
        intro g t d file hfile
        rw [heldThumbs, Transfer.contents, CacheWrite.apply, lookup_out] at hfile
        split at hfile
        · next hplace =>
          obtain ⟨rfl, rfl, rfl⟩ := hplace
          exact ⟨now, mtime, uri, hlast, (Option.some.inj hfile).symm, .refl⟩
        · exact (h g t d file hfile).mono (List.subset_append_left _ _)
  | index d =>
    obtain rfl := Option.some.inj hstep
    exact h.of_held fun _ _ _ _ hfile => hfile
  | request r =>
    obtain rfl := Option.some.inj hstep
    intro f t d file hfile
    obtain ⟨d', hreach, hheld⟩ := held_of_request r hfile
    obtain ⟨now, mtime, uri, hcall, hwritten, hmade⟩ :=
      (h f t d' file hheld).mono (List.subset_append_left events [.request r])
    refine ⟨now, mtime, uri, hcall, hwritten, hmade.trans ?_⟩
    exact Relation.ReflTransGen.mono (fun a b hmem => ⟨r, hlast, hmem⟩) _ _ hreach
  | cleanup plugins uriMatch since => exact h.of_held fun _ _ _ _ hfile => lookup_of_cleanup hstep hfile

end Made

theorem attributed_run {env : CleanupEnv} {d : JpegDb.Database} {events : List CacheEvent} {c : JpegCache}
    (h : StepRun.run (CacheEvent.step env) ⟨∅, d⟩ events = some c) : Attributed env.cache events c.files := by
  induction events using List.reverseRecOn generalizing c with
  | nil =>
    obtain rfl := Option.some.inj h
    exact fun f t d file hfile => nomatch hfile
  | append_singleton events e ih =>
    obtain ⟨c₁, hrun, hstep⟩ := (StepRun.run_snoc _).mp h
    exact (ih hrun).step hstep

theorem Attributed.origin {events : List CacheEvent} {env : CacheEnv} {files : Files} {u : String}
    {file : CacheFile}
    {t : HildonThumbnailPluginOutType} (h : Attributed env events files) (hu : u ≠ "")
    (hstill : ∀ r, CacheEvent.request r ∈ events → r.pairs env = [])
    (hmd5 : ∀ now t mtime v, CacheEvent.write (.out .png now t mtime v (.ok ())) ∈ events →
    env.md5 v = env.md5 u → v = u)
    (hfile : files.lookup (OutFormat.png.thumb env t u) = some file) : Png.origOf file = some (some u) := by
  obtain ⟨now, mtime, v, hcall, rfl, hreach⟩ := h .png t (env.md5 u) file hfile
  have hsame : env.md5 v = env.md5 u := by
    rcases Relation.ReflTransGen.cases_head hreach with heq | ⟨d, ⟨r, hr, hmem⟩, _⟩
    · exact heq
    · rw [hstill r hr] at hmem
      cases hmem
  obtain rfl := hmd5 now t mtime v hcall hsame
  exact Png.origOf_pngOptions hu mtime mtime

/-- A thumbnail in the cache was written by a successful call of the run for the same
flavour and format, for the URI itself or for one from which moves and copies lead to
it. While nothing is moved or copied, a PNG thumbnail names the URI that its own name is
made from. -/
theorem thumbs_attributed {env : CleanupEnv} {d : JpegDb.Database} {events : List CacheEvent} {c : JpegCache}
    (h : StepRun.run (CacheEvent.step env) ⟨∅, d⟩ events = some c) :
    Attributed env.cache events c.files ∧
      ∀ u, u ≠ "" → (∀ r, CacheEvent.request r ∈ events → r.pairs env.cache = []) →
        (∀ now t mtime v, CacheEvent.write (.out .png now t mtime v (.ok ())) ∈ events →
          env.cache.md5 v = env.cache.md5 u → v = u) →
        ∀ t file, c.files.lookup (OutFormat.png.thumb env.cache t u) = some file →
          Png.getOrig c.files (OutFormat.png.thumb env.cache t u) = some (some u) := by
  have hattributed := attributed_run h
  refine ⟨hattributed, fun u hu hstill hmd5 t file hfile => ?_⟩
  rw [Png.getOrig, hfile]
  exact hattributed.origin hu hstill hmd5 hfile

/-- A thumbnail that both plugins clean up, and one that is written after that. -/
def writtenAndCleaned : List CacheEvent :=
  [.write (.out .jpeg 7 .large 5 "b" (.ok ())), .cleanup [⟨.png, true⟩, ⟨.jpeg, true⟩] "b" 9,
    .write (.out .png 7 .normal 5 "a" (.ok ()))]

def sampleCleanupEnv : CleanupEnv := ⟨Jpeg.sampleEnv, .stored Path, Jpeg.sampleDb, 9⟩

theorem thumbs_attributed_written : ∃ c,
    StepRun.run (CacheEvent.step sampleCleanupEnv) ⟨∅, .missing⟩ writtenAndCleaned = some c ∧
      Attributed sampleCleanupEnv.cache writtenAndCleaned c.files ∧
      Png.getOrig c.files (OutFormat.png.thumb sampleCleanupEnv.cache .normal "a") = some (some "a") := by
  have hruns : ∃ c file, StepRun.run (CacheEvent.step sampleCleanupEnv) ⟨∅, .missing⟩ writtenAndCleaned = some c ∧
      c.files.lookup (OutFormat.png.thumb sampleCleanupEnv.cache .normal "a") = some file := ⟨_, _, rfl, rfl⟩
  obtain ⟨c, file, hrun, hfile⟩ := hruns
  obtain ⟨hattributed, horigin⟩ := thumbs_attributed hrun
  refine ⟨c, hrun, hattributed, horigin "a" (by decide) ?_ (fun _ _ _ _ _ hmd5 => hmd5) .normal file hfile⟩
  intro r hr
  simp [writtenAndCleaned] at hr

end HildonThumbnail
