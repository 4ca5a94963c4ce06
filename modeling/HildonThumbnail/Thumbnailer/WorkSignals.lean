import HildonThumbnail.Thumbnailer.Work

/-! Every URL of a task is announced as ready or failed, once for each time it
was submitted. -/

namespace HildonThumbnail

/-- What `do_the_work` relies on: a plugin reports an error exactly when it
returns failed URIs, and these are all or none of the occurrences of a URI. -/
structure PluginCreate.Contract (created : PluginCreate) (uris : List String) : Prop where
  error_iff : created.error.isSome ↔ created.failedUris ≠ []
  failed : ∀ u, created.failedUris.count u = 0 ∨ created.failedUris.count u = uris.count u

def Signal.IsResult (num : UInt32) : Signal → Prop
  | .ready _ => True
  | .error n _ _ _ => n = num
  | .started _ | .finished _ => False

section Grouping
variable (u : String)

def groupedCount (schemes : Schemes) : Nat := KeyTable.tally (KeyTable.tally (List.count u)) schemes

theorem tally_count_insert (hash : KeyTable String (List String)) (mimeType uri : String) :
    KeyTable.tally (List.count u) (hash.insert mimeType (uri :: (hash.lookup mimeType).getD [])) =
      KeyTable.tally (List.count u) hash + [uri].count u := by
  rw [KeyTable.tally_insert]
  cases hl : hash.lookup mimeType with
  | none =>
    rw [KeyTable.erase_of_lookup_none hl, Option.getD_none]
    omega
  | some uris =>
    have hold := KeyTable.tally_of_lookup (f := List.count u) hl
    rw [Option.getD_some, List.count_cons_add, hold]
    omega

theorem groupedCount_groupUrl (schemes : Schemes) (uriScheme mimeType uri : String) :
    groupedCount u (groupUrl schemes uriScheme mimeType uri) = groupedCount u schemes + [uri].count u := by
  unfold groupUrl groupedCount
  cases hl : schemes.lookup uriScheme with
  | none =>
    have hnew := tally_count_insert u ∅ mimeType uri
    rw [AList.lookup_empty, Option.getD_none, KeyTable.tally_empty] at hnew
    dsimp only
    rw [KeyTable.tally_insert, KeyTable.erase_of_lookup_none hl, hnew]
    omega
  | some hash =>
    have hold := KeyTable.tally_of_lookup (f := KeyTable.tally (List.count u)) hl
    dsimp only
    rw [KeyTable.tally_insert, tally_count_insert, hold]
    omega

theorem count_groups (env : WorkEnv) (schemes : Schemes) :
    ((groups env schemes).flatMap UrlGroup.uris).count u = groupedCount u schemes := by
  have hinner (s : String) (hash : KeyTable String (List String)) :
      ((((env.mimeOrder s).visit hash).map fun m => UrlGroup.mk s m.1 m.2).flatMap UrlGroup.uris).count u =
        KeyTable.tally (List.count u) hash := by
    rw [List.flatMap_map, List.count_flatMap, ← (env.mimeOrder s).sum_visit]
    rfl
  rw [groups, List.flatMap_assoc, List.count_flatMap, groupedCount, ← env.schemeOrder.sum_visit]
  congr 1
  exact List.map_congr_left fun s _ => hinner s.1 s.2

end Grouping

section Sorting
variable (env : WorkEnv) (task : WorkTask)

def isGrouped (item : String × Nat) : Bool :=
  let infos := getSomeFileInfos (env.fileInfo item.2) (mimeHint task item.2)
  infos.error.isNone && infos.mimeType.isSome && !hasThumb env item.2 item.1 infos.mtime

/-- The form in which a submitted URL is announced. -/
def announcedUrl (item : String × Nat) : String :=
  if isGrouped env task item then (splitScheme item.1).2 else item.1

def announced : List String := task.urls.zipIdx.map (announcedUrl env task)

def SortedUrls.count (s : SortedUrls) (u : String) : Nat :=
  (s.signals.flatMap Signal.uris).count u + s.thumbItems.count u + groupedCount u s.schemes

theorem getSomeFileInfos_mimeType {info : Except String GFileInfo} {hint : Option String}
    (h : (getSomeFileInfos info hint).error = none) : (getSomeFileInfos info hint).mimeType.isSome := by
  cases info with
  | error message => simp [getSomeFileInfos] at h
  | ok info => cases hc : info.contentType <;> simp [getSomeFileInfos, hc]

theorem count_sortUrl (s : SortedUrls) (item : String × Nat) (u : String) :
    (sortUrl env task s item).count u = s.count u + [announcedUrl env task item].count u := by
  obtain ⟨url, i⟩ := item
  rw [sortUrl, announcedUrl, isGrouped]
  dsimp only
  generalize hinfos : getSomeFileInfos (env.fileInfo i) (mimeHint task i) = infos
  obtain ⟨mimeType, mtime, error⟩ := infos
  cases error with
  | some message =>
    simp only [SortedUrls.count, Option.isNone_some, Bool.false_and, Bool.false_eq_true, if_false]
    rw [List.flatMap_append, List.count_append]
    simp only [List.flatMap_singleton, Signal.uris]
    omega
  | none =>
    have hmime := getSomeFileInfos_mimeType (congrArg FileInfos.error hinfos)
    rw [hinfos] at hmime
    obtain ⟨mime, rfl⟩ := Option.isSome_iff_exists.mp hmime
    dsimp only
    by_cases h : hasThumb env i url mtime = true
    · simp only [h, SortedUrls.count, Bool.not_true, Bool.and_false, Bool.false_eq_true, if_false, if_true]
      rw [List.count_cons_add]
      omega
    · rw [Bool.not_eq_true] at h
      simp only [h, SortedUrls.count, groupedCount_groupUrl, Option.isNone_none, Option.isSome_some,
        Bool.not_false, Bool.and_self, if_true, Bool.false_eq_true, if_false]
      omega

theorem count_sortUrls (u : String) : (sortUrls env task).count u = (announced env task).count u := by
  have hfold (items : List (String × Nat)) (s : SortedUrls) : (items.foldl (sortUrl env task) s).count u =
      s.count u + (items.map (announcedUrl env task)).count u := by
    induction items generalizing s with
    | nil => rfl
    | cons item items ih =>
      rw [List.foldl_cons, ih, count_sortUrl, List.map_cons, List.count_cons_add u _ (items.map _)]
      omega
  have hempty : (⟨∅, [], []⟩ : SortedUrls).count u = 0 := rfl
  rw [sortUrls, hfold, hempty, Nat.zero_add]
  rfl

theorem sortUrls_isResult : ∀ s ∈ (sortUrls env task).signals, s.IsResult task.num := by
  have hfold (items : List (String × Nat)) (s : SortedUrls) (hs : ∀ x ∈ s.signals, x.IsResult task.num) :
      ∀ x ∈ (items.foldl (sortUrl env task) s).signals, x.IsResult task.num := by
    induction items generalizing s with
    | nil => exact hs
    | cons item items ih =>
      apply ih
      unfold sortUrl
      dsimp only
      split
      · intro x hx
        rcases List.mem_append.mp hx with hx | hx
        · exact hs x hx
        · rw [List.mem_singleton.mp hx]
          rfl
      · split <;> split <;> exact hs
  exact hfold _ _ (by simp)

end Sorting

section Groups
variable (env : WorkEnv) (num : UInt32)

theorem specializedSignal_uris (uri : String) (info : SpecializedInfo) :
    (specializedSignal num uri info).uris = [uri] := by
  rw [specializedSignal]
  split <;> rfl

theorem createSpecialized_uris (uriScheme : String) (proxy : DBusGProxy) (mimeType : String) (urlss : List String) :
    (createSpecialized env num uriScheme proxy mimeType urlss).signals.flatMap Signal.uris = urlss := by
  have hmap (f : Nat → String → Signal) (hf : ∀ o uri, (f o uri).uris = [uri]) :
      (urlss.mapIdx f).flatMap Signal.uris = urlss := by
    induction urlss generalizing f with
    | nil => rfl
    | cons uri urlss ih =>
      rw [List.mapIdx_cons, List.flatMap_cons, hf, ih _ fun o => hf (o + 1)]
      rfl
  exact hmap _ fun o uri => specializedSignal_uris num uri _

theorem createWithPlugin_count {module : GModule} {mimeType : String} {urlss : List String}
    (h : (env.create module urlss mimeType).Contract urlss) (u : String) :
    ((createWithPlugin env num module mimeType urlss).signals.flatMap Signal.uris).count u =
      urlss.count u := by
  rw [createWithPlugin]
  dsimp only
  cases herr : (env.create module urlss mimeType).error with
  | none => simp [Signal.uris]
  | some message =>
    have hready (l : List String) :
        (if l = [] then [] else [Signal.ready l]).flatMap Signal.uris = l := by
      split
      · next hl => rw [hl]; rfl
      · simp [Signal.uris]
    have hall : (subtractStrv urlss (env.create module urlss mimeType).failedUris).count u +
        (env.create module urlss mimeType).failedUris.count u = urlss.count u := by
      rw [subtractStrv]
      by_cases hu : u ∈ (env.create module urlss mimeType).failedUris
      · have hpos := List.count_pos_iff.mpr hu
        have hnone : (urlss.filter fun v => v ∉ (env.create module urlss mimeType).failedUris).count u = 0 :=
          List.count_eq_zero_of_not_mem (by simp [hu])
        rcases h.failed u with h0 | hcount <;> omega
      · rw [List.count_filter (by simpa using hu), List.count_eq_zero_of_not_mem hu]
        omega
    dsimp only
    rw [List.flatMap_append, hready, List.count_append]
    simpa [Signal.uris] using hall

theorem handleGroup_count (uriScheme : String) {mimeType : String} {urlss : List String}
    (hcreate : ∀ module, (env.create module urlss mimeType).Contract urlss) (u : String) :
    ((handleGroup env num uriScheme mimeType urlss).signals.flatMap Signal.uris).count u =
      urlss.count u := by
  rw [handleGroup]
  cases thumbnailManagerGetHandler (env.manager uriScheme mimeType) uriScheme mimeType with
  | some proxy => exact congrArg (List.count u) (createSpecialized_uris env num uriScheme proxy mimeType urlss)
  | none =>
    cases getPlugin (env.plugins uriScheme mimeType) uriScheme mimeType with
    | some module => exact createWithPlugin_count env num (hcreate module) u
    | none => simp [Signal.uris]

theorem createSpecialized_isResult (uriScheme : String) (proxy : DBusGProxy) (mimeType : String)
    (urlss : List String) :
    ∀ s ∈ (createSpecialized env num uriScheme proxy mimeType urlss).signals, s.IsResult num := by
  intro s hs
  obtain ⟨o, _, rfl⟩ := List.mem_mapIdx.mp hs
  rw [specializedSignal]
  split
  · rfl
  · trivial

theorem createWithPlugin_isResult (module : GModule) (mimeType : String) (urlss : List String) :
    ∀ s ∈ (createWithPlugin env num module mimeType urlss).signals, s.IsResult num := by
  intro s hs
  rw [createWithPlugin] at hs
  dsimp only at hs
  split at hs
  · rcases List.mem_append.mp hs with hready | herror
    · split at hready
      · simp at hready
      · rw [List.mem_singleton.mp hready]
        trivial
    · rw [List.mem_singleton.mp herror]
      rfl
  · rw [List.mem_singleton.mp hs]
    trivial

theorem handleGroup_isResult (uriScheme mimeType : String) (urlss : List String) :
    ∀ s ∈ (handleGroup env num uriScheme mimeType urlss).signals, s.IsResult num := by
  rw [handleGroup]
  cases thumbnailManagerGetHandler (env.manager uriScheme mimeType) uriScheme mimeType with
  | some proxy => exact createSpecialized_isResult env num uriScheme proxy mimeType urlss
  | none =>
    cases getPlugin (env.plugins uriScheme mimeType) uriScheme mimeType with
    | some module => exact createWithPlugin_isResult env num module mimeType urlss
    | none =>
      intro s hs
      rw [List.mem_singleton.mp hs]
      rfl

end Groups

section Task
variable (env : WorkEnv) (task : WorkTask)

theorem cachedSignals_uris (thumbItems : List String) :
    (cachedSignals thumbItems).flatMap Signal.uris = thumbItems := by
  rw [cachedSignals]
  split
  · next h => rw [h]; rfl
  · simp [Signal.uris]

theorem workBody_isResult : ∀ s ∈ workBody env task, s.IsResult task.num := by
  intro s hs
  rcases List.mem_append.mp hs with hs | hs
  · rcases List.mem_append.mp hs with hs | hs
    · exact sortUrls_isResult env task s hs
    · rw [cachedSignals] at hs
      split at hs
      · simp at hs
      · rw [List.mem_singleton.mp hs]
        trivial
  · obtain ⟨g, _, hg⟩ := List.mem_flatMap.mp hs
    exact handleGroup_isResult env task.num g.uriScheme g.mimeType g.uris s hg

theorem workBody_perm (hcreate : ∀ g ∈ groups env (sortUrls env task).schemes, ∀ module,
      (env.create module g.uris g.mimeType).Contract g.uris) :
    ((workBody env task).flatMap Signal.uris).Perm (announced env task) := by
  rw [List.perm_iff_count]
  intro u
  have hgroups : (((groups env (sortUrls env task).schemes).flatMap fun g =>
      (handleGroup env task.num g.uriScheme g.mimeType g.uris).signals).flatMap Signal.uris).count u =
        groupedCount u (sortUrls env task).schemes := by
    rw [← count_groups u env, List.flatMap_assoc, List.count_flatMap, List.count_flatMap]
    congr 1
    exact List.map_congr_left fun g hg => handleGroup_count env task.num g.uriScheme (hcreate g hg) u
  have hsorted := count_sortUrls env task u
  rw [SortedUrls.count] at hsorted
  unfold workBody
  dsimp only
  rw [List.flatMap_append, List.flatMap_append, List.count_append, List.count_append, hgroups,
    cachedSignals_uris]
  exact hsorted

/-- Where no URL is announced twice, no group has one twice. -/
theorem nodup_of_mem_groups (h : (announced env task).Nodup) {g : UrlGroup}
    (hg : g ∈ groups env (sortUrls env task).schemes) : g.uris.Nodup := by
  rw [List.nodup_iff_count_le_one] at h ⊢
  intro u
  have hsub : g.uris.Sublist ((groups env (sortUrls env task).schemes).flatMap UrlGroup.uris) :=
    List.sublist_flatten_of_mem (List.mem_map_of_mem hg)
  have hall := hsub.count_le u
  rw [count_groups] at hall
  have hsorted := count_sortUrls env task u
  rw [SortedUrls.count] at hsorted
  have hone := h u
  omega

end Task

/-- The signals of a task that is not unqueued: Started, results that announce
each submitted URL once for each time it was submitted, and Finished. -/
theorem doTheWork_signals (env : WorkEnv)
    (hcreate : ∀ module uris mimeType, (env.create module uris mimeType).Contract uris) (task : WorkTask)
    (hqueued : task.unqueued = false) :
    ∃ results, doTheWork env task = .started task.num :: (results ++ [.finished task.num]) ∧
      (∀ s ∈ results, s.IsResult task.num) ∧
      (results.flatMap Signal.uris).Perm (announced env task) := by
  have hdead := dead_of_queued hqueued
  refine ⟨workBody env task, ?_, workBody_isResult env task,
    workBody_perm env task fun g _ module => hcreate module g.uris g.mimeType⟩
  simp [doTheWork, hqueued, hdead]

/-- One PNG plugin, which fails on a broken file, and a missing fourth file. -/
def sampleWorkEnv : WorkEnv where
  build := .default
  cache := ⟨["home", "user"], id⟩
  fileInfo := fun i => if i = 3 then .error "No such file" else .ok ⟨some "image/png", 100⟩
  files := fun _ => ∅
  filesAgain := fun _ => ∅
  schemeOrder := .stored String
  mimeOrder := fun _ => .stored String
  manager := fun _ _ => thumbnailManagerInit
  plugins := fun _ _ => thumbnailerRegisterPlugin ⟨∅, thumbnailManagerInit⟩ "image/png" 1 ["file"] 0
  specialized := fun _ _ _ _ => ⟨true, none, 0⟩
  create := fun _ uris _ =>
    let failed := uris.filter (· = "file:///broken.png")
    ⟨failed, if failed = [] then none else some "Broken"⟩

def missingFileEnv : WorkEnv := { sampleWorkEnv with fileInfo := fun _ => .error "No such file" }

theorem sampleWorkEnv_contract (module : GModule) (uris : List String) (mimeType : String) :
    (sampleWorkEnv.create module uris mimeType).Contract uris where
  error_iff := by
    dsimp only [sampleWorkEnv]
    split
    · next h => simp [h]
    · next h => simpa using h
  failed u := by
    dsimp only [sampleWorkEnv]
    by_cases hu : u = "file:///broken.png"
    · exact .inr (List.count_filter (by simp [hu]))
    · exact .inl (List.count_eq_zero_of_not_mem (by simp [hu]))

def sampleTask : WorkTask :=
  .new ["/a.png", "file:///broken.png", "file:///broken.png", "file:///gone.png"] none 1

theorem doTheWork_signals_sample : ∃ results,
    doTheWork sampleWorkEnv sampleTask = .started 1 :: (results ++ [.finished 1]) ∧
      (∀ s ∈ results, s.IsResult 1) ∧
      (results.flatMap Signal.uris).Perm
        ["file:///a.png", "file:///broken.png", "file:///broken.png", "file:///gone.png"] :=
  doTheWork_signals sampleWorkEnv sampleWorkEnv_contract sampleTask rfl

end HildonThumbnail
