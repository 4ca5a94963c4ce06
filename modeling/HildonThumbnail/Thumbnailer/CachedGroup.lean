import HildonThumbnail.Thumbnailer.WorkSignals

/-! Which URLs of a task are announced without any work: the group of cached
items of `do_the_work`, against the groups that are handed on. -/

namespace HildonThumbnail

section
variable (env : WorkEnv) (task : WorkTask)

def infosOf (item : String × Nat) : FileInfos := getSomeFileInfos (env.fileInfo item.2) (mimeHint task item.2)

/-- Every flavour of the build is there and fresh, in one format. -/
def allFresh (asPng : Bool) (item : String × Nat) : Bool :=
  thumbsChecked env.build (env.files item.2) (hildonThumbnailUtilGetThumbPaths env.cache item.1 asPng)
    (infosOf env task item).mtime

/-- The files do not change between the two looks. -/
def WorkEnv.still : WorkEnv := { env with filesAgain := env.files }

/-- The URIs that go to specialised thumbnailers and plugins, or find none. -/
def handedOn : List String := (groups env (sortUrls env task).schemes).flatMap UrlGroup.uris

/-- Of the URLs without an error those that are taken for good are announced at
once, and the others are handed on. -/
structure Sorted (good : String × Nat → Bool) : Prop where
  cached : (sortUrls env task).thumbItems =
    ((task.urls.zipIdx.filter fun item => (infosOf env task item).error.isNone && good item).map Prod.fst).reverse
  handed : (handedOn env task).Perm
    ((task.urls.zipIdx.filter fun item => (infosOf env task item).error.isNone && !good item).map
      fun item => (splitScheme item.1).2)

def looksCached (item : String × Nat) : Bool := hasThumb env item.2 item.1 (infosOf env task item).mtime

def takenForCached (item : String × Nat) : Bool :=
  (infosOf env task item).error.isNone && looksCached env task item

def takenForWork (item : String × Nat) : Bool :=
  (infosOf env task item).error.isNone && !looksCached env task item

theorem sortUrl_eq (s : SortedUrls) (item : String × Nat) :
    (sortUrl env task s item).thumbItems =
        (if takenForCached env task item then [item.1] else []) ++ s.thumbItems ∧
      ∀ u, groupedCount u (sortUrl env task s item).schemes = groupedCount u s.schemes +
        (if takenForWork env task item then [(splitScheme item.1).2] else []).count u := by
  obtain ⟨url, i⟩ := item
  rw [sortUrl, takenForCached, takenForWork, looksCached, infosOf]
  dsimp only
  generalize hinfos : getSomeFileInfos (env.fileInfo i) (mimeHint task i) = infos
  obtain ⟨mimeType, mtime, error⟩ := infos
  cases error with
  | some message => exact ⟨rfl, fun u => rfl⟩
  | none =>
    have hmime := getSomeFileInfos_mimeType (congrArg FileInfos.error hinfos)
    rw [hinfos] at hmime
    obtain ⟨mime, rfl⟩ := Option.isSome_iff_exists.mp hmime
    cases h : hasThumb env i url mtime with
    | true => exact ⟨rfl, fun u => rfl⟩
    | false => exact ⟨rfl, fun u => groupedCount_groupUrl u s.schemes _ _ _⟩

theorem sortUrls_eq : (sortUrls env task).thumbItems =
      ((task.urls.zipIdx.filter (takenForCached env task)).map Prod.fst).reverse ∧
    ∀ u, groupedCount u (sortUrls env task).schemes =
      ((task.urls.zipIdx.filter (takenForWork env task)).map fun item => (splitScheme item.1).2).count u := by
  have hfold (items : List (String × Nat)) (s : SortedUrls) :
      (items.foldl (sortUrl env task) s).thumbItems =
          ((items.filter (takenForCached env task)).map Prod.fst).reverse ++ s.thumbItems ∧
        ∀ u, groupedCount u (items.foldl (sortUrl env task) s).schemes = groupedCount u s.schemes +
          ((items.filter (takenForWork env task)).map fun item => (splitScheme item.1).2).count u := by
    induction items generalizing s with
    | nil => exact ⟨rfl, fun u => rfl⟩
    | cons item items ih =>
      obtain ⟨hcached, hwork⟩ := sortUrl_eq env task s item
      obtain ⟨ihcached, ihwork⟩ := ih (sortUrl env task s item)
      constructor
      · rw [List.foldl_cons, ihcached, hcached, List.filter_cons]
        split <;> simp
      · intro u
        rw [List.foldl_cons, ihwork, hwork, List.filter_cons]
        split
        · rw [List.map_cons, List.count_cons_add u _ (List.map _ _)]
          omega
        · rfl
  obtain ⟨hcached, hwork⟩ := hfold task.urls.zipIdx ⟨∅, [], []⟩
  constructor
  · rw [sortUrls, hcached, List.append_nil]
  · intro u
    have hempty : groupedCount u (∅ : Schemes) = 0 := rfl
    rw [sortUrls, hwork, hempty, Nat.zero_add]

theorem count_handedOn (u : String) : (handedOn env task).count u =
    ((task.urls.zipIdx.filter (takenForWork env task)).map fun item => (splitScheme item.1).2).count u := by
  rw [handedOn, count_groups, (sortUrls_eq env task).2]

/-- What is taken for cached where the files hold still: the JPEG files decide alone. -/
theorem looksCached_still (item : String × Nat) :
    looksCached env.still task item = allFresh env task false item := Bool.or_self _

/-- Where more is good than looks cached, the lists differ. -/
theorem sorted_iff {good : String × Nat → Bool}
    (hgood : ∀ item, looksCached env task item = true → good item = true) :
    Sorted env task good ↔ ∀ item ∈ task.urls.zipIdx, (infosOf env task item).error = none → good item = true →
      looksCached env task item = true := by
  have hcached := (sortUrls_eq env task).1
  constructor
  · intro h item hitem herror hgooditem
    have hsub : (task.urls.zipIdx.filter (takenForCached env task)).Sublist
        (task.urls.zipIdx.filter fun item => (infosOf env task item).error.isNone && good item) := by
      apply List.monotone_filter_right
      intro other hother
      obtain ⟨hnone, hlooks⟩ := Bool.and_eq_true_iff.mp hother
      exact Bool.and_eq_true_iff.mpr ⟨hnone, hgood other hlooks⟩
    have hlength : (task.urls.zipIdx.filter (takenForCached env task)).length =
        (task.urls.zipIdx.filter fun item => (infosOf env task item).error.isNone && good item).length := by
      have hlists := congrArg List.length (hcached.symm.trans h.cached)
      simpa only [List.length_reverse, List.length_map] using hlists
    have hin : item ∈ task.urls.zipIdx.filter (takenForCached env task) := by
      rw [hsub.eq_of_length hlength]
      exact List.mem_filter.mpr ⟨hitem, by simp [herror, hgooditem]⟩
    exact (Bool.and_eq_true_iff.mp (List.mem_filter.mp hin).2).2
  · intro h
    have hsame : ∀ item ∈ task.urls.zipIdx, (infosOf env task item).error.isNone = true →
        looksCached env task item = good item := by
      intro item hitem hnone
      rw [Bool.eq_iff_iff]
      exact ⟨hgood item, h item hitem (Option.isNone_iff_eq_none.mp hnone)⟩
    constructor
    · rw [hcached]
      congr 2
      apply List.filter_congr
      intro item hitem
      cases hnone : (infosOf env task item).error.isNone with
      | false => simp [takenForCached, hnone]
      | true => simp [takenForCached, hnone, hsame item hitem hnone]
    · rw [List.perm_iff_count]
      intro u
      rw [count_handedOn]
      congr 2
      apply List.filter_congr
      intro item hitem
      cases hnone : (infosOf env task item).error.isNone with
      | false => simp [takenForWork, hnone]
      | true => simp [takenForWork, hnone, hsame item hitem hnone]

def allFreshInOne (item : String × Nat) : Bool := allFresh env task false item || allFresh env task true item

theorem allFreshInOne_of_looksCached (item : String × Nat) (h : looksCached env.still task item = true) :
    allFreshInOne env task item = true := by
  rw [looksCached_still] at h
  rw [allFreshInOne, h, Bool.true_or]

/-- The cached group is that of the URLs with all their thumbnails in one format, exactly where no
URL has them as PNG files only. -/
theorem sorted_still_iff :
    Sorted env.still task (allFreshInOne env task) ↔
      ∀ item ∈ task.urls.zipIdx, (infosOf env task item).error = none → allFresh env task true item = true →
        allFresh env task false item = true := by
  rw [sorted_iff env.still task (allFreshInOne_of_looksCached env task)]
  apply forall₂_congr
  intro item _
  apply imp_congr_right
  intro _
  rw [looksCached_still, allFreshInOne, Bool.or_eq_true]
  constructor
  · intro h htrue
    exact h (.inr htrue)
  · rintro h (hfalse | htrue)
    · exact hfalse
    · exact h htrue

end

def pngOnlyEnv : WorkEnv :=
  { sampleWorkEnv with
    files := fun _ => (∅ : Files).insert
      (OutFormat.png.thumb sampleWorkEnv.cache .cropped "file:///a.png") ⟨100, .png []⟩ }

def oneUrl : WorkTask := .new ["file:///a.png"] none 1

theorem not_sorted_pngOnly : ¬ Sorted pngOnlyEnv.still oneUrl (allFreshInOne pngOnlyEnv oneUrl) := by
  intro h
  have hlooks := (sorted_iff pngOnlyEnv.still oneUrl (allFreshInOne_of_looksCached pngOnlyEnv oneUrl)).mp h
    ("file:///a.png", 0) (by decide) rfl rfl
  rw [looksCached_still] at hlooks
  have hnone : allFresh pngOnlyEnv oneUrl false ("file:///a.png", 0) = false := rfl
  exact absurd (hnone.symm.trans hlooks) (by decide)

end HildonThumbnail
