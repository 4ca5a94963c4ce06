import HildonThumbnail.Manager.ScanOrder
import Mathlib.Data.List.Perm.Basic

/-! When the handlers table gives every key the newest service that the
directories declare for it. -/

namespace HildonThumbnail

theorem Directory.entry_iff_of_override {d : Directory} {key : String} {n name : Option String}
    (h : d.overrideName key = some n) : d.Entry key name ↔ name = n := by
  simp [Directory.Entry, h]

theorem Directory.entry_iff_of_none {d : Directory} {key : String} {name : Option String}
    (h : d.overrideName key = none) : d.Entry key name ↔ ∃ n, name = some n ∧ d.Newest key n := by
  simp [Directory.Entry, h]

theorem Directory.listed_of_override {d : Directory} {key : String} {n : Option String}
    (h : d.overrideName key = some n) : d.listed key = some n := by
  simp [Directory.listed, h]

theorem Directory.hasEntry_iff_of_none {d : Directory} {key : String} (h : d.overrideName key = none) :
    d.HasEntry key ↔ d.Declares key := by
  simp [Directory.HasEntry, h]

theorem Directory.hasEntry_iff_declares {d : Directory} {key : String} (h : d.overrides = none) :
    d.HasEntry key ↔ d.Declares key :=
  Directory.hasEntry_iff_of_none (by rw [Directory.overrideName, h]; rfl)

theorem Directory.listed_eq_none {d : Directory} {key : String} (h : ¬ d.HasEntry key) :
    d.listed key = none := by
  cases hl : d.listed key with
  | none => rfl
  | some n => exact absurd (Directory.listed_isSome (by rw [hl]; rfl)) h

theorem handlersFollow_check_iff [DBusGlib] (order : KeyTable.Order String) (now : Nat) (system user : Directory) :
    HandlersFollow system user
        (thumbnailManagerCheck order now thumbnailManagerInit (some system) (some user)) ↔
      LastListedNewest system user := by
  rw [HandlersFollow, LastListedNewest]
  simp only [handlerName_check, listedService, Option.bind_some]
  have hjoin : ∀ (o : Option (Option String)) (n : String), o.join = some n ↔ o = some (some n) := by
    intro o n
    rcases o with _ | _ | m <;> simp
  refine forall_congr' fun key => ?_
  have huser : (user.HasEntry key → user.Entry key ((user.listed key).or (system.listed key)).join) ↔
      (user.overrideName key = none → user.Declares key →
        ∃ n, (user.listed key).or (system.listed key) = some (some n) ∧ user.Newest key n) := by
    cases ho : user.overrideName key with
    | some n => simp [Directory.entry_iff_of_override ho, Directory.listed_of_override ho]
    | none =>
      simp only [Directory.hasEntry_iff_of_none ho, Directory.entry_iff_of_none ho, hjoin, true_imp_iff]
  have hsystem : (¬ user.HasEntry key → system.HasEntry key →
        system.Entry key ((user.listed key).or (system.listed key)).join) ↔
      (¬ user.HasEntry key → system.overrideName key = none → system.Declares key →
        ∃ n, system.listed key = some (some n) ∧ system.Newest key n) := by
    refine imp_congr_right fun hu => ?_
    rw [Directory.listed_eq_none hu, Option.none_or]
    cases ho : system.overrideName key with
    | some n => simp [Directory.entry_iff_of_override ho, Directory.listed_of_override ho]
    | none =>
      simp only [Directory.hasEntry_iff_of_none ho, Directory.entry_iff_of_none ho, hjoin, true_imp_iff]
  have hneither : ¬ user.HasEntry key → ¬ system.HasEntry key →
      ((user.listed key).or (system.listed key)).join = none := by
    intro hu hs
    rw [Directory.listed_eq_none hu, Directory.listed_eq_none hs]
    rfl
  rw [huser, hsystem]
  exact ⟨fun h => ⟨h.1, h.2.1⟩, fun h => ⟨h.1, h.2, hneither⟩⟩

def Directory.DistinctMtimes (d : Directory) : Prop :=
  ∀ e ∈ d.entries, ∀ f ∈ d.entries, ∀ t, e.2.mtime = some t → f.2.mtime = some t → e = f

theorem DirFile.declarations_eq {file : DirFile} {s : Declaration} (h : s ∈ file.declarations) :
    ∃ keyfile, file.keyfile = some keyfile ∧ keyfile.getString thumbnailerGroup "Name" = some s.name ∧
      file.mtime = some s.mtime := by
  rw [DirFile.declarations] at h
  split at h
  · simp at h
  · next keyfile hk =>
    split at h
    · next value values mtime hv _ ht =>
      obtain ⟨scheme, _, hm⟩ := List.mem_flatMap.mp h
      obtain ⟨mime, _, rfl⟩ := List.mem_map.mp hm
      exact ⟨keyfile, hk, hv, ht⟩
    · simp at h

theorem Directory.Newest.unique {d : Directory} (hd : d.DistinctMtimes) {key a b : String}
    (ha : d.Newest key a) (hb : d.Newest key b) : a = b := by
  obtain ⟨s, hs, hsk, rfl, hsmax⟩ := ha
  obtain ⟨t, ht, htk, rfl, htmax⟩ := hb
  have hm : s.mtime = t.mtime := Nat.le_antisymm (htmax s hs hsk) (hsmax t ht htk)
  obtain ⟨e, he, hse⟩ := List.mem_flatMap.mp hs
  obtain ⟨f, hf, htf⟩ := List.mem_flatMap.mp ht
  obtain ⟨k, hk, hkn, hkt⟩ := DirFile.declarations_eq hse
  obtain ⟨l, hl, hln, hlt⟩ := DirFile.declarations_eq htf
  have hef := hd e (List.mem_of_mem_filter he) f (List.mem_of_mem_filter hf) s.mtime hkt (hm ▸ hlt)
  subst hef
  obtain rfl := Option.some.inj (hk.symm.trans hl)
  exact Option.some.inj (hkn.symm.trans hln)

section Permutation
variable {d d' : Directory}

theorem lookup_perm {l l' : List (String × DirFile)} (hp : l.Perm l') (hnd : (l.map Prod.fst).Nodup)
    (name : String) : l.lookup name = l'.lookup name := by
  induction hp with
  | nil => rfl
  | cons e _ ih =>
    rw [List.lookup_cons, List.lookup_cons, ih (List.nodup_cons.mp hnd).2]
  | swap e f l =>
    have hne : f.1 ≠ e.1 := by
      simp only [List.map_cons, List.nodup_cons, List.mem_cons, not_or] at hnd
      exact hnd.1.1
    rw [List.lookup_cons, List.lookup_cons, List.lookup_cons, List.lookup_cons]
    by_cases hf : name = f.1
    · rw [hf, beq_eq_false_iff_ne.mpr hne]
    · rw [beq_eq_false_iff_ne.mpr hf]
  | trans hp _ ih ih' => rw [ih hnd, ih' ((hp.map Prod.fst).nodup_iff.mp hnd)]

theorem Directory.declarations_perm (h : d.entries.Perm d'.entries) :
    d.declarations.Perm d'.declarations :=
  (h.filter _).flatMap_right _

theorem Directory.overrideName_perm (h : d.entries.Perm d'.entries) (key : String) :
    d.overrideName key = d'.overrideName key := by
  rw [Directory.overrideName, Directory.overrideName, Directory.overrides, Directory.overrides,
    lookup_perm h d.nodup]

theorem Directory.hasEntry_perm (h : d.entries.Perm d'.entries) (key : String) :
    d.HasEntry key ↔ d'.HasEntry key := by
  simp only [Directory.HasEntry, Directory.Declares, Directory.overrideName_perm h,
    (Directory.declarations_perm h).mem_iff]

theorem Directory.entry_perm (h : d.entries.Perm d'.entries) (key : String) (name : Option String) :
    d.Entry key name ↔ d'.Entry key name := by
  simp only [Directory.Entry, Directory.Newest, Directory.overrideName_perm h,
    (Directory.declarations_perm h).mem_iff]

theorem Directory.Entry.unique (hd : d.DistinctMtimes) {key : String} {a b : Option String}
    (ha : d.Entry key a) (hb : d.Entry key b) : a = b := by
  cases ho : d.overrideName key with
  | some n =>
    rw [Directory.entry_iff_of_override ho] at ha hb
    rw [ha, hb]
  | none =>
    obtain ⟨x, rfl, hx⟩ := (Directory.entry_iff_of_none ho).mp ha
    obtain ⟨y, rfl, hy⟩ := (Directory.entry_iff_of_none ho).mp hb
    rw [hx.unique hd hy]

end Permutation

theorem HandlersFollow.handlerName_eq {system user system' user' : Directory} {m m' : ThumbnailManager}
    (hs : system.entries.Perm system'.entries) (hu : user.entries.Perm user'.entries)
    (hds : system.DistinctMtimes) (hdu : user.DistinctMtimes)
    (h : HandlersFollow system user m) (h' : HandlersFollow system' user' m') (key : String) :
    handlerName m key = handlerName m' key := by
  obtain ⟨h1, h2, h3⟩ := h key
  obtain ⟨h1', h2', h3'⟩ := h' key
  rw [← Directory.hasEntry_perm hu, ← Directory.entry_perm hu] at h1'
  rw [← Directory.hasEntry_perm hu, ← Directory.hasEntry_perm hs, ← Directory.entry_perm hs] at h2'
  rw [← Directory.hasEntry_perm hu, ← Directory.hasEntry_perm hs] at h3'
  by_cases hue : user.HasEntry key
  · exact (h1 hue).unique hdu (h1' hue)
  · by_cases hse : system.HasEntry key
    · exact (h2 hue hse).unique hds (h2' hue hse)
    · rw [h3 hue hse, h3' hue hse]

/-- The table follows the directories exactly when, wherever no overrides group
decides, the service listed last is a newest one; and then the listing order
does not matter when modification times are distinct. -/
theorem thumbnailManagerCheck_follows_iff [DBusGlib] (order : KeyTable.Order String) (now : Nat)
    (system user : Directory) :
    (HandlersFollow system user
        (thumbnailManagerCheck order now thumbnailManagerInit (some system) (some user)) ↔
      LastListedNewest system user) ∧
    ∀ (order' : KeyTable.Order String) (now' : Nat) (system' user' : Directory),
      system.entries.Perm system'.entries → user.entries.Perm user'.entries →
      system.DistinctMtimes → user.DistinctMtimes →
      LastListedNewest system user → LastListedNewest system' user' →
      ∀ key, handlerName (thumbnailManagerCheck order now thumbnailManagerInit (some system) (some user)) key =
        handlerName (thumbnailManagerCheck order' now' thumbnailManagerInit (some system') (some user')) key := by
  refine ⟨handlersFollow_check_iff order now system user, ?_⟩
  intro order' now' system' user' hs hu hds hdu hl hl' key
  exact ((handlersFollow_check_iff order now system user).mpr hl).handlerName_eq hs hu hds hdu
    ((handlersFollow_check_iff order' now' system' user').mpr hl') key

def serviceFile (name : String) (mimeTypes : List String) (mtime : Nat) : DirFile where
  keyfile := some {
    groups := [thumbnailerGroup]
    getString := fun g k => if g = thumbnailerGroup ∧ k = "Name" then some name else none
    getStringList := fun g k => if g = thumbnailerGroup ∧ k = "MimeTypes" then some mimeTypes else none }
  mtime := some mtime

def emptyDirectory : Directory := ⟨[], List.nodup_nil⟩

def newerFirst : Directory :=
  ⟨[("new.service", serviceFile "org.New" ["image/png"] 2),
    ("old.service", serviceFile "org.Old" ["image/png"] 1)], by decide⟩

theorem thumbnailManagerCheck_not_newest : ¬ ∀ (order : KeyTable.Order String) (now : Nat)
    (system user : Directory), HandlersFollow system user
      (thumbnailManagerCheck order now thumbnailManagerInit (some system) (some user)) := by
  intro h
  have hk := (h (.stored String) 0 newerFirst emptyDirectory "file-image/png").2.1
  have hname : handlerName (thumbnailManagerCheck (.stored String) 0 thumbnailManagerInit
      (some newerFirst) (some emptyDirectory)) "file-image/png" = some "org.Old" := by decide
  rw [hname, Directory.entry_iff_of_none (by decide)] at hk
  obtain ⟨n, hn, s, hs, _, rfl, hmax⟩ := hk (by simp [Directory.HasEntry, Directory.Declares,
    Directory.overrideName, Directory.overrides, Directory.declarations, emptyDirectory])
    (.inr ⟨⟨"file", "image/png", "org.Old", 1⟩, by decide, by decide⟩)
  have hle : 2 ≤ s.mtime := hmax ⟨"file", "image/png", "org.New", 2⟩ (by decide) (by decide)
  have hold : ∀ t ∈ newerFirst.declarations, some "org.Old" = some t.name → t.mtime = 1 := by decide
  have := hold s hs hn
  omega

def newerLast : Directory :=
  ⟨[("gif.service", serviceFile "org.Gif" ["image/gif"] 3),
    ("old.service", serviceFile "org.Old" ["image/png"] 1),
    ("new.service", serviceFile "org.New" ["image/png"] 2)], by decide⟩

def newerLast' : Directory :=
  ⟨[("old.service", serviceFile "org.Old" ["image/png"] 1),
    ("new.service", serviceFile "org.New" ["image/png"] 2),
    ("gif.service", serviceFile "org.Gif" ["image/gif"] 3)], by decide⟩

theorem lastListedNewest_of_system {system : Directory}
    (h : ∀ s ∈ system.declarations, ∃ t ∈ system.declarations,
      system.listed s.key = some (some t.name) ∧ t.key = s.key ∧
        ∀ r ∈ system.declarations, r.key = s.key → r.mtime ≤ t.mtime) :
    LastListedNewest system emptyDirectory := by
  intro key
  constructor
  · rintro _ ⟨s, hs, _⟩
    exact absurd hs (by simp [Directory.declarations, emptyDirectory])
  · rintro _ _ ⟨s, hs, rfl⟩
    obtain ⟨t, ht, hl, hk, hmax⟩ := h s hs
    exact ⟨t.name, hl, t, ht, hk, rfl, hmax⟩

theorem thumbnailManagerCheck_follows_newerLast :
    handlerName (thumbnailManagerCheck (.stored String) 0 thumbnailManagerInit (some newerLast)
        (some emptyDirectory)) "file-image/png" =
      handlerName (thumbnailManagerCheck (.stored String) 0 thumbnailManagerInit (some newerLast')
        (some emptyDirectory)) "file-image/png" := by
  have hdistinct : newerLast.DistinctMtimes := by
    simp [Directory.DistinctMtimes, newerLast, serviceFile]
  have hempty : emptyDirectory.DistinctMtimes := by
    simp [Directory.DistinctMtimes, emptyDirectory]
  have hperm : newerLast.entries.Perm newerLast'.entries :=
    @List.perm_append_comm _ (newerLast.entries.take 1) (newerLast.entries.drop 1)
  exact (thumbnailManagerCheck_follows_iff (.stored String) 0 newerLast emptyDirectory).2
    (.stored String) 0 newerLast' emptyDirectory hperm (.refl _) hdistinct hempty
    (lastListedNewest_of_system (by decide)) (lastListedNewest_of_system (by decide)) "file-image/png"

end HildonThumbnail
