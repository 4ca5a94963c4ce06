import HildonThumbnail.Albumart.Manager
import HildonThumbnail.Manager.Monitor

/-! The scans of the album art provider directory
(`albumart_manager_check_dir`), at start-up and at each change. -/

namespace HildonThumbnail

structure AlbumartKeyFile where
  getString : String → String → Option String
  getInteger : String → String → Option Int32

/-- `keyfile` is absent when the file does not parse, `mtime` when it cannot be
queried. -/
structure AlbumartFile where
  keyfile : Option AlbumartKeyFile
  mtime : Option Nat

def albumartGroup : String := "D-BUS Album art provider"

def AlbumartFile.provider (file : AlbumartFile) : Option AlbumartProvider :=
  match file.keyfile with
  | none => none
  | some keyfile =>
    match keyfile.getString albumartGroup "Name" with
    | none => none
    | some value =>
      let prio := (keyfile.getInteger albumartGroup "Priority").getD (-1)
      -- the modification time is queried and not used
      file.mtime.map fun _ => ⟨value, prio⟩

def albumartCheckFile (m : AlbumartManager) (file : AlbumartFile) : AlbumartManager :=
  match file.provider with
  | none => m
  | some provider => albumartManagerAdd m provider

/-- The files in the order `g_dir_read_name` gives them; none when
`g_dir_open` fails. -/
def albumartManagerCheckDir (m : AlbumartManager) (dir : Option (List AlbumartFile)) : AlbumartManager :=
  match dir with
  | none => m
  | some files => files.foldl albumartCheckFile m

/-- What the directory holds when the manager handles the event. -/
structure AlbumartChange where
  content : Option (List AlbumartFile)
  event : GFileMonitorEvent

def albumartOnDirChanged (m : AlbumartManager) (change : AlbumartChange) : AlbumartManager :=
  match change.event with
  | .changed | .changesDoneHint | .deleted | .created => albumartManagerCheckDir m change.content
  | .attributeChanged | .preUnmount | .unmounted => m

structure AlbumartHistory where
  start : Option (List AlbumartFile)
  changes : List AlbumartChange

/-- Every change is reported as a change, a deletion or a creation. -/
def AlbumartHistory.Reported (h : AlbumartHistory) : Prop :=
  ∀ change ∈ h.changes, change.event = .created ∨ change.event = .changed ∨
    change.event = .changesDoneHint ∨ change.event = .deleted

def AlbumartHistory.manager (h : AlbumartHistory) : AlbumartManager :=
  h.changes.foldl albumartOnDirChanged (albumartManagerCheckDir albumartManagerInit h.start)

def AlbumartHistory.contents (h : AlbumartHistory) : List (Option (List AlbumartFile)) :=
  h.start :: h.changes.map AlbumartChange.content

def AlbumartHistory.current (h : AlbumartHistory) : Option (List AlbumartFile) :=
  h.contents.getLast (List.cons_ne_nil _ _)

def declared (content : Option (List AlbumartFile)) : List AlbumartProvider :=
  (content.getD []).filterMap AlbumartFile.provider

def Declared (content : Option (List AlbumartFile)) (name : String) : Prop :=
  ∃ provider ∈ declared content, provider.name = name

/-- One proxy for each declared name, and no other. -/
structure AlbumartHistory.Exact (h : AlbumartHistory) : Prop where
  once : ((albumartManagerGetHandlers h.manager).map DBusGProxy.busName).Nodup
  declared : ∀ name, (∃ p ∈ albumartManagerGetHandlers h.manager, p.busName = name ∧ p.path = proxyPath name) ↔
    Declared h.current name

theorem albumartManagerCheckDir_eq (m : AlbumartManager) (content : Option (List AlbumartFile)) :
    albumartManagerCheckDir m content = (declared content).foldl albumartManagerAdd m := by
  cases content with
  | none => rfl
  | some files =>
    simp only [albumartManagerCheckDir, declared, Option.getD_some]
    induction files generalizing m with
    | nil => rfl
    | cons file files ih =>
      rw [List.foldl_cons, ih, albumartCheckFile]
      cases hp : file.provider <;> simp [hp]

theorem albumartOnDirChanged_eq {h : AlbumartHistory} (hr : h.Reported) {change : AlbumartChange}
    (hc : change ∈ h.changes) (m : AlbumartManager) :
    albumartOnDirChanged m change = (declared change.content).foldl albumartManagerAdd m := by
  rw [← albumartManagerCheckDir_eq, albumartOnDirChanged]
  rcases hr change hc with he | he | he | he <;> rw [he]

/-- Every scan adds to what the earlier ones left. -/
theorem AlbumartHistory.manager_eq {h : AlbumartHistory} (hr : h.Reported) :
    h.manager = albumartManagerRun (h.contents.flatMap declared) := by
  rw [manager, contents, albumartManagerRun, List.flatMap_cons, List.foldl_append, List.foldl_flatMap,
    List.foldl_map, albumartManagerCheckDir_eq]
  exact List.foldl_ext _ _ _ fun m change hc => albumartOnDirChanged_eq hr hc m

theorem busNames_getHandlers (m : AlbumartManager) :
    (albumartManagerGetHandlers m).map DBusGProxy.busName = (m.handlers.map fun info => info.name).reverse := by
  rw [getHandlers_eq, List.map_reverse, List.map_map]
  exact congrArg List.reverse (List.map_congr_left fun info _ => info.named.1)

theorem isSome_latestPrio_iff (calls : List AlbumartProvider) (name : String) :
    (∃ prio, latestPrio calls name = some prio) ↔ ∃ provider ∈ calls, provider.name = name := by
  rw [← Option.isSome_iff_exists, latestPrio, Option.isSome_map, List.find?_isSome]
  simp

theorem getHandlers_run_iff (calls : List AlbumartProvider) (name : String) :
    (∃ p ∈ albumartManagerGetHandlers (albumartManagerRun calls), p.busName = name ∧ p.path = proxyPath name) ↔
      ∃ provider ∈ calls, provider.name = name := by
  have hkeeps := keepsLatest_run calls
  rw [← isSome_latestPrio_iff, getHandlers_eq]
  constructor
  · rintro ⟨p, hp, rfl, _⟩
    obtain ⟨info, hinfo, rfl⟩ := List.mem_map.mp (List.mem_reverse.mp hp)
    exact ⟨info.prio, (hkeeps.latest _ _).mp ⟨info, hinfo, info.named.1.symm, rfl⟩⟩
  · rintro ⟨prio, hprio⟩
    obtain ⟨info, hinfo, rfl, _⟩ := (hkeeps.latest name prio).mpr hprio
    exact ⟨info.proxy, List.mem_reverse.mpr (List.mem_map_of_mem hinfo), info.named⟩

/-- The proxies are those of the files in the directory exactly when no name
that was ever found there is gone. -/
theorem getHandlers_exact_iff (h : AlbumartHistory) (hr : h.Reported) :
    h.Exact ↔ ∀ content ∈ h.contents, ∀ name, Declared content name → Declared h.current name := by
  have hhas (name : String) :
      (∃ p ∈ albumartManagerGetHandlers h.manager, p.busName = name ∧ p.path = proxyPath name) ↔
        ∃ content ∈ h.contents, Declared content name := by
    rw [AlbumartHistory.manager_eq hr, getHandlers_run_iff]
    simp only [List.mem_flatMap, Declared]
    constructor
    · rintro ⟨provider, ⟨content, hcontent, hp⟩, hname⟩
      exact ⟨content, hcontent, provider, hp, hname⟩
    · rintro ⟨content, hcontent, provider, hp, hname⟩
      exact ⟨provider, ⟨content, hcontent, hp⟩, hname⟩
  constructor
  · intro hexact content hcontent name hname
    exact (hexact.declared name).mp ((hhas name).mpr ⟨content, hcontent, hname⟩)
  · intro hgone
    constructor
    · rw [busNames_getHandlers, List.nodup_reverse, AlbumartHistory.manager_eq hr]
      exact (keepsLatest_run _).once
    · intro name
      rw [hhas]
      constructor
      · rintro ⟨content, hcontent, hname⟩
        exact hgone content hcontent name hname
      · intro hname
        exact ⟨h.current, List.getLast_mem _, hname⟩

def providerFile (name : String) : AlbumartFile where
  keyfile := some
    { getString := fun g k => if g = albumartGroup ∧ k = "Name" then some name else none
      getInteger := fun _ _ => none }
  mtime := some 1

theorem getHandlers_exact_edited : AlbumartHistory.Exact
    ⟨some [providerFile "org.Art"], [⟨some [providerFile "org.Art", providerFile "org.Cover"], .created⟩]⟩ := by
  refine (getHandlers_exact_iff _ ?_).mpr ?_
  · intro change hchange
    obtain rfl := List.mem_singleton.mp hchange
    exact .inl rfl
  · intro content hcontent name hname
    rcases List.mem_cons.mp hcontent with rfl | hcontent
    · obtain ⟨provider, hp, hname⟩ := hname
      have hfirst : declared (some [providerFile "org.Art"]) = [⟨"org.Art", -1⟩] := by decide
      have hboth : declared (some [providerFile "org.Art", providerFile "org.Cover"]) =
          [⟨"org.Art", -1⟩, ⟨"org.Cover", -1⟩] := by decide
      rw [hfirst, List.mem_singleton] at hp
      refine ⟨provider, ?_, hname⟩
      show provider ∈ declared (some [providerFile "org.Art", providerFile "org.Cover"])
      rw [hboth, hp]
      exact List.mem_cons_self
    · obtain rfl := List.mem_singleton.mp hcontent
      exact hname

theorem getHandlers_not_exact :
    ¬ ∀ h : AlbumartHistory, h.Reported → h.Exact := by
  intro h
  have hexact := h ⟨some [providerFile "org.Art"], [⟨some [], .deleted⟩]⟩ (by
    intro change hchange
    obtain rfl := List.mem_singleton.mp hchange
    exact .inr (.inr (.inr rfl)))
  obtain ⟨provider, hp, _⟩ := (hexact.declared "org.Art").mp
    ⟨⟨"org.Art", proxyPath "org.Art", 0⟩, List.mem_singleton.mpr rfl, rfl, rfl⟩
  exact absurd hp List.not_mem_nil

end HildonThumbnail
