import HildonThumbnail.Daemon.PluginErrors
import HildonThumbnail.Lib.Run

/-! The plugins of the daemon when it ends (`stop_plugins`): which modules stay
open, and which of them the thumbnailer would still hand tasks to. -/

namespace HildonThumbnail

/-- `resident` are the answers of the stop functions, by the paths. -/
def stopPlugin (resident : String → Bool) (s : PluginState) (e : String × GModule) : PluginState :=
  hildonThumbnailPluginDoStop { s with thumbnailer := thumbnailerUnregisterPlugin s.thumbnailer e.2 } e.2
    (resident e.1)

def stopPlugins (o : KeyTable.Order String) (resident : String → Bool) (s : PluginState) : PluginState :=
  { (o.visit s.registrations).foldl (stopPlugin resident) s with registrations := ∅ }

def pluginInit (m : ThumbnailManager) : PluginState := ⟨∅, ⟨∅, m⟩, fun _ => 0⟩

/-- How many paths of the table hold the module. -/
def registeredAt (table : KeyTable String GModule) (module : GModule) : Nat :=
  table.tally fun v => [v].count module

theorem registeredAt_erase (table : KeyTable String GModule) (path : String) (module : GModule) :
    registeredAt (table.erase path) module + (table.lookup path).toList.count module =
      registeredAt table module := by
  have hrest := KeyTable.tally_erase_add (fun v : GModule => [v].count module) table path
  rw [registeredAt, registeredAt, ← hrest]
  cases table.lookup path <;> rfl

theorem registeredAt_insert (table : KeyTable String GModule) (path : String) (v module : GModule) :
    registeredAt (table.insert path v) module + (table.lookup path).toList.count module =
      registeredAt table module + [v].count module := by
  have hrest := registeredAt_erase table path module
  rw [registeredAt, KeyTable.tally_insert, ← hrest, registeredAt]
  omega

theorem refs_pluginLoad {s : PluginState} {load : PluginLoad} {opened : GModule} (h : load.module = some opened)
    (module : GModule) : (hildonThumbnailPluginLoad s load).refs module = s.refs module +
      [opened].count module := by
  rw [hildonThumbnailPluginLoad, h]
  by_cases hm : module = opened
  · simp [hm]
  · simp [hm, Ne.symm hm]

theorem refs_pluginDoStop {s : PluginState} {plugin : GModule} (resident : Bool) (hopen : 0 < s.refs plugin)
    (module : GModule) : (hildonThumbnailPluginDoStop s plugin resident).refs module +
      (if resident then 0 else [plugin].count module) = s.refs module := by
  cases resident with
  | true => rfl
  | false =>
    by_cases hm : module = plugin
    · subst hm
      simp [hildonThumbnailPluginDoStop, gModuleClose]
      omega
    · simp [hildonThumbnailPluginDoStop, gModuleClose, hm, Ne.symm hm]

namespace PluginState

/-- The module that a step leaves open without an entry: its init reported an error,
or its entry goes to what is loaded from the path now. -/
def unlisted (s : PluginState) : PluginEvent → List GModule
  | .created path load =>
    if isPluginFile path then
      match load.module with
      | none => []
      | some module => if load.init.error then [module] else (s.registrations.lookup path).toList
    else []
  | .deleted _ _ => []
  | .other _ => []

/-- The module that a step stops and leaves open. -/
def stayed (s : PluginState) : PluginEvent → List GModule
  | .deleted path true => if isPluginFile path then (s.registrations.lookup path).toList else []
  | .deleted _ false => []
  | .created _ _ => []
  | .other _ => []

/-- Each reference is that of an entry, of a module without one, or of a plugin that
stays; and the thumbnailer knows the first two kinds alone. -/
structure Accounted (s : PluginState) (unlisted stayed : List GModule) : Prop where
  refs : ∀ module, s.refs module = registeredAt s.registrations module + unlisted.count module + stayed.count module
  reachable : ∀ module, s.thumbnailer.Reachable module →
    module ∈ unlisted ∨ ∃ path, s.registrations.lookup path = some module

section Steps
variable {s : PluginState} {unlisted stayed : List GModule}

theorem accounted_loaded (h : s.Accounted unlisted stayed) {load : PluginLoad} {opened : GModule}
    (hload : load.module = some opened) {path : String} (hfile : isPluginFile path = true) :
    (onPluginChanged s (.created path load)).Accounted (unlisted ++ s.unlisted (.created path load)) stayed := by
  have hregistrations : (hildonThumbnailPluginLoad s load).registrations = s.registrations := by
    simp [hildonThumbnailPluginLoad, hload]
  have hthumbnailer : (hildonThumbnailPluginLoad s load).thumbnailer = s.thumbnailer := by
    simp [hildonThumbnailPluginLoad, hload]
  have hreachable (module : GModule) (hm : (hildonThumbnailPluginDoInit (hildonThumbnailPluginLoad s load) opened
      load.init).thumbnailer.Reachable module) :
      module = opened ∨ module ∈ unlisted ∨ ∃ path, s.registrations.lookup path = some module := by
    rcases reachable_doInit hm with hm | hm
    · exact .inl hm
    · rw [hthumbnailer] at hm
      exact .inr (h.reachable module hm)
  cases herror : load.init.error with
  | true =>
    have hstep : onPluginChanged s (.created path load) =
        hildonThumbnailPluginDoInit (hildonThumbnailPluginLoad s load) opened load.init := by
      simp [onPluginChanged, hfile, hload, herror]
    have hleft : s.unlisted (.created path load) = [opened] := by simp [PluginState.unlisted, hfile, hload, herror]
    rw [hstep, hleft]
    refine ⟨fun module => ?_, fun module hm => ?_⟩
    · have hrefs := refs_pluginLoad (s := s) hload module
      have hbefore := h.refs module
      change (hildonThumbnailPluginLoad s load).refs module =
        registeredAt (hildonThumbnailPluginLoad s load).registrations module + _ + _
      rw [hregistrations, List.count_append]
      omega
    · change _ ∨ ∃ path, (hildonThumbnailPluginLoad s load).registrations.lookup path = some module
      rw [hregistrations, List.mem_append, List.mem_singleton]
      rcases hreachable module hm with hm | hm | hm
      · exact .inl (.inr hm)
      · exact .inl (.inl hm)
      · exact .inr hm
  | false =>
    have hstep : onPluginChanged s (.created path load) =
        { hildonThumbnailPluginDoInit (hildonThumbnailPluginLoad s load) opened load.init with
          registrations := s.registrations.insert path opened } := by
      simp [onPluginChanged, hfile, hload, herror, hildonThumbnailPluginDoInit, hregistrations]
    have hleft : s.unlisted (.created path load) = (s.registrations.lookup path).toList := by
      simp [PluginState.unlisted, hfile, hload, herror]
    rw [hstep, hleft]
    refine ⟨fun module => ?_, fun module hm => ?_⟩
    · have hrefs := refs_pluginLoad (s := s) hload module
      have hbefore := h.refs module
      have hinsert := registeredAt_insert s.registrations path opened module
      change (hildonThumbnailPluginLoad s load).refs module =
        registeredAt (s.registrations.insert path opened) module + _ + _
      rw [List.count_append]
      omega
    · change _ ∨ ∃ q, (s.registrations.insert path opened).lookup q = some module
      rw [List.mem_append]
      rcases hreachable module hm with rfl | hm | ⟨q, hq⟩
      · exact .inr ⟨path, AList.lookup_insert _⟩
      · exact .inl (.inl hm)
      · by_cases hpath : q = path
        · rw [hpath] at hq
          exact .inl (.inr (by rw [hq]; exact List.mem_cons_self))
        · exact .inr ⟨q, (AList.lookup_insert_ne hpath).trans hq⟩

theorem accounted_created (h : s.Accounted unlisted stayed) (path : String) (load : PluginLoad) :
    (onPluginChanged s (.created path load)).Accounted (unlisted ++ s.unlisted (.created path load)) stayed := by
  by_cases hfile : isPluginFile path = true
  · cases hload : load.module with
    | none =>
      have hsame : onPluginChanged s (.created path load) = s := by
        simp [onPluginChanged, hload, hildonThumbnailPluginLoad]
      rw [hsame]
      simpa [PluginState.unlisted, hload] using h
    | some opened => exact accounted_loaded h hload hfile
  · simpa [onPluginChanged, PluginState.unlisted, hfile] using h

theorem refs_pos_of_lookup (h : s.Accounted unlisted stayed) {path : String} {module : GModule}
    (hpath : s.registrations.lookup path = some module) : 0 < s.refs module := by
  have hrefs := h.refs module
  have hheld := registeredAt_erase s.registrations path module
  rw [hpath, Option.toList_some, List.count_singleton_self] at hheld
  omega

theorem accounted_deleted (h : s.Accounted unlisted stayed) (path : String) (resident : Bool) :
    (onPluginChanged s (.deleted path resident)).Accounted unlisted
      (stayed ++ s.stayed (.deleted path resident)) := by
  by_cases hfile : isPluginFile path = true
  · cases hpath : s.registrations.lookup path with
    | none =>
      have hsame : onPluginChanged s (.deleted path resident) = s := by simp [onPluginChanged, hpath]
      rw [hsame]
      cases resident <;> simpa [PluginState.stayed, hpath] using h
    | some plugin =>
      have hstep : onPluginChanged s (.deleted path resident) =
          hildonThumbnailPluginDoStop { s with
            registrations := s.registrations.erase path
            thumbnailer := thumbnailerUnregisterPlugin s.thumbnailer plugin } plugin resident := by
        simp [onPluginChanged, hfile, hpath]
      have hregistrations (t : PluginState) :
          (hildonThumbnailPluginDoStop t plugin resident).registrations = t.registrations := by
        cases resident <;> rfl
      have hthumbnailer (t : PluginState) :
          (hildonThumbnailPluginDoStop t plugin resident).thumbnailer = t.thumbnailer := by
        cases resident <;> rfl
      rw [hstep]
      refine ⟨fun module => ?_, fun module hm => ?_⟩
      · have hstop := refs_pluginDoStop (s := { s with
          registrations := s.registrations.erase path
          thumbnailer := thumbnailerUnregisterPlugin s.thumbnailer plugin }) resident
            (refs_pos_of_lookup h hpath) module
        have hbefore := h.refs module
        have herase := registeredAt_erase s.registrations path module
        rw [hpath, Option.toList_some] at herase
        rw [hregistrations, List.count_append]
        dsimp only at hstop ⊢
        cases resident with
        | true =>
          simp only [PluginState.stayed, hfile, hpath, if_true, Option.toList_some] at hstop ⊢
          omega
        | false =>
          simp only [PluginState.stayed, List.count_nil, Bool.false_eq_true, if_false] at hstop ⊢
          omega
      · rw [hthumbnailer] at hm
        obtain ⟨hne, hm⟩ := reachable_unregister hm
        rw [hregistrations]
        rcases h.reachable module hm with hm | ⟨q, hq⟩
        · exact .inl hm
        · refine .inr ⟨q, ?_⟩
          have hqpath : q ≠ path := by
            rintro rfl
            exact hne (Option.some.inj (hq.symm.trans hpath))
          exact (AList.lookup_erase_ne hqpath).trans hq
  · cases resident <;> simpa [onPluginChanged, PluginState.stayed, hfile] using h

theorem accounted_step (h : s.Accounted unlisted stayed) (e : PluginEvent) :
    (onPluginChanged s e).Accounted (unlisted ++ s.unlisted e) (stayed ++ s.stayed e) := by
  cases e with
  | created path load => simpa [PluginState.stayed] using accounted_created h path load
  | deleted path resident => simpa [PluginState.unlisted] using accounted_deleted h path resident
  | other path => simpa [onPluginChanged, PluginState.unlisted, PluginState.stayed] using h

theorem accounted_run (h : s.Accounted unlisted stayed) (events : List PluginEvent) :
    (events.foldl onPluginChanged s).Accounted
      (unlisted ++ StepRun.gather onPluginChanged PluginState.unlisted s events)
      (stayed ++ StepRun.gather onPluginChanged PluginState.stayed s events) := by
  induction events generalizing s unlisted stayed with
  | nil => simpa [StepRun.gather] using h
  | cons e events ih =>
    have hrest := ih (accounted_step h e)
    rw [List.append_assoc, List.append_assoc] at hrest
    exact hrest

theorem accounted_init (m : ThumbnailManager) : (pluginInit m).Accounted [] [] where
  refs _ := rfl
  reachable module hm := by
    obtain ⟨scheme, mime, hget⟩ := hm
    simp [pluginInit, getPlugin, PluginsPerScheme.registration] at hget

/-- The modules that are stopped and stay open when the table is emptied. -/
def stoppedResident (resident : String → Bool) (entries : List (String × GModule)) : List GModule :=
  entries.flatMap fun e => if resident e.1 then [e.2] else []

/-- A stop takes from each module the references of its entries, and the module from the thumbnailer. -/
theorem accounted_stop (resident : String → Bool) (entries : List (String × GModule)) (kept : List GModule)
    (hrefs : ∀ module, s.refs module = (entries.map Prod.snd).count module + kept.count module) :
    let stopped := entries.foldl (stopPlugin resident) s
    (∀ module, stopped.refs module = kept.count module + (stoppedResident resident entries).count module) ∧
      ∀ module, stopped.thumbnailer.Reachable module →
        s.thumbnailer.Reachable module ∧ module ∉ entries.map Prod.snd := by
  induction entries generalizing s kept with
  | nil =>
    refine ⟨fun module => ?_, fun module hm => ⟨hm, List.not_mem_nil⟩⟩
    simpa [stoppedResident] using hrefs module
  | cons e entries ih =>
    have hopen : 0 < s.refs e.2 := by
      rw [hrefs e.2, List.map_cons, List.count_cons_self]
      omega
    have hone := refs_pluginDoStop (s := { s with thumbnailer := thumbnailerUnregisterPlugin s.thumbnailer e.2 })
      (resident e.1) hopen
    have hrest := ih (s := stopPlugin resident s e) (kept ++ if resident e.1 then [e.2] else []) fun module => by
      have hstop := hone module
      have hbefore := hrefs module
      rw [List.map_cons, List.count_cons_add] at hbefore
      rw [List.count_append, stopPlugin]
      cases hresident : resident e.1 with
      | true =>
        simp only [hresident, if_true] at hstop ⊢
        omega
      | false =>
        simp only [hresident, Bool.false_eq_true, if_false, List.count_nil] at hstop ⊢
        omega
    obtain ⟨hcount, hreachable⟩ := hrest
    refine ⟨fun module => ?_, fun module hm => ?_⟩
    · have hall := hcount module
      rw [List.count_append] at hall
      rw [List.foldl_cons, stoppedResident, List.flatMap_cons, List.count_append]
      rw [stoppedResident] at hall
      omega
    · obtain ⟨hm, hothers⟩ := hreachable module hm
      have hthumbnailer : (stopPlugin resident s e).thumbnailer =
        thumbnailerUnregisterPlugin s.thumbnailer e.2 := by
        rw [stopPlugin]
        cases resident e.1 <;> rfl
      rw [hthumbnailer] at hm
      obtain ⟨hne, hm⟩ := reachable_unregister hm
      exact ⟨hm, fun hmem => (List.mem_cons.mp hmem).elim hne hothers⟩

end Steps

end PluginState

theorem initPlugins_state (dir : String) (m : ThumbnailManager) {listing : Option (List PluginFile)}
    (h : ¬ SomeInitFails (listing.getD [])) :
    (initPlugins dir m listing).state =
      (startEvents dir (listing.getD [])).foldl onPluginChanged (pluginInit m) := by
  cases listing with
  | none => rfl
  | some files =>
    have hscan :=
      foldl_initPlugin_of_not_fails dir (show ¬ SomeInitFails files from h)
        (s := ⟨⟨∅, ⟨∅, m⟩, fun _ => 0⟩, .null, false⟩) rfl
    simp [initPlugins, hscan, pluginInit]

/-- Over the life of the daemon, if no plugin reports an error while it starts: a module is left open
at its end once for each time it was loaded and got no entry or lost it to what was loaded later,
and for each of its stops at which it asked to stay. A module that the thumbnailer would still use
is one that is open without an entry. -/
theorem plugins_life (dir : String) (m : ThumbnailManager) {listing : Option (List PluginFile)}
    (h : ¬ SomeInitFails (listing.getD [])) (events : List PluginEvent) (o : KeyTable.Order String)
    (resident : String → Bool) :
    let all := startEvents dir (listing.getD []) ++ events
    let s := events.foldl onPluginChanged (initPlugins dir m listing).state
    let stopped := stopPlugins o resident s
    let unlisted := StepRun.gather onPluginChanged PluginState.unlisted (pluginInit m) all
    (∀ module, stopped.refs module = unlisted.count module +
        (StepRun.gather onPluginChanged PluginState.stayed (pluginInit m) all).count module +
        (PluginState.stoppedResident resident (o.visit s.registrations)).count module) ∧
      ∀ module, stopped.thumbnailer.Reachable module →
        module ∈ unlisted ∧ stopped.isOpen module ∧ ∀ path, lastLoaded path all.reverse ≠ some module := by
  intro all s stopped unlisted
  have haccounted :
      s.Accounted unlisted (StepRun.gather onPluginChanged PluginState.stayed (pluginInit m) all) := by
    have hrun := PluginState.accounted_run (PluginState.accounted_init m) all
    rw [List.foldl_append, ← initPlugins_state dir m h] at hrun
    exact hrun
  have hsound : s.Sound all.reverse := by
    rw [List.reverse_append]
    exact sound_foldl (initPlugins_sound h) events
  have hentries (module : GModule) :
      ((o.visit s.registrations).map Prod.snd).count module = registeredAt s.registrations module := by
    rw [List.map_eq_flatMap, List.count_flatMap]
    exact o.sum_visit s.registrations fun v => [v].count module
  have hstop := PluginState.accounted_stop (s := s) resident (o.visit s.registrations)
    (unlisted ++ StepRun.gather onPluginChanged PluginState.stayed (pluginInit m) all) fun module => by
      rw [hentries, haccounted.refs module, List.count_append]
      omega
  have hrefs (module : GModule) : stopped.refs module = unlisted.count module +
      (StepRun.gather onPluginChanged PluginState.stayed (pluginInit m) all).count module +
        (PluginState.stoppedResident resident (o.visit s.registrations)).count module := by
    rw [← List.count_append]
    exact hstop.1 module
  refine ⟨hrefs, fun module hm => ?_⟩
  obtain ⟨hm, hnot⟩ := hstop.2 module hm
  have hpath (path : String) : s.registrations.lookup path ≠ some module := by
    intro hpath
    exact hnot (List.mem_map.mpr ⟨(path, module), o.mem_visit.mpr hpath, rfl⟩)
  have hunlisted : module ∈ unlisted := by
    rcases haccounted.reachable module hm with hm | ⟨path, hlookup⟩
    · exact hm
    · exact absurd hlookup (hpath path)
  refine ⟨hunlisted, ?_, fun path => ?_⟩
  · have hcount := List.count_pos_iff.mpr hunlisted
    have hopen := hrefs module
    change 0 < stopped.refs module
    omega
  · rw [← hsound.1 path]
    exact hpath path

/-- A plugin for PNG files is there at the start, one for GIF files fails later. -/
def pngThenGif : PluginState :=
  [PluginEvent.created "/plugins/gif.so" ⟨some 1, [("image/gif", ["file"], 0)], true⟩].foldl onPluginChanged
    (initPlugins "/plugins" thumbnailManagerInit (some [⟨"png.so", pngPlugin 2 false⟩])).state

theorem plugins_life_pngThenGif :
    let stopped := stopPlugins (.stored String) (fun _ => false) pngThenGif
    stopped.refs 1 = 1 ∧ stopped.refs 2 = 0 ∧ ∀ module, stopped.thumbnailer.Reachable module → module ∈ [1] := by
  have h : ¬ SomeInitFails ((some [⟨"png.so", pngPlugin 2 false⟩] : Option (List PluginFile)).getD []) := by
    simp [SomeInitFails, pngPlugin, PluginLoad.initFails]
  have hlife := plugins_life "/plugins" thumbnailManagerInit h
    [.created "/plugins/gif.so" ⟨some 1, [("image/gif", ["file"], 0)], true⟩] (.stored String) fun _ => false
  exact ⟨hlife.1 1, hlife.1 2, fun module hm => (hlife.2 module hm).1⟩

end HildonThumbnail
