import HildonThumbnail.Daemon.Plugins

/-! When the daemon's registrations are sound: always, unless a plugin reports
an error while the daemon starts. -/

namespace HildonThumbnail

theorem reachable_register {priv : PluginTable} {mimeType : String} {plugin module : GModule}
    {uriSchemes : List String} {priority : Int}
    (h : (thumbnailerRegisterPlugin priv mimeType plugin uriSchemes priority).Reachable module) :
    module = plugin ∨ priv.Reachable module := by
  obtain ⟨scheme, mime, hget⟩ := h
  obtain ⟨reg, hreg, rfl⟩ := Option.map_eq_some_iff.mp hget
  rw [registration_register] at hreg
  split at hreg
  · obtain rfl := Option.some.inj hreg
    cases ho : priv.pluginsPerscheme.registration scheme mime with
    | none => exact .inl rfl
    | some oReg =>
      by_cases hp : oReg.priority < priority
      · exact .inl (by simp [PluginRegistration.replace, hp])
      · refine .inr ⟨scheme, mime, ?_⟩
        simp [getPlugin, ho, PluginRegistration.replace, hp]
  · exact .inr ⟨scheme, mime, by rw [getPlugin, hreg]; rfl⟩

theorem reachable_doInit {s : PluginState} {plugin module : GModule} {init : PluginInit}
    (h : (hildonThumbnailPluginDoInit s plugin init).thumbnailer.Reachable module) :
    module = plugin ∨ s.thumbnailer.Reachable module := by
  rw [hildonThumbnailPluginDoInit] at h
  dsimp only at h
  generalize s.thumbnailer = priv at h ⊢
  generalize init.registers = registers at h
  induction registers generalizing priv with
  | nil => exact .inr h
  | cons r registers ih =>
    rcases ih _ h with rfl | h
    · exact .inl rfl
    · exact reachable_register h

theorem reachable_unregister {priv : PluginTable} {plugin module : GModule}
    (h : (thumbnailerUnregisterPlugin priv plugin).Reachable module) :
    module ≠ plugin ∧ priv.Reachable module := by
  obtain ⟨scheme, mime, hget⟩ := h
  obtain ⟨reg, hreg, rfl⟩ := Option.map_eq_some_iff.mp hget
  rw [registration_unregister] at hreg
  obtain ⟨hreg, hne⟩ := Option.filter_eq_some_iff.mp hreg
  exact ⟨by simpa using hne, scheme, mime, by rw [getPlugin, hreg]; rfl⟩

theorem isOpen_load {s : PluginState} {load : PluginLoad} {module : GModule}
    (h : load.module = some module ∨ s.isOpen module) : (hildonThumbnailPluginLoad s load).isOpen module := by
  rw [hildonThumbnailPluginLoad]
  cases hl : load.module with
  | none =>
    rw [hl] at h
    exact h.resolve_left (by simp)
  | some opened =>
    by_cases hm : module = opened
    · simp [PluginState.isOpen, hm]
    · have hs : s.isOpen module := h.resolve_left (by rw [hl]; simpa using Ne.symm hm)
      simpa [PluginState.isOpen, hm] using hs

theorem isOpen_doStop {s : PluginState} {plugin module : GModule} {resident : Bool} (hne : module ≠ plugin) :
    (hildonThumbnailPluginDoStop s plugin resident).isOpen module ↔ s.isOpen module := by
  cases resident
  · simp [hildonThumbnailPluginDoStop, gModuleClose, PluginState.isOpen, hne]
  · rfl

theorem sound_created {s : PluginState} {history : List PluginEvent} (h : s.Sound history) (path : String)
    (load : PluginLoad) :
    (onPluginChanged s (.created path load)).Sound (.created path load :: history) := by
  rw [onPluginChanged]
  by_cases hp : isPluginFile path = true
  · rw [if_pos hp]
    cases hl : load.module with
    | none =>
      refine ⟨fun q => ?_, fun module hm => ?_⟩
      · simpa [hildonThumbnailPluginLoad, hl, lastLoaded] using h.1 q
      · exact isOpen_load (.inr (h.2 module (by simpa [hildonThumbnailPluginLoad, hl] using hm)))
    | some module =>
      have hopen : ∀ m, (hildonThumbnailPluginDoInit (hildonThumbnailPluginLoad s load) module
          load.init).thumbnailer.Reachable m → (hildonThumbnailPluginLoad s load).isOpen m := by
        intro m hm
        rcases reachable_doInit hm with rfl | hm
        · exact isOpen_load (.inl hl)
        · exact isOpen_load (.inr (h.2 m (by simpa [hildonThumbnailPluginLoad, hl] using hm)))
      have hregs : (hildonThumbnailPluginDoInit (hildonThumbnailPluginLoad s load) module
          load.init).registrations = s.registrations := by
        simp [hildonThumbnailPluginDoInit, hildonThumbnailPluginLoad, hl]
      cases he : load.init.error with
      | true =>
        refine ⟨fun q => ?_, hopen⟩
        simpa [he, hregs, lastLoaded] using h.1 q
      | false =>
        refine ⟨fun q => ?_, hopen⟩
        simp only [hregs, Bool.false_eq_true, if_false, KeyTable.lookup_insert_eq]
        by_cases hq : q = path
        · simp [hq, lastLoaded, hp, hl, he]
        · simpa [hq, Ne.symm hq, lastLoaded] using h.1 q
  · rw [if_neg hp]
    refine ⟨fun q => ?_, h.2⟩
    simpa [hp, lastLoaded] using h.1 q

theorem sound_deleted {s : PluginState} {history : List PluginEvent} (h : s.Sound history) (path : String)
    (resident : Bool) :
    (onPluginChanged s (.deleted path resident)).Sound (.deleted path resident :: history) := by
  rw [onPluginChanged]
  by_cases hp : isPluginFile path = true
  · rw [if_pos hp]
    cases hl : s.registrations.lookup path with
    | none =>
      refine ⟨fun q => ?_, h.2⟩
      by_cases hq : path = q
      · subst hq
        simp [lastLoaded, hp, hl]
      · simpa [lastLoaded, hq] using h.1 q
    | some module =>
      have hregs (t : PluginState) : (hildonThumbnailPluginDoStop t module resident).registrations =
          t.registrations := by
        cases resident <;> rfl
      have hthumb (t : PluginState) : (hildonThumbnailPluginDoStop t module resident).thumbnailer =
          t.thumbnailer := by
        cases resident <;> rfl
      refine ⟨fun q => ?_, fun m hm => ?_⟩
      · simp only [hregs, KeyTable.lookup_erase_eq]
        by_cases hq : q = path
        · simp [lastLoaded, hq, hp]
        · simpa [lastLoaded, hq, Ne.symm hq] using h.1 q
      · rw [hthumb] at hm
        obtain ⟨hne, hm⟩ := reachable_unregister hm
        exact (isOpen_doStop hne).mpr (h.2 m hm)
  · rw [if_neg hp]
    refine ⟨fun q => ?_, h.2⟩
    simpa [hp, lastLoaded] using h.1 q

theorem sound_onPluginChanged {s : PluginState} {history : List PluginEvent} (h : s.Sound history)
    (event : PluginEvent) : (onPluginChanged s event).Sound (event :: history) := by
  cases event with
  | created path load => exact sound_created h path load
  | deleted path resident => exact sound_deleted h path resident
  | other path => exact h

theorem sound_foldl {s : PluginState} {history : List PluginEvent} (h : s.Sound history)
    (events : List PluginEvent) : (events.foldl onPluginChanged s).Sound (events.reverse ++ history) := by
  induction events generalizing s history with
  | nil => exact h
  | cons event events ih =>
    have hh := ih (sound_onPluginChanged h event)
    simpa using hh

def SomeInitFails (files : List PluginFile) : Prop :=
  ∃ f ∈ files, isPluginFile f.name = true ∧ f.load.initFails = true

theorem isPluginFile_pluginPath {dir plugin : String} (h : isPluginFile plugin = true) :
    isPluginFile (pluginPath dir plugin) = true := by
  rw [isPluginFile] at h ⊢
  rw [List.isSuffixOf_iff_suffix] at h ⊢
  rw [pluginPath, String.toList_append]
  exact h.trans (List.suffix_append _ _)

theorem initPlugin_of_not_fails {dir : String} {s : InitPlugins} {file : PluginFile}
    (hs : s.error = .null) (hf : isPluginFile file.name = true) (hload : file.load.initFails = false) :
    initPlugin dir s file =
      { s with state := onPluginChanged s.state (.created (pluginPath dir file.name) file.load) } := by
  rw [initPlugin, if_pos hf, onPluginChanged, if_pos (isPluginFile_pluginPath hf)]
  cases hm : file.load.module with
  | none => simp [hs]
  | some module =>
    have he : file.load.init.error = false := by simpa [PluginLoad.initFails, hm] using hload
    simp [hs, he]

/-- Between two plugins the pointer is NULL or dangling, and it dangles once a
plugin has failed. -/
theorem initPlugin_error (dir : String) {s : InitPlugins} (hs : s.error ≠ .set) (file : PluginFile) :
    (initPlugin dir s file).error =
      if isPluginFile file.name = true ∧ file.load.initFails = true then .freed else s.error := by
  rw [initPlugin]
  by_cases hf : isPluginFile file.name = true
  · rw [if_pos hf]
    cases he : s.error with
    | set => exact absurd he hs
    | null =>
      cases hm : file.load.module with
      | none => simp [PluginLoad.initFails, hm]
      | some module =>
        cases hi : file.load.init.error <;> simp [PluginLoad.initFails, hm, hi, hf, InitPlugins.gErrorFree]
    | freed =>
      cases hm : file.load.module with
      | none => simp [PluginLoad.initFails, hm, InitPlugins.gErrorFree]
      | some module => simp [InitPlugins.gErrorFree]
  · simp [hf]

theorem foldl_initPlugin_error (dir : String) {s : InitPlugins} (hs : s.error ≠ .set)
    (files : List PluginFile) :
    (files.foldl (initPlugin dir) s).error ≠ .set ∧
      ((files.foldl (initPlugin dir) s).error = .freed ↔ s.error = .freed ∨ SomeInitFails files) := by
  induction files generalizing s with
  | nil => exact ⟨hs, by simp [SomeInitFails]⟩
  | cons f files ih =>
    have he := initPlugin_error dir hs f
    have hne : (initPlugin dir s f).error ≠ .set := by
      rw [he]
      split
      · simp
      · exact hs
    obtain ⟨hset, hfreed⟩ := ih hne
    refine ⟨hset, ?_⟩
    rw [List.foldl_cons, hfreed, he]
    by_cases hf : isPluginFile f.name = true ∧ f.load.initFails = true
    · simp [hf, SomeInitFails]
    · simp [hf, SomeInitFails]

theorem foldl_initPlugin_of_not_fails (dir : String) {files : List PluginFile}
    (h : ¬ SomeInitFails files) {s : InitPlugins} (hs : s.error = .null) :
    files.foldl (initPlugin dir) s =
      { s with state := (startEvents dir files).foldl onPluginChanged s.state } := by
  induction files generalizing s with
  | nil => rfl
  | cons f files ih =>
    have hrest : ¬ SomeInitFails files := fun ⟨g, hg, hh⟩ => h ⟨g, List.mem_cons_of_mem _ hg, hh⟩
    rw [List.foldl_cons, startEvents]
    by_cases hf : isPluginFile f.name = true
    · have hload : f.load.initFails = false := by
        simpa using fun hh => h ⟨f, List.mem_cons_self, hf, hh⟩
      have hi := ih hrest (s := { s with
        state := onPluginChanged s.state (.created (pluginPath dir f.name) f.load) }) hs
      rw [initPlugin_of_not_fails hs hf hload, hi, List.filter_cons, if_pos hf]
      rfl
    · rw [initPlugin, if_neg hf, ih hrest hs, List.filter_cons, if_neg hf]
      rfl

theorem initPlugins_misuse_iff (dir : String) (m : ThumbnailManager) (listing : Option (List PluginFile)) :
    (initPlugins dir m listing).misuse = true ↔ SomeInitFails (listing.getD []) := by
  cases listing with
  | none => simp [initPlugins, InitPlugins.gErrorFree, SomeInitFails]
  | some files =>
    have hstart : (⟨⟨∅, ⟨∅, m⟩, fun _ => 0⟩, .null, false⟩ : InitPlugins).error ≠ .set := by simp
    by_cases h : SomeInitFails files
    · have hfreed := (foldl_initPlugin_error dir hstart files).2.mpr (.inr h)
      simp [initPlugins, hfreed, InitPlugins.gErrorFree, h]
    · simp [initPlugins, foldl_initPlugin_of_not_fails dir h, h]

theorem initPlugins_sound {dir : String} {m : ThumbnailManager} {listing : Option (List PluginFile)}
    (h : ¬ SomeInitFails (listing.getD [])) :
    (initPlugins dir m listing).state.Sound (startEvents dir (listing.getD [])).reverse := by
  have hstart : PluginState.Sound ⟨∅, ⟨∅, m⟩, fun _ => 0⟩ [] := by
    refine ⟨fun path => rfl, ?_⟩
    rintro module ⟨scheme, mime, hm⟩
    simp [getPlugin, PluginsPerScheme.registration] at hm
  cases listing with
  | none => exact hstart
  | some files =>
    have h' : ¬ SomeInitFails files := h
    have hfold := foldl_initPlugin_of_not_fails dir h'
      (s := ⟨⟨∅, ⟨∅, m⟩, fun _ => 0⟩, .null, false⟩) rfl
    have hh := sound_foldl hstart (startEvents dir files)
    simpa [initPlugins, hfold] using hh

/-- If no plugin reports an error while the daemon starts, its registrations
are sound after any later events; otherwise the start frees an error twice. -/
theorem onPluginChanged_sound (dir : String) (m : ThumbnailManager) (listing : Option (List PluginFile)) :
    (¬ SomeInitFails (listing.getD []) → ∀ events : List PluginEvent,
      (events.foldl onPluginChanged (initPlugins dir m listing).state).Sound
        (events.reverse ++ (startEvents dir (listing.getD [])).reverse)) ∧
    (SomeInitFails (listing.getD []) → (initPlugins dir m listing).misuse = true) :=
  ⟨fun h events => sound_foldl (initPlugins_sound h) events, (initPlugins_misuse_iff dir m listing).mpr⟩

def pngPlugin (module : GModule) (error : Bool) : PluginLoad :=
  ⟨some module, [("image/png", ["file"], 0)], error⟩

theorem onPluginChanged_not_sound : ¬ ∀ (dir : String) (m : ThumbnailManager)
    (listing : Option (List PluginFile)) (events : List PluginEvent),
    (events.foldl onPluginChanged (initPlugins dir m listing).state).Sound
      (events.reverse ++ (startEvents dir (listing.getD [])).reverse) := by
  intro h
  have hregs := (h "/plugins" thumbnailManagerInit
    (some [⟨"bad.so", pngPlugin 1 true⟩, ⟨"good.so", pngPlugin 2 false⟩]) []).1 "/plugins/good.so"
  exact absurd hregs (by decide)

theorem onPluginChanged_sound_png : PluginState.Sound
    (onPluginChanged (initPlugins "/plugins" thumbnailManagerInit
      (some [⟨"good.so", pngPlugin 2 false⟩])).state (.created "/plugins/bad.so" (pngPlugin 1 true)))
    [.created "/plugins/bad.so" (pngPlugin 1 true), .created "/plugins/good.so" (pngPlugin 2 false)] :=
  (onPluginChanged_sound "/plugins" thumbnailManagerInit (some [⟨"good.so", pngPlugin 2 false⟩])).1
    (by simp [SomeInitFails, pngPlugin, PluginLoad.initFails])
    [.created "/plugins/bad.so" (pngPlugin 1 true)]

end HildonThumbnail
