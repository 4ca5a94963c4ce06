import HildonThumbnail.Manager.Handlers

/-! The thumbnailer's table of plugins (`thumbnailer_register_plugin`,
`thumbnailer_unregister_plugin`, `get_plugin`). -/

namespace HildonThumbnail

/-- The address of a loaded module. -/
abbrev GModule := Nat

structure PluginRegistration where
  plugin : GModule
  priority : Int
deriving DecidableEq

abbrev PluginsPerScheme := KeyTable String (KeyTable String PluginRegistration)

structure PluginTable where
  pluginsPerscheme : PluginsPerScheme
  manager : ThumbnailManager

def PluginsPerScheme.registration (t : PluginsPerScheme) (uriScheme mimeType : String) :
    Option PluginRegistration :=
  (t.lookup uriScheme).bind fun hash => hash.lookup mimeType

def getPlugin (priv : PluginTable) (uriScheme mimeType : String) : Option GModule :=
  (PluginsPerScheme.registration priv.pluginsPerscheme uriScheme mimeType).map PluginRegistration.plugin

def registerScheme (mimeType : String) (reg : PluginRegistration) (t : PluginsPerScheme)
    (uriScheme : String) : PluginsPerScheme :=
  match t.lookup uriScheme with
  | none => t.insert uriScheme ((∅ : KeyTable String PluginRegistration).insert mimeType reg)
  | some hash =>
    match hash.lookup mimeType with
    | none => t.insert uriScheme (hash.insert mimeType reg)
    | some oReg =>
      if oReg.priority < reg.priority then t.insert uriScheme (hash.insert mimeType reg) else t

def thumbnailerRegisterPlugin (priv : PluginTable) (mimeType : String) (plugin : GModule)
    (uriSchemes : List String) (priority : Int) : PluginTable where
  pluginsPerscheme := uriSchemes.foldl (registerScheme mimeType ⟨plugin, priority⟩) priv.pluginsPerscheme
  manager := thumbnailManagerIHave priv.manager mimeType

/-- The schemes stay in the table, possibly with no plugin left. -/
def thumbnailerUnregisterPlugin (priv : PluginTable) (plugin : GModule) : PluginTable :=
  { priv with
    pluginsPerscheme := KeyTable.mapValues
      (fun _ hash => KeyTable.removeIf (fun _ reg => reg.plugin == plugin) hash) priv.pluginsPerscheme }

def PluginRegistration.replace (reg : PluginRegistration) : Option PluginRegistration → PluginRegistration
  | none => reg
  | some oReg => if oReg.priority < reg.priority then reg else oReg

theorem PluginRegistration.replace_replace (reg : PluginRegistration) (o : Option PluginRegistration) :
    reg.replace (some (reg.replace o)) = reg.replace o := by
  rcases o with _ | oReg
  · simp [replace]
  · by_cases h : oReg.priority < reg.priority <;> simp [replace, h]

theorem registration_insert (t : PluginsPerScheme) (s : String) (hash : KeyTable String PluginRegistration)
    (scheme mime : String) : PluginsPerScheme.registration (t.insert s hash) scheme mime =
      if s = scheme then hash.lookup mime else t.registration scheme mime := by
  rw [PluginsPerScheme.registration, KeyTable.lookup_insert_eq]
  by_cases hs : scheme = s
  · simp [hs]
  · simp [hs, Ne.symm hs, PluginsPerScheme.registration]

theorem registration_registerScheme (t : PluginsPerScheme) (mimeType : String) (reg : PluginRegistration)
    (s scheme mime : String) :
    (registerScheme mimeType reg t s).registration scheme mime =
      if s = scheme ∧ mimeType = mime then some (reg.replace (t.registration scheme mime))
      else t.registration scheme mime := by
  rw [registerScheme]
  cases hl : t.lookup s with
  | none =>
    have hold : t.registration s mime = none := by rw [PluginsPerScheme.registration, hl]; rfl
    have hnew : ((∅ : KeyTable String PluginRegistration).insert mimeType reg).lookup mime =
        if mimeType = mime then some reg else none := by
      rw [KeyTable.lookup_insert_eq, AList.lookup_empty]
      simp only [eq_comm]
    simp only [registration_insert, hnew]
    by_cases hs : s = scheme
    · subst hs
      simp [hold, PluginRegistration.replace]
    · simp [hs]
  | some hash =>
    have hold (m : String) : t.registration s m = hash.lookup m := by
      rw [PluginsPerScheme.registration, hl]; rfl
    by_cases hs : s = scheme
    · subst hs
      by_cases hm : mimeType = mime
      · subst hm
        cases ho : hash.lookup mimeType with
        | none => simp [registration_insert, hold, ho, PluginRegistration.replace]
        | some oReg =>
          by_cases hp : oReg.priority < reg.priority <;>
            simp [registration_insert, hold, ho, hp, PluginRegistration.replace]
      · have hkeep : (hash.insert mimeType reg).lookup mime = hash.lookup mime :=
          AList.lookup_insert_ne (Ne.symm hm)
        cases ho : hash.lookup mimeType with
        | none => simp [ho, registration_insert, hold, hm, hkeep]
        | some oReg =>
          by_cases hp : oReg.priority < reg.priority <;>
            simp [ho, registration_insert, hold, hm, hkeep, hp]
    · cases ho : hash.lookup mimeType with
      | none => simp [ho, registration_insert, hs]
      | some oReg => by_cases hp : oReg.priority < reg.priority <;> simp [ho, registration_insert, hs, hp]

theorem registration_register (priv : PluginTable) (mimeType : String) (plugin : GModule)
    (uriSchemes : List String) (priority : Int) (scheme mime : String) :
    (thumbnailerRegisterPlugin priv mimeType plugin uriSchemes priority).pluginsPerscheme.registration
        scheme mime =
      if scheme ∈ uriSchemes ∧ mimeType = mime then
        some ((⟨plugin, priority⟩ : PluginRegistration).replace
          (priv.pluginsPerscheme.registration scheme mime))
      else priv.pluginsPerscheme.registration scheme mime := by
  rw [thumbnailerRegisterPlugin]
  dsimp only
  generalize priv.pluginsPerscheme = t
  induction uriSchemes generalizing t with
  | nil => simp
  | cons s schemes ih =>
    rw [List.foldl_cons, ih, registration_registerScheme]
    by_cases hm : mimeType = mime
    · by_cases hs : s = scheme
      · subst hs
        simp [hm, PluginRegistration.replace_replace]
      · simp [hm, hs, Ne.symm hs]
    · simp [hm]

theorem registration_unregister (priv : PluginTable) (plugin : GModule) (scheme mime : String) :
    (thumbnailerUnregisterPlugin priv plugin).pluginsPerscheme.registration scheme mime =
      (priv.pluginsPerscheme.registration scheme mime).filter fun reg => reg.plugin != plugin := by
  simp only [thumbnailerUnregisterPlugin, PluginsPerScheme.registration, KeyTable.lookup_mapValues]
  cases priv.pluginsPerscheme.lookup scheme with
  | none => rfl
  | some hash => exact KeyTable.lookup_removeIf _ hash mime

end HildonThumbnail
