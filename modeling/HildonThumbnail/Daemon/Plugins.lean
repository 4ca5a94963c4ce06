import HildonThumbnail.Thumbnailer.Plugins

/-! The daemon's plugins: the scan of the plugin directory at start-up
(`init_plugins`) and the monitor of that directory (`on_plugin_changed`). -/

namespace HildonThumbnail

/-- What a plugin's init function does: its calls of the register function, and
whether it then reports an error. -/
structure PluginInit where
  registers : List (String × List String × Int)
  error : Bool

structure PluginLoad where
  module : Option GModule
  init : PluginInit

def PluginLoad.initFails (load : PluginLoad) : Bool := load.module.isSome && load.init.error

/-- `refs` is the reference count of each module: it is open while positive. -/
structure PluginState where
  registrations : KeyTable String GModule
  thumbnailer : PluginTable
  refs : GModule → Nat

def PluginState.isOpen (s : PluginState) (module : GModule) : Prop := 0 < s.refs module

def isPluginFile (name : String) : Bool := (".so".toList).isSuffixOf name.toList

def hildonThumbnailPluginLoad (s : PluginState) (load : PluginLoad) : PluginState :=
  match load.module with
  | none => s
  | some module => { s with refs := Function.update s.refs module (s.refs module + 1) }

def gModuleClose (s : PluginState) (module : GModule) : PluginState :=
  { s with refs := Function.update s.refs module (s.refs module - 1) }

def hildonThumbnailPluginDoInit (s : PluginState) (module : GModule) (init : PluginInit) : PluginState :=
  { s with
    thumbnailer := init.registers.foldl
      (fun priv r => thumbnailerRegisterPlugin priv r.1 module r.2.1 r.2.2) s.thumbnailer }

def hildonThumbnailPluginDoStop (s : PluginState) (module : GModule) (resident : Bool) : PluginState :=
  if resident then s else gModuleClose s module

inductive GErrorPointer
  | null
  | set
  | freed
deriving DecidableEq

/-- A state of `init_plugins`; `misuse` records a read or a second free of a
freed error. -/
structure InitPlugins where
  state : PluginState
  error : GErrorPointer
  misuse : Bool

structure PluginFile where
  name : String
  load : PluginLoad

def pluginPath (dir plugin : String) : String := dir ++ "/" ++ plugin

/-- `g_error_free`, which leaves the pointer as it is. -/
def InitPlugins.gErrorFree (s : InitPlugins) : InitPlugins :=
  { s with error := .freed, misuse := s.misuse || s.error == .freed }

/-- The body of the loop over the directory. A set pointer is not overwritten
by the error of a later plugin. -/
def initPlugin (dir : String) (s : InitPlugins) (file : PluginFile) : InitPlugins :=
  if isPluginFile file.name then
    let loaded := hildonThumbnailPluginLoad s.state file.load
    match file.load.module with
    | none => if s.error = .null then { s with state := loaded } else { s with state := loaded }.gErrorFree
    | some module =>
      let inited := hildonThumbnailPluginDoInit loaded module file.load.init
      let error := if s.error = .null ∧ file.load.init.error then .set else s.error
      if error = .null then
        { s with
          state := { inited with
            registrations := inited.registrations.insert (pluginPath dir file.name) module } }
      else
        { s with state := gModuleClose inited module, error := error }.gErrorFree
  else s

/-- `listing` is absent when `g_dir_open` fails, which sets the error. -/
def initPlugins (dir : String) (m : ThumbnailManager) (listing : Option (List PluginFile)) : InitPlugins :=
  let start : InitPlugins := ⟨⟨∅, ⟨∅, m⟩, fun _ => 0⟩, .null, false⟩
  let s := match listing with
    | none => { start with error := .set }
    | some files => files.foldl (initPlugin dir) start
  if s.error = .null then s else s.gErrorFree

inductive PluginEvent
  | created (path : String) (load : PluginLoad)
  | deleted (path : String) (resident : Bool)
  | other (path : String)

def onPluginChanged (s : PluginState) : PluginEvent → PluginState
  | .created path load =>
    if isPluginFile path then
      let loaded := hildonThumbnailPluginLoad s load
      match load.module with
      | none => loaded
      | some module =>
        let inited := hildonThumbnailPluginDoInit loaded module load.init
        if load.init.error then inited
        else { inited with registrations := inited.registrations.insert path module }
    else s
  | .deleted path resident =>
    if isPluginFile path then
      match s.registrations.lookup path with
      | none => s
      | some module =>
        let removed := { s with
          registrations := s.registrations.erase path
          thumbnailer := thumbnailerUnregisterPlugin s.thumbnailer module }
        hildonThumbnailPluginDoStop removed module resident
    else s
  | .other _ => s

/-- The module that was loaded from a path, initialised without error and not
deleted since, by the events so far, the latest one first. -/
def lastLoaded (path : String) : List PluginEvent → Option GModule
  | [] => none
  | .created p load :: earlier =>
    if p = path ∧ isPluginFile p ∧ load.module.isSome ∧ load.init.error = false then load.module
    else lastLoaded path earlier
  | .deleted p _ :: earlier => if p = path ∧ isPluginFile p then none else lastLoaded path earlier
  | .other _ :: earlier => lastLoaded path earlier

def startEvents (dir : String) (files : List PluginFile) : List PluginEvent :=
  (files.filter fun f => isPluginFile f.name).map fun f => .created (pluginPath dir f.name) f.load

def PluginTable.Reachable (priv : PluginTable) (module : GModule) : Prop :=
  ∃ scheme mime, getPlugin priv scheme mime = some module

/-- The registrations are the modules loaded, initialised and not deleted, and
every module that the thumbnailer can reach is open. -/
def PluginState.Sound (s : PluginState) (history : List PluginEvent) : Prop :=
  (∀ path, s.registrations.lookup path = lastLoaded path history) ∧
    ∀ module, s.thumbnailer.Reachable module → s.isOpen module

end HildonThumbnail
