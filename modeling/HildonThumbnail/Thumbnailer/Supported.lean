import HildonThumbnail.Lib.Run
import HildonThumbnail.Manager.Register
import HildonThumbnail.Thumbnailer.Plugins

/-! The MIME types that GetSupported lists against those that a plugin or a
specialised thumbnailer handles (`thumbnail_manager_get_supported` and
`service_gone` in daemon/thumbnail-manager.c). -/

namespace HildonThumbnail

def replaceAll (supported : KeyTable String Unit) (mimes : List String) : KeyTable String Unit :=
  mimes.foldl (fun t mime => t.insert mime ()) supported

def supportedTable (order : KeyTable.Order String) (m : ThumbnailManager) : KeyTable String Unit :=
  replaceAll (replaceAll ∅ m.thumberHas) ((order.visit m.handlers).map fun e => supportedMime e.1)

def thumbnailManagerGetSupported (order : KeyTable.Order String) (m : ThumbnailManager) : List String :=
  (order.visit (supportedTable order m)).map Prod.fst

inductive SupportEvent
  | registerPlugin (mimeType : String) (plugin : GModule) (uriSchemes : List String) (priority : Int)
  | unregisterPlugin (plugin : GModule)
  | register (call : RegisterCall)
  | serviceGone (proxy : DBusGProxy)

namespace PluginTable

def init : PluginTable := ⟨∅, thumbnailManagerInit⟩

def on [DBusGlib] (t : PluginTable) : SupportEvent → PluginTable
  | .registerPlugin mimeType plugin uriSchemes priority =>
    thumbnailerRegisterPlugin t mimeType plugin uriSchemes priority
  | .unregisterPlugin plugin => thumbnailerUnregisterPlugin t plugin
  | .register call => { t with manager := call.enter t.manager }
  | .serviceGone proxy => { t with manager := HildonThumbnail.serviceGone t.manager proxy }

end PluginTable

/-- The URI schemes of the event contain no '-'. -/
def SupportEvent.plain : SupportEvent → Bool
  | .registerPlugin _ _ uriSchemes _ => uriSchemes.all fun s => '-' ∉ s.toList
  | .register call => '-' ∉ call.uriScheme.toList
  | .unregisterPlugin _ | .serviceGone _ => true

namespace PluginTable

def step [DBusGlib] (t : PluginTable) (e : SupportEvent) : Option PluginTable :=
  if e.plain then some (t.on e) else none

def Served (t : PluginTable) (mime : String) : Prop :=
  ∃ s : String, '-' ∉ s.toList ∧ (thumbnailManagerGetHandler t.manager s mime ≠ none ∨ getPlugin t s mime ≠ none)

/-- `thumber_has` never shrinks: no plugin comes without a scheme for its type
unless the type is served, and every announced type keeps someone to serve it. -/
def KeepsServed (t : PluginTable) : SupportEvent → Prop
  | .registerPlugin mimeType _ uriSchemes _ => uriSchemes ≠ [] ∨ t.Served mimeType
  | .unregisterPlugin plugin => ∀ mime ∈ t.manager.thumberHas, ∃ s : String, '-' ∉ s.toList ∧
      (thumbnailManagerGetHandler t.manager s mime ≠ none ∨
        ∃ other, getPlugin t s mime = some other ∧ other ≠ plugin)
  | .register _ => True
  | .serviceGone proxy => ∀ mime ∈ t.manager.thumberHas, ∃ s : String, '-' ∉ s.toList ∧
      ((∃ other, thumbnailManagerGetHandler t.manager s mime = some other ∧ other ≠ proxy) ∨
        getPlugin t s mime ≠ none)

/-- Every stored key is that of a pair, with its proxy, and every plugin's MIME
type is announced. -/
structure Stored (t : PluginTable) : Prop where
  handlers : ∀ key value, t.manager.handlers.lookup key = some value →
    ∃ s mime, '-' ∉ String.toList s ∧ key = handlerKey s mime ∧ value ≠ none
  plugins : ∀ s mime, getPlugin t s mime ≠ none → mime ∈ t.manager.thumberHas

section Supported
variable {t t' : PluginTable} {mime : String}

theorem lookup_replaceAll (supported : KeyTable String Unit) (mimes : List String) (mime : String) :
    (replaceAll supported mimes).lookup mime = some () ↔ mime ∈ mimes ∨ supported.lookup mime = some () := by
  induction mimes generalizing supported with
  | nil => simp [replaceAll]
  | cons m mimes ih =>
    have hh : replaceAll supported (m :: mimes) = replaceAll (supported.insert m ()) mimes := rfl
    rw [hh, ih, KeyTable.lookup_insert_eq, List.mem_cons]
    by_cases hm : mime = m <;> simp [hm]

theorem mem_getSupported (order : KeyTable.Order String) (m : ThumbnailManager) (mime : String) :
    mime ∈ thumbnailManagerGetSupported order m ↔
      mime ∈ m.thumberHas ∨ ∃ key value, m.handlers.lookup key = some value ∧ supportedMime key = mime := by
  have hkey : mime ∈ thumbnailManagerGetSupported order m ↔ (supportedTable order m).lookup mime = some () := by
    rw [thumbnailManagerGetSupported, List.mem_map]
    constructor
    · rintro ⟨⟨k, u⟩, hm, rfl⟩
      exact (order.mem_visit).mp hm
    · exact fun h => ⟨(mime, ()), (order.mem_visit).mpr h, rfl⟩
  rw [hkey, supportedTable, lookup_replaceAll, lookup_replaceAll, AList.lookup_empty, or_comm]
  simp only [reduceCtorEq, or_false, List.mem_map]
  refine or_congr_right ?_
  constructor
  · rintro ⟨⟨key, value⟩, hm, hmime⟩
    exact ⟨key, value, (order.mem_visit).mp hm, hmime⟩
  · rintro ⟨key, value, hl, hmime⟩
    exact ⟨(key, value), (order.mem_visit).mpr hl, hmime⟩

theorem nodup_getSupported (order : KeyTable.Order String) (m : ThumbnailManager) :
    (thumbnailManagerGetSupported order m).Nodup := order.keys_nodup _

theorem Stored.handler_iff (h : t.Stored) : (∃ key value, t.manager.handlers.lookup key = some value ∧
    supportedMime key = mime) ↔ ∃ s : String, '-' ∉ s.toList ∧
      thumbnailManagerGetHandler t.manager s mime ≠ none := by
  constructor
  · rintro ⟨key, value, hl, rfl⟩
    obtain ⟨s, m, hs, rfl, hv⟩ := h.handlers key value hl
    refine ⟨s, hs, ?_⟩
    rw [supportedMime_handlerKey hs, thumbnailManagerGetHandler, hl]
    exact hv
  · rintro ⟨s, hs, hne⟩
    rw [thumbnailManagerGetHandler] at hne
    cases hl : t.manager.handlers.lookup (handlerKey s mime) with
    | none => simp [hl] at hne
    | some value => exact ⟨_, value, hl, supportedMime_handlerKey hs mime⟩

/-- The answer is right as long as no announced type has lost its handlers. -/
theorem Stored.supported_iff (h : t.Stored) (order : KeyTable.Order String) :
    (∀ mime, mime ∈ thumbnailManagerGetSupported order t.manager ↔ t.Served mime) ↔
      ∀ mime ∈ t.manager.thumberHas, t.Served mime := by
  constructor
  · exact fun hh mime hm => (hh mime).mp ((mem_getSupported order _ mime).mpr (.inl hm))
  · intro hh mime
    rw [mem_getSupported, h.handler_iff]
    constructor
    · rintro (hm | ⟨s, hs, hne⟩)
      · exact hh mime hm
      · exact ⟨s, hs, .inl hne⟩
    · rintro ⟨s, hs, hne | hne⟩
      · exact .inr ⟨s, hs, hne⟩
      · exact .inl (h.plugins s mime hne)

end Supported

section Steps
variable {t t' : PluginTable} {mime : String}

theorem getPlugin_ne_none {s : String} :
    getPlugin t s mime ≠ none ↔ t.pluginsPerscheme.registration s mime ≠ none := by
  rw [getPlugin, ne_eq, Option.map_eq_none_iff]

theorem getPlugin_register_ne_none (mimeType : String) (plugin : GModule) (uriSchemes : List String)
    (priority : Int)
    (s : String) : getPlugin (thumbnailerRegisterPlugin t mimeType plugin uriSchemes priority) s mime ≠ none ↔
      s ∈ uriSchemes ∧ mimeType = mime ∨ getPlugin t s mime ≠ none := by
  rw [getPlugin_ne_none, registration_register, getPlugin_ne_none]
  split
  · next h => simp [h]
  · next h => simp [h]

theorem mem_thumberHas_iHave (m : ThumbnailManager) (mimeType : String) :
    mime ∈ (thumbnailManagerIHave m mimeType).thumberHas ↔ mime = mimeType ∨ mime ∈ m.thumberHas := by
  rw [thumbnailManagerIHave]
  split
  · next hm => exact ⟨.inr, fun h => h.elim (fun heq => heq ▸ hm) id⟩
  · simp

theorem handlers_iHave (m : ThumbnailManager) (mimeType : String) :
    (thumbnailManagerIHave m mimeType).handlers = m.handlers := by
  rw [thumbnailManagerIHave]
  split <;> rfl

theorem getHandler_iHave (m : ThumbnailManager) (mimeType s mime : String) :
    thumbnailManagerGetHandler (thumbnailManagerIHave m mimeType) s mime = thumbnailManagerGetHandler m s mime := by
  rw [thumbnailManagerGetHandler, handlers_iHave, thumbnailManagerGetHandler]

theorem getPlugin_unregister (plugin : GModule) (s mime : String) :
    getPlugin (thumbnailerUnregisterPlugin t plugin) s mime ≠ none ↔
      ∃ other, getPlugin t s mime = some other ∧ other ≠ plugin := by
  rw [getPlugin_ne_none, registration_unregister, getPlugin]
  cases t.pluginsPerscheme.registration s mime with
  | none => simp
  | some reg => by_cases hp : reg.plugin = plugin <;> simp [hp]

theorem getHandler_enter_ne_none [DBusGlib] (m : ThumbnailManager) (call : RegisterCall) (s : String) :
    thumbnailManagerGetHandler (call.enter m) s mime ≠ none ↔
      handlerKey s mime = call.key ∨ thumbnailManagerGetHandler m s mime ≠ none := by
  rw [thumbnailManagerGetHandler, RegisterCall.enter, thumbnailManagerAdd, KeyTable.lookup_insert_eq]
  split
  · next h => simp [h, dbusGProxyNewForName_eq]
  · next h => simp [h, thumbnailManagerGetHandler]

theorem getHandler_serviceGone (m : ThumbnailManager) (proxy : DBusGProxy) (s mime : String) :
    thumbnailManagerGetHandler (serviceGone m proxy) s mime ≠ none ↔
      ∃ other, thumbnailManagerGetHandler m s mime = some other ∧ other ≠ proxy := by
  rw [thumbnailManagerGetHandler, serviceGone, KeyTable.lookup_removeIf, thumbnailManagerGetHandler]
  rcases m.handlers.lookup (handlerKey s mime) with _ | _ | other
  · simp
  · simp [Option.filter_some]
  · by_cases ho : other = proxy <;> simp [Option.filter_some, ho]

theorem Stored.step [DBusGlib] (h : t.Stored) {e : SupportEvent} (hs : t.step e = some t') : t'.Stored := by
  obtain ⟨hplain, heq⟩ := Option.ite_none_right_eq_some.mp hs
  obtain rfl := Option.some.inj heq
  cases e with
  | registerPlugin mimeType plugin uriSchemes priority =>
    refine ⟨fun key value hl => h.handlers key value ?_, fun s mime hne => ?_⟩
    · exact (handlers_iHave t.manager mimeType) ▸ hl
    · refine (mem_thumberHas_iHave t.manager mimeType).mpr ?_
      rcases (getPlugin_register_ne_none mimeType plugin uriSchemes priority s).mp hne with ⟨_, hm⟩ | hne
      · exact .inl hm.symm
      · exact .inr (h.plugins s mime hne)
  | unregisterPlugin plugin =>
    refine ⟨h.handlers, fun s mime hne => h.plugins s mime ?_⟩
    obtain ⟨other, ho, _⟩ := (getPlugin_unregister plugin s mime).mp hne
    simp [ho]
  | register call =>
    refine ⟨fun key value hl => ?_, h.plugins⟩
    change (t.manager.handlers.insert call.key _).lookup key = some value at hl
    rw [KeyTable.lookup_insert_eq] at hl
    split at hl
    · next hk =>
      have hvalue := Option.some.inj hl
      exact ⟨call.uriScheme, call.mimeType, by simpa [SupportEvent.plain] using hplain, hk,
        by simp [← hvalue, dbusGProxyNewForName_eq]⟩
    · exact h.handlers key value hl
  | serviceGone proxy =>
    refine ⟨fun key value hl => h.handlers key value ?_, h.plugins⟩
    change (KeyTable.removeIf _ t.manager.handlers).lookup key = some value at hl
    rw [KeyTable.lookup_removeIf, Option.filter_eq_some_iff] at hl
    exact hl.1

theorem served_step [DBusGlib] (hserved : ∀ mime ∈ t.manager.thumberHas, t.Served mime) {e : SupportEvent}
    (hk : t.KeepsServed e) (hs : t.step e = some t') : ∀ mime ∈ t'.manager.thumberHas, t'.Served mime := by
  obtain ⟨hplain, heq⟩ := Option.ite_none_right_eq_some.mp hs
  obtain rfl := Option.some.inj heq
  intro mime hm
  cases e with
  | registerPlugin mimeType plugin uriSchemes priority =>
    have hmore (hold : t.Served mime) :
        (t.on (.registerPlugin mimeType plugin uriSchemes priority)).Served mime := by
      obtain ⟨s, hs, hne⟩ := hold
      refine ⟨s, hs, hne.imp (fun hh => ?_) fun hh => ?_⟩
      · exact (getHandler_iHave t.manager mimeType s mime).symm ▸ hh
      · exact (getPlugin_register_ne_none mimeType plugin uriSchemes priority s).mpr (.inr hh)
    rcases (mem_thumberHas_iHave t.manager mimeType).mp hm with rfl | hold
    · rcases hk with hschemes | hold
      · obtain ⟨s, hmem⟩ := List.exists_mem_of_ne_nil _ hschemes
        have hs : '-' ∉ s.toList := by
          simp only [SupportEvent.plain, List.all_eq_true, decide_eq_true_eq] at hplain
          exact hplain s hmem
        exact ⟨s, hs, .inr ((getPlugin_register_ne_none mime plugin uriSchemes priority s).mpr (.inl ⟨hmem, rfl⟩))⟩
      · exact hmore hold
    · exact hmore (hserved mime hold)
  | unregisterPlugin plugin =>
    obtain ⟨s, hs, hne⟩ := hk mime hm
    exact ⟨s, hs, hne.imp_right (getPlugin_unregister plugin s mime).mpr⟩
  | register call =>
    obtain ⟨s, hs, hne⟩ := hserved mime hm
    exact ⟨s, hs, hne.imp_left fun hh => (getHandler_enter_ne_none t.manager call s).mpr (.inr hh)⟩
  | serviceGone proxy =>
    obtain ⟨s, hs, hne⟩ := hk mime hm
    exact ⟨s, hs, hne.imp_left (getHandler_serviceGone t.manager proxy s mime).mpr⟩

theorem stored_init : init.Stored := by
  refine ⟨fun key value hl => ?_, fun s mime hne => absurd rfl hne⟩
  simp [init, thumbnailManagerInit] at hl

/-- With every announced type kept served, GetSupported is right in each state. -/
theorem getSupported_served [DBusGlib] (order : KeyTable.Order String) {events : List SupportEvent}
    {t : PluginTable}
    (hg : StepRun.Guarded step KeepsServed init events) (hrun : StepRun.run step init events = some t) :
    (thumbnailManagerGetSupported order t.manager).Nodup ∧
      ∀ mime, mime ∈ thumbnailManagerGetSupported order t.manager ↔ ∃ s : String, '-' ∉ s.toList ∧
        (thumbnailManagerGetHandler t.manager s mime ≠ none ∨ getPlugin t s mime ≠ none) := by
  have hinv : t.Stored ∧ ∀ mime ∈ t.manager.thumberHas, t.Served mime := by
    refine StepRun.guarded_invariant
      (P := fun t : PluginTable => t.Stored ∧ ∀ mime ∈ t.manager.thumberHas, t.Served mime)
      (fun u e u' hu hk hs => ⟨hu.1.step hs, served_step hu.2 hk hs⟩)
      ⟨stored_init, fun mime hm => nomatch hm⟩ hg hrun
  exact ⟨nodup_getSupported order t.manager, (hinv.1.supported_iff order).mpr hinv.2⟩

def pluginRegistered : List SupportEvent := [.registerPlugin "image/png" 1 ["file", "http"] 0]

/-- The plugin and one of two thumbnailers go, and each type keeps someone. -/
def twoGone : List SupportEvent :=
  [.registerPlugin "image/png" 1 ["file"] 0, .registerPlugin "image/png" 2 ["http"] 0,
    .register ⟨"file", "image/gif", ":1.5"⟩, .register ⟨"http", "image/gif", ":1.6"⟩, .unregisterPlugin 1,
    .serviceGone ⟨":1.5", "/:1/5", 0⟩]

theorem guarded_twoGone : StepRun.Guarded step KeepsServed init twoGone := by
  refine ⟨.inl (by simp), fun t ht => ?_⟩
  obtain rfl := Option.some.inj ht
  refine ⟨.inl (by simp), fun t ht => ?_⟩
  obtain rfl := Option.some.inj ht
  refine ⟨trivial, fun t ht => ?_⟩
  obtain rfl := Option.some.inj ht
  refine ⟨trivial, fun t ht => ?_⟩
  obtain rfl := Option.some.inj ht
  refine ⟨fun mime hm => ?_, fun t ht => ?_⟩
  · obtain rfl : mime = "image/png" := List.mem_singleton.mp hm
    exact ⟨"http", by decide, .inr ⟨2, by decide, by decide⟩⟩
  · obtain rfl := Option.some.inj ht
    refine ⟨fun mime hm => ?_, fun _ _ => trivial⟩
    obtain rfl : mime = "image/png" := List.mem_singleton.mp hm
    exact ⟨"http", by decide, .inr (by decide)⟩

theorem getSupported_served_plugin : ∃ t, StepRun.run step init twoGone = some t ∧
    (thumbnailManagerGetSupported (.stored String) t.manager).Nodup ∧
      ∀ mime, mime ∈ thumbnailManagerGetSupported (.stored String) t.manager ↔ ∃ s : String, '-' ∉ s.toList ∧
        (thumbnailManagerGetHandler t.manager s mime ≠ none ∨ getPlugin t s mime ≠ none) := by
  have hruns : ∃ t, StepRun.run step init twoGone = some t := ⟨_, rfl⟩
  obtain ⟨t, hrun⟩ := hruns
  exact ⟨t, hrun, getSupported_served (.stored String) guarded_twoGone hrun⟩

theorem getSupported_unregistered :
    ¬ ∀ (order : KeyTable.Order String) (events : List SupportEvent) (t : PluginTable),
    StepRun.run step init events = some t → (thumbnailManagerGetSupported order t.manager).Nodup ∧
      ∀ mime, mime ∈ thumbnailManagerGetSupported order t.manager ↔ ∃ s : String, '-' ∉ s.toList ∧
        (thumbnailManagerGetHandler t.manager s mime ≠ none ∨ getPlugin t s mime ≠ none) := by
  intro h
  have hruns : ∃ t u : PluginTable, StepRun.run step init (pluginRegistered ++ [.unregisterPlugin 1]) = some u ∧
      u = thumbnailerUnregisterPlugin t 1 ∧ t = thumbnailerRegisterPlugin init "image/png" 1 ["file", "http"] 0 ∧
        "image/png" ∈ thumbnailManagerGetSupported (.stored String) u.manager := ⟨_, _, rfl, rfl, rfl, by decide⟩
  obtain ⟨t, u, hrun, rfl, rfl, hmem⟩ := hruns
  obtain ⟨s, _, hne | hne⟩ := ((h (.stored String) _ _ hrun).2 "image/png").mp hmem
  · exact hne rfl
  · obtain ⟨other, hother, hne⟩ := (getPlugin_unregister 1 s "image/png").mp hne
    rw [getPlugin, registration_register] at hother
    split at hother
    · exact hne (Option.some.inj hother).symm
    · cases hother

end Steps

end PluginTable

end HildonThumbnail
