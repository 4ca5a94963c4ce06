import HildonThumbnail.Lib.KeyTable

/-! The table of specialised thumbnailers kept by the thumbnail manager
(daemon/thumbnail-manager.c). -/

namespace HildonThumbnail

/-- A proxy object. `id` is its address: two proxies for one name differ in it. -/
structure DBusGProxy where
  busName : String
  path : String
  id : Nat
deriving DecidableEq, Repr

/-- `handlers` may store a NULL pointer, which a lookup does not tell from an
absent key. `proxies` counts the proxy objects made so far. -/
structure ThumbnailManager where
  handlers : KeyTable String (Option DBusGProxy)
  thumberHas : List String
  proxies : Nat

def thumbnailManagerInit : ThumbnailManager := ⟨∅, [], 0⟩

def handlerKey (uriScheme mimeType : String) : String := uriScheme ++ "-" ++ mimeType

def thumbnailManagerGetHandler (m : ThumbnailManager) (uriScheme mimeType : String) :
    Option DBusGProxy :=
  (m.handlers.lookup (handlerKey uriScheme mimeType)).join

def proxyPath (name : String) : String :=
  "/" ++ String.ofList (name.toList.map fun c => if c = '.' then '/' else c)

/-- The constructor of dbus-glib. The manager relies on it for a proxy, also where
the path is no object path, as "/:1/7" for the unique name ":1.7". -/
class DBusGlib where
  newForName : String → String → Nat → Option DBusGProxy
  gives : ∀ name path id, newForName name path id = some ⟨name, path, id⟩

/-- `dbus_g_proxy_new_for_name` gives NULL for a NULL name. -/
def dbusGProxyNewForName [DBusGlib] (m : ThumbnailManager) (name : Option String) : Option DBusGProxy :=
  name.bind fun n => DBusGlib.newForName n (proxyPath n) m.proxies

def thumbnailManagerAdd [DBusGlib] (m : ThumbnailManager) (mimeType : String) (name : Option String) :
    ThumbnailManager :=
  { m with
    handlers := m.handlers.insert mimeType (dbusGProxyNewForName m name)
    proxies := m.proxies + 1 }

def thumbnailManagerIHave (m : ThumbnailManager) (mimeType : String) : ThumbnailManager :=
  if mimeType ∈ m.thumberHas then m else { m with thumberHas := mimeType :: m.thumberHas }

def handlerName (m : ThumbnailManager) (key : String) : Option String :=
  (m.handlers.lookup key).join.map DBusGProxy.busName

@[simp] theorem handlerName_init (key : String) : handlerName thumbnailManagerInit key = none := rfl

/-- A constructor that looks at the name alone. -/
instance : DBusGlib := ⟨fun name path id => some ⟨name, path, id⟩, fun _ _ _ => rfl⟩

theorem dbusGProxyNewForName_eq [DBusGlib] (m : ThumbnailManager) (name : Option String) :
    dbusGProxyNewForName m name = name.map fun n => ⟨n, proxyPath n, m.proxies⟩ := by
  cases name with
  | none => rfl
  | some n => exact DBusGlib.gives n (proxyPath n) m.proxies

theorem handlerName_add [DBusGlib] (m : ThumbnailManager) (key : String) (name : Option String) (j : String) :
    handlerName (thumbnailManagerAdd m key name) j = if j = key then name else handlerName m j := by
  simp only [handlerName, thumbnailManagerAdd, dbusGProxyNewForName_eq, KeyTable.lookup_insert_eq]
  split
  · cases name <;> rfl
  · rfl

end HildonThumbnail
