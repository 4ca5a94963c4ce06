import HildonThumbnail.Manager.Handlers

/-! The mutex of the thumbnail manager and the proxies whose "destroy" signal
`service_gone` is connected to (daemon/thumbnail-manager.c). A proxy emits the
signal within the call that drops its last reference. -/

namespace HildonThumbnail

/-- `g_hash_table_foreach_remove` with `do_remove_or_not`. -/
def serviceGone (m : ThumbnailManager) (proxy : DBusGProxy) : ThumbnailManager :=
  { m with handlers := KeyTable.removeIf (fun _ value => value == some proxy) m.handlers }

/-- `connected` lists the proxies with the handler, `held` the references that
others than the table have. -/
structure LockedManager where
  manager : ThumbnailManager
  locked : Bool
  connected : List Nat
  held : List Nat

namespace LockedManager

def init : LockedManager := ⟨thumbnailManagerInit, false, [], []⟩

/-- There is no result when the call chain has the mutex already. -/
def lock (s : LockedManager) : Option LockedManager :=
  if s.locked then none else some { s with locked := true }

def unlock (s : LockedManager) : LockedManager := { s with locked := false }

/-- The emission has a reference of its own, so no proxy is lost in here. -/
def serviceGone (s : LockedManager) (proxy : DBusGProxy) : Option LockedManager :=
  s.lock.map fun s => unlock { s with manager := HildonThumbnail.serviceGone s.manager proxy }

def destroy (s : LockedManager) (proxy : DBusGProxy) : Option LockedManager :=
  if proxy.id ∈ s.connected then s.serviceGone proxy else some s

/-- `g_hash_table_replace` drops the table's reference to the old value once the
new one is in its place. -/
def add [DBusGlib] (s : LockedManager) (key : String) (name : Option String) : Option LockedManager :=
  let old := (s.manager.handlers.lookup key).join
  let s := { s with manager := thumbnailManagerAdd s.manager key name }
  match old with
  | none => some s
  | some proxy => if proxy.id ∈ s.held then some s else s.destroy proxy

def connect (s : LockedManager) (proxy : Option DBusGProxy) : LockedManager :=
  { s with connected := (proxy.map DBusGProxy.id).toList ++ s.connected }

/-- The key's entry is a proxy that a Register call made and that nobody but the
table refers to. -/
def LosesRegistered (s : LockedManager) (key : String) : Prop :=
  ∃ proxy ∈ (s.manager.handlers.lookup key).join, proxy.id ∈ s.connected ∧ proxy.id ∉ s.held

instance (s : LockedManager) (key : String) : Decidable (s.LosesRegistered key) :=
  match h : (s.manager.handlers.lookup key).join with
  | none => isFalse fun ⟨proxy, hp, _⟩ => by simp [h] at hp
  | some proxy => decidable_of_iff (proxy.id ∈ s.connected ∧ proxy.id ∉ s.held) (by simp [LosesRegistered, h])

theorem lock_eq {s : LockedManager} (hs : s.locked = false) : s.lock = some { s with locked := true } := by
  simp [lock, hs]

theorem add_eq [DBusGlib] {s : LockedManager} (hs : s.locked = true) (key : String) (name : Option String) :
    s.add key name =
      if s.LosesRegistered key then none
      else some { s with manager := thumbnailManagerAdd s.manager key name } := by
  rw [add]
  cases hold : (s.manager.handlers.lookup key).join with
  | none => simp [LosesRegistered, hold]
  | some proxy =>
    have hloses : s.LosesRegistered key ↔ proxy.id ∈ s.connected ∧ proxy.id ∉ s.held := by
      simp [LosesRegistered, hold]
    by_cases hheld : proxy.id ∈ s.held
    · simp [hloses, hheld]
    · by_cases hc : proxy.id ∈ s.connected <;> simp [hloses, hheld, hc, destroy, serviceGone, lock, hs]

end LockedManager

end HildonThumbnail
