import HildonThumbnail.Lib.Run
import HildonThumbnail.Manager.Register
import HildonThumbnail.Manager.ScanOrder

/-! When the thumbnail manager gets to the end of a run without taking its mutex
twice (daemon/thumbnail-manager.c). -/

namespace HildonThumbnail

inductive ManagerEvent
  | register (call : RegisterCall)
  | scan (order : KeyTable.Order String) (now : Nat) (dir : Option Directory) (override : Bool)
  | serviceLost (proxy : DBusGProxy)
  | getHandler (uriScheme mimeType : String)
  | unref (proxy : DBusGProxy)

/-- The test in the loop over `pre` that decides whether the entry is added. -/
def entersHandler (override : Bool) (m : ThumbnailManager) (e : String × ValueInfo) : Bool :=
  let oname := if !e.2.prio && !override then handlerName m e.1 else none
  match oname with
  | none => true
  | some oname => !gAsciiStrcasecmpEq (e.2.name.getD "") oname

theorem enterHandler_eq [DBusGlib] (override : Bool) (m : ThumbnailManager) (e : String × ValueInfo) :
    enterHandler override m e =
      if entersHandler override m e then thumbnailManagerAdd m e.1 e.2.name else m := by
  rw [enterHandler, entersHandler]
  cases if !e.2.prio && !override then handlerName m e.1 else none with
  | none => rfl
  | some oname => cases hc : gAsciiStrcasecmpEq (e.2.name.getD "") oname <;> simp [hc]

namespace LockedManager

def enter [DBusGlib] (override : Bool) (s : LockedManager) (e : String × ValueInfo) : Option LockedManager :=
  if entersHandler override s.manager e then s.add e.1 e.2.name else some s

def enterAll [DBusGlib] (override : Bool) : LockedManager → List (String × ValueInfo) → Option LockedManager :=
  StepRun.run (enter override)

def scan [DBusGlib] (s : LockedManager) (order : KeyTable.Order String) (now : Nat) (dir : Option Directory)
    (override : Bool) : Option LockedManager :=
  s.lock.bind fun s =>
    match dir with
    | none => some s.unlock
    | some d => (s.enterAll override (order.visit (checkDirPre now d))).map unlock

def referenced (s : LockedManager) (proxy : DBusGProxy) : Bool :=
  decide (proxy.id ∈ s.held) || s.manager.handlers.entries.any fun e => e.2 = some proxy

def unref (s : LockedManager) (proxy : DBusGProxy) : Option LockedManager :=
  let s := { s with held := s.held.erase proxy.id }
  if s.referenced proxy then some s else s.destroy proxy

def ref (s : LockedManager) (proxy : DBusGProxy) : LockedManager := { s with held := proxy.id :: s.held }

/-- The name's owner is gone: the proxy emits the signal if it is still there. -/
def serviceLost (s : LockedManager) (proxy : DBusGProxy) : Option LockedManager :=
  if s.referenced proxy then ((s.ref proxy).destroy proxy).bind fun s => s.unref proxy else some s

def getHandler (s : LockedManager) (uriScheme mimeType : String) : Option LockedManager :=
  s.lock.map fun s =>
    match thumbnailManagerGetHandler s.manager uriScheme mimeType with
    | none => s.unlock
    | some proxy => (s.ref proxy).unlock

def step [DBusGlib] (s : LockedManager) : ManagerEvent → Option LockedManager
  | .register call => thumbnailManagerRegister s call
  | .scan order now dir override => s.scan order now dir override
  | .serviceLost proxy => s.serviceLost proxy
  | .getHandler uriScheme mimeType => s.getHandler uriScheme mimeType
  | .unref proxy => if proxy.id ∈ s.held then s.unref proxy else some s

/-- The entries that the event replaces are not such. -/
def KeepsRegistered (s : LockedManager) : ManagerEvent → Prop
  | .register call => ¬ s.LosesRegistered call.key
  | .scan _ now dir override => ∀ d ∈ dir, ∀ key v, (checkDirPre now d).lookup key = some v →
      entersHandler override s.manager (key, v) → ¬ s.LosesRegistered key
  | .serviceLost _ | .getHandler _ _ | .unref _ => True

theorem enter_eq [DBusGlib] {s : LockedManager} (hs : s.locked = true) (override : Bool) (e : String × ValueInfo) :
    enter override s e =
      if entersHandler override s.manager e ∧ s.LosesRegistered e.1 then none
      else some { s with manager := enterHandler override s.manager e } := by
  rw [enter, enterHandler_eq]
  by_cases he : entersHandler override s.manager e = true
  · simp only [he, if_true, true_and]
    exact add_eq hs e.1 e.2.name
  · simp [he]

theorem lookup_enterHandler_of_ne [DBusGlib] (override : Bool) (m : ThumbnailManager) {e : String × ValueInfo}
    {key : String}
    (h : key ≠ e.1) : (enterHandler override m e).handlers.lookup key = m.handlers.lookup key := by
  rw [enterHandler_eq]
  split
  · rw [thumbnailManagerAdd, KeyTable.lookup_insert_eq, if_neg h]
  · rfl

theorem entersHandler_enterHandler_of_ne [DBusGlib] (override : Bool) (m : ThumbnailManager)
    {e e' : String × ValueInfo}
    (h : e'.1 ≠ e.1) :
    entersHandler override (enterHandler override m e) e' = entersHandler override m e' := by
  rw [entersHandler, entersHandler, handlerName_enter, if_neg h]

/-- The scan visits a key once, so what it finds there is what was there before
the scan. -/
theorem enterAll_eq [DBusGlib] {s : LockedManager} (hs : s.locked = true) (override : Bool)
    {l : List (String × ValueInfo)}
    (hnd : (l.map Prod.fst).Nodup) :
    enterAll override s l =
      if ∃ e ∈ l, entersHandler override s.manager e ∧ s.LosesRegistered e.1 then none
      else some { s with manager := l.foldl (enterHandler override) s.manager } := by
  induction l generalizing s with
  | nil => simp [enterAll]
  | cons e l ih =>
    obtain ⟨he, hnd⟩ := List.nodup_cons.mp hnd
    rw [enterAll, StepRun.run_cons, enter_eq hs]
    by_cases hloses : entersHandler override s.manager e ∧ s.LosesRegistered e.1
    · rw [if_pos hloses, if_pos ⟨e, List.mem_cons_self, hloses⟩, Option.bind_none]
    · let t : LockedManager := { s with manager := enterHandler override s.manager e }
      have hsame : (∃ e' ∈ l, entersHandler override t.manager e' ∧ t.LosesRegistered e'.1) ↔
          ∃ e' ∈ e :: l, entersHandler override s.manager e' ∧ s.LosesRegistered e'.1 := by
        have hrest (e' : String × ValueInfo) (he' : e' ∈ l) :
            (entersHandler override t.manager e' ∧ t.LosesRegistered e'.1) ↔
              entersHandler override s.manager e' ∧ s.LosesRegistered e'.1 := by
          have hne : e'.1 ≠ e.1 := by
            intro heq
            exact he (heq ▸ List.mem_map_of_mem he')
          rw [entersHandler_enterHandler_of_ne override s.manager hne, LosesRegistered,
            lookup_enterHandler_of_ne override s.manager hne]
          rfl
        constructor
        · rintro ⟨e', he', h⟩
          exact ⟨e', List.mem_cons_of_mem e he', (hrest e' he').mp h⟩
        · rintro ⟨e', he', h⟩
          rcases List.mem_cons.mp he' with rfl | he'
          · exact absurd h hloses
          · exact ⟨e', he', (hrest e' he').mpr h⟩
      rw [if_neg hloses, Option.bind_some, List.foldl_cons]
      refine (ih (s := t) hs hnd).trans ?_
      simp only [hsame]
      rfl

theorem scan_eq [DBusGlib] {s : LockedManager} (hs : s.locked = false) (order : KeyTable.Order String) (now : Nat)
    (dir : Option Directory) (override : Bool) (h : s.KeepsRegistered (.scan order now dir override)) :
    s.scan order now dir override =
      some { s with manager := thumbnailManagerCheckDir order now s.manager dir override } := by
  rw [scan, lock_eq hs, Option.bind_some]
  cases dir with
  | none => simp [unlock, hs, thumbnailManagerCheckDir]
  | some d =>
    have hno : ¬ ∃ e ∈ order.visit (checkDirPre now d),
        entersHandler override s.manager e ∧ s.LosesRegistered e.1 := by
      rintro ⟨e, he, henters, hloses⟩
      exact h d rfl e.1 e.2 (order.mem_visit.mp he) henters hloses
    dsimp only
    rw [enterAll_eq rfl override (order.keys_nodup _)]
    refine (congrArg (Option.map unlock) (if_neg hno)).trans ?_
    simp [unlock, hs, thumbnailManagerCheckDir]

theorem scan_eq_none [DBusGlib] {s : LockedManager} (hs : s.locked = false)
    {order : KeyTable.Order String} {now : Nat}
    {dir : Option Directory} {override : Bool} (h : ¬ s.KeepsRegistered (.scan order now dir override)) :
    s.scan order now dir override = none := by
  rw [scan, lock_eq hs, Option.bind_some]
  simp only [KeepsRegistered, not_forall, not_not] at h
  obtain ⟨d, rfl, key, v, hv, henters, hloses⟩ := h
  dsimp only
  rw [enterAll_eq rfl override (order.keys_nodup _)]
  exact congrArg (Option.map unlock) (if_pos ⟨(key, v), order.mem_visit.mpr hv, henters, hloses⟩)

theorem destroy_unlocked {s : LockedManager} (hs : s.locked = false) (proxy : DBusGProxy) :
    ∃ t, s.destroy proxy = some t ∧ t.locked = false := by
  rw [destroy]
  split
  · rw [serviceGone, lock_eq hs, Option.map_some]
    exact ⟨_, rfl, rfl⟩
  · exact ⟨s, rfl, hs⟩

theorem unref_unlocked {s : LockedManager} (hs : s.locked = false) (proxy : DBusGProxy) :
    ∃ t, s.unref proxy = some t ∧ t.locked = false := by
  rw [unref]
  split
  · exact ⟨_, rfl, hs⟩
  · exact destroy_unlocked (s := { s with held := s.held.erase proxy.id }) hs proxy

theorem serviceLost_unlocked {s : LockedManager} (hs : s.locked = false) (proxy : DBusGProxy) :
    ∃ t, s.serviceLost proxy = some t ∧ t.locked = false := by
  rw [serviceLost]
  split
  · obtain ⟨t, ht, hlocked⟩ := destroy_unlocked (s := s.ref proxy) hs proxy
    rw [ht, Option.bind_some]
    exact unref_unlocked hlocked proxy
  · exact ⟨s, rfl, hs⟩

theorem getHandler_unlocked {s : LockedManager} (hs : s.locked = false) (uriScheme mimeType : String) :
    ∃ t, s.getHandler uriScheme mimeType = some t ∧ t.locked = false := by
  rw [getHandler, lock_eq hs, Option.map_some]
  split
  · exact ⟨_, rfl, rfl⟩
  · exact ⟨_, rfl, rfl⟩

theorem step_unlocked [DBusGlib] {s : LockedManager} (hs : s.locked = false) {event : ManagerEvent}
    (h : s.KeepsRegistered event) : ∃ t, s.step event = some t ∧ t.locked = false := by
  cases event with
  | register call => exact ⟨_, (register_eq hs call).trans (if_neg h), hs⟩
  | scan order now dir override => exact ⟨_, scan_eq hs order now dir override h, hs⟩
  | serviceLost proxy => exact serviceLost_unlocked hs proxy
  | getHandler uriScheme mimeType => exact getHandler_unlocked hs uriScheme mimeType
  | unref proxy =>
    rw [step]
    split
    · exact unref_unlocked hs proxy
    · exact ⟨s, rfl, hs⟩

theorem step_eq_none [DBusGlib] {s : LockedManager} (hs : s.locked = false) {event : ManagerEvent}
    (h : ¬ s.KeepsRegistered event) : s.step event = none := by
  cases event with
  | register call => exact (register_eq hs call).trans (if_pos (not_not.mp h))
  | scan order now dir override => exact scan_eq_none hs h
  | serviceLost proxy => exact absurd trivial h
  | getHandler uriScheme mimeType => exact absurd trivial h
  | unref proxy => exact absurd trivial h

end LockedManager

/-- No operation takes the mutex that its call chain has exactly when no event
replaces a registered proxy that only the table refers to. -/
theorem thumbnailManager_lockedOnce_iff [DBusGlib] (events : List ManagerEvent) :
    (StepRun.run LockedManager.step LockedManager.init events).isSome ↔
      StepRun.Guarded LockedManager.step LockedManager.KeepsRegistered LockedManager.init events := by
  refine StepRun.run_isSome_iff (P := fun s => s.locked = false) ?_ ?_ rfl events
  · intro s event t hs hstep
    by_cases h : s.KeepsRegistered event
    · obtain ⟨u, hu, hlocked⟩ := LockedManager.step_unlocked hs h
      rw [hu] at hstep
      exact Option.some.inj hstep ▸ hlocked
    · rw [LockedManager.step_eq_none hs h] at hstep
      cases hstep
  · intro s event hs
    constructor
    · intro hsome
      by_contra h
      rw [LockedManager.step_eq_none hs h] at hsome
      cases hsome
    · intro h
      obtain ⟨t, ht, _⟩ := LockedManager.step_unlocked hs h
      rw [ht, Option.isSome_some]

theorem thumbnailManager_lockedOnce_two : (StepRun.run LockedManager.step LockedManager.init
    [.register ⟨"file", "image/png", ":1.5"⟩, .register ⟨"http", "image/png", ":1.5"⟩]).isSome := by
  refine (thumbnailManager_lockedOnce_iff _).mpr ⟨?_, fun s hs => ⟨?_, fun _ _ => trivial⟩⟩
  · show ¬ LockedManager.init.LosesRegistered _
    decide
  · obtain rfl := Option.some.inj hs
    show ¬ LockedManager.LosesRegistered _ _
    decide

theorem thumbnailManager_not_lockedOnce : ¬ ∀ events : List ManagerEvent,
    (StepRun.run LockedManager.step LockedManager.init events).isSome := by
  intro h
  let call : RegisterCall := ⟨"file", "image/png", ":1.5"⟩
  have hrun := h [.register call, .register call]
  have hfirst := register_eq (s := LockedManager.init) rfl call
  rw [if_neg (by rintro ⟨proxy, hp, _⟩; simp [LockedManager.init, thumbnailManagerInit] at hp)] at hfirst
  simp only [StepRun.run_cons, LockedManager.step, hfirst, Option.bind_some] at hrun
  rw [register_eq rfl, if_pos] at hrun
  · cases hrun
  · refine ⟨⟨":1.5", proxyPath ":1.5", 0⟩, ?_, List.mem_cons_self, List.not_mem_nil⟩
    show ((thumbnailManagerInit.handlers.insert call.key _).lookup call.key).join = _
    rw [AList.lookup_insert]
    rfl

end HildonThumbnail
