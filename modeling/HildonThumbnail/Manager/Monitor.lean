import HildonThumbnail.Lib.Run
import HildonThumbnail.Manager.Precedence

/-! The directory monitors that are meant to keep the handlers table up to
date (`on_dir_changed`), and what they make of it. -/

namespace HildonThumbnail

inductive Side
  | system
  | user
deriving DecidableEq

instance (p : Side → Prop) [DecidablePred p] : Decidable (∀ side, p side) :=
  decidable_of_iff (p .system ∧ p .user) ⟨fun h side => by cases side; exacts [h.1, h.2], fun h => ⟨h _, h _⟩⟩

/-- Both thumbnailer directories, with paths as lists of components. The files
in them are regular ones: no directory has the path of such a file. -/
structure ThumbnailerDirs where
  path : Side → List String
  dir : Side → Option Directory
  distinct : path .system ≠ path .user
  regular : ∀ side, ∀ d ∈ dir side, ∀ e ∈ d.entries, ∀ s, path side ++ [e.1] ≠ path s

/-- `g_dir_open`: it fails on the path of a regular file. -/
def ThumbnailerDirs.gDirOpen (t : ThumbnailerDirs) (path : List String) : Option Directory :=
  if path = t.path .system then t.dir .system else if path = t.path .user then t.dir .user else none

theorem ThumbnailerDirs.gDirOpen_path (t : ThumbnailerDirs) (side : Side) :
    t.gDirOpen (t.path side) = t.dir side := by
  cases side with
  | system => simp [gDirOpen]
  | user => simp [gDirOpen, t.distinct.symm]

theorem ThumbnailerDirs.gDirOpen_file (t : ThumbnailerDirs) {path : List String}
    (h : ∀ s, path ≠ t.path s) : t.gDirOpen path = none := by
  simp [gDirOpen, h]

/-- The order in which a directory lists its entries after a change. -/
structure Listing where
  arrange : List (String × DirFile) → List (String × DirFile)
  perm : ∀ l, (arrange l).Perm l

def Directory.write (d : Directory) (listing : Listing) (name : String) (file : DirFile) : Directory where
  entries := listing.arrange ((name, file) :: d.entries.filter fun e => e.1 ≠ name)
  nodup := by
    rw [((listing.perm _).map Prod.fst).nodup_iff, List.map_cons, List.nodup_cons]
    exact ⟨by simp, d.nodup.sublist (List.filter_sublist.map _)⟩

theorem Directory.mem_write {d : Directory} {listing : Listing} {name : String} {file : DirFile}
    {e : String × DirFile} (h : e ∈ (d.write listing name file).entries) :
    e = (name, file) ∨ e ∈ d.entries := by
  rw [Directory.write, (listing.perm _).mem_iff, List.mem_cons] at h
  exact h.imp_right List.mem_of_mem_filter

def ThumbnailerDirs.write (t : ThumbnailerDirs) (side : Side) (listing : Listing) (name : String)
    (file : DirFile) : Option ThumbnailerDirs :=
  match hd : t.dir side with
  | none => none
  | some d =>
    if hp : ∀ s, t.path side ++ [name] ≠ t.path s then
      some { t with
        dir := Function.update t.dir side (some (d.write listing name file))
        regular := by
          intro side' d' hd' e he s
          by_cases hs : side' = side
          · subst hs
            obtain rfl : d.write listing name file = d' := by simpa using hd'
            rcases Directory.mem_write he with rfl | he
            · exact hp s
            · exact t.regular side' d hd e he s
          · rw [Function.update_of_ne hs] at hd'
            exact t.regular side' d' hd' e he s }
    else none

inductive GFileMonitorEvent
  | changed
  | changesDoneHint
  | deleted
  | created
  | attributeChanged
  | preUnmount
  | unmounted

/-- `file` is the child that the monitor reports. The first path is
THUMBNAILERS_DIR. -/
def onDirChanged [DBusGlib] (order : KeyTable.Order String) (now : Nat) (t : ThumbnailerDirs) (m : ThumbnailManager)
    (file : List String) : GFileMonitorEvent → ThumbnailManager
  | .changed | .changesDoneHint | .deleted | .created =>
    let override := t.path .system == file
    thumbnailManagerCheckDir order now m (t.gDirOpen file) override
  | .attributeChanged | .preUnmount | .unmounted => m

structure Monitored where
  dirs : ThumbnailerDirs
  manager : ThumbnailManager

inductive MonitorLabel
  | write (side : Side) (listing : Listing) (name : String) (file : DirFile)
  | notify (side : Side) (name : String) (event : GFileMonitorEvent) (order : KeyTable.Order String) (now : Nat)

def Monitored.start [DBusGlib] (order : KeyTable.Order String) (now : Nat) (t : ThumbnailerDirs) : Monitored where
  dirs := t
  manager := thumbnailManagerCheck order now thumbnailManagerInit (t.gDirOpen (t.path .system))
    (t.gDirOpen (t.path .user))

/-- A monitor reports a file of its directory. -/
def Monitored.step [DBusGlib] (s : Monitored) : MonitorLabel → Option Monitored
  | .write side listing name file => (s.dirs.write side listing name file).map fun t => { s with dirs := t }
  | .notify side name event order now =>
    if ∃ d ∈ s.dirs.dir side, ∃ e ∈ d.entries, e.1 = name then
      some { s with manager := onDirChanged order now s.dirs s.manager (s.dirs.path side ++ [name]) event }
    else none

def ThumbnailerDirs.HasEntry (t : ThumbnailerDirs) (key : String) : Prop :=
  ∃ side, ∃ d ∈ t.dir side, d.HasEntry key

def ThumbnailerDirs.service (t : ThumbnailerDirs) (key : String) : Option String :=
  listedService (t.dir .system) (t.dir .user) key

/-- Every declared key has the service that a fresh check would give it. -/
def Monitored.InSync [DBusGlib] (s : Monitored) : Prop :=
  ∀ order now key, s.dirs.HasEntry key →
    handlerName s.manager key = handlerName (Monitored.start order now s.dirs).manager key

theorem Monitored.handlerName_start [DBusGlib] (order : KeyTable.Order String) (now : Nat) (t : ThumbnailerDirs)
    (key : String) : handlerName (Monitored.start order now t).manager key = t.service key := by
  rw [Monitored.start, t.gDirOpen_path, t.gDirOpen_path]
  exact handlerName_check order now _ _ key

/-- The child of a monitored directory cannot be opened as a directory, so a
report of it refreshes nothing. -/
theorem onDirChanged_file [DBusGlib] (order : KeyTable.Order String) (now : Nat) (t : ThumbnailerDirs)
    (m : ThumbnailManager) {side : Side} {d : Directory} {e : String × DirFile} (hd : d ∈ t.dir side)
    (he : e ∈ d.entries) (event : GFileMonitorEvent) :
    onDirChanged order now t m (t.path side ++ [e.1]) event = m := by
  have hopen := t.gDirOpen_file (t.regular side d hd e he)
  cases event <;> simp [onDirChanged, hopen, thumbnailManagerCheckDir]

theorem Monitored.manager_step [DBusGlib] {s s' : Monitored} {a : MonitorLabel} (h : s.step a = some s') :
    s'.manager = s.manager := by
  cases a with
  | write side listing name file =>
    obtain ⟨t, _, rfl⟩ := Option.map_eq_some_iff.mp h
    rfl
  | notify side name event order now =>
    obtain ⟨⟨d, hd, e, he, rfl⟩, h⟩ := Option.ite_none_right_eq_some.mp h
    obtain rfl := Option.some.inj h
    exact onDirChanged_file order now s.dirs s.manager hd he event

theorem Monitored.manager_run [DBusGlib] {s s' : Monitored} {labels : List MonitorLabel}
    (h : StepRun.run Monitored.step s labels = some s') : s'.manager = s.manager := by
  refine StepRun.run_relation (R := fun s s' => s'.manager = s.manager) (fun _ => rfl) ?_ ?_ h
  · intro s t u hst htu
    exact htu.trans hst
  · intro s a t hstep
    exact Monitored.manager_step hstep

/-- The table is as a fresh check would leave it exactly when no declared key
has another service now than the directories had for it at start-up. -/
theorem onDirChanged_inSync_iff [DBusGlib] (order : KeyTable.Order String) (now : Nat) (t : ThumbnailerDirs)
    (labels : List MonitorLabel) (s : Monitored)
    (h : StepRun.run Monitored.step (Monitored.start order now t) labels = some s) :
    s.InSync ↔ ∀ key, s.dirs.HasEntry key → s.dirs.service key = t.service key := by
  have hname (key : String) : handlerName s.manager key = t.service key := by
    rw [Monitored.manager_run h, Monitored.handlerName_start]
  simp only [Monitored.InSync, Monitored.handlerName_start, hname]
  constructor
  · exact fun hs key hk => (hs order now key hk).symm
  · exact fun hs _ _ key hk => (hs key hk).symm

def systemOnly (d : Directory) : ThumbnailerDirs where
  path := fun side => match side with
    | .system => ["usr", "share", "thumbnailers"]
    | .user => ["home", "user", ".local", "share", "thumbnailers"]
  dir := fun side => match side with
    | .system => some d
    | .user => some emptyDirectory
  distinct := by decide
  regular := by
    rintro (_ | _) d' hd e he (_ | _) hp <;> simp at hp

def Listing.stored : Listing := ⟨id, fun _ => .refl _⟩

def written (mtime : Nat) : List MonitorLabel :=
  [.write .system .stored "png.service" (serviceFile "org.Png" ["image/png"] mtime),
    .notify .system "png.service" .changed (.stored String) mtime]

def pngOnly : Directory := ⟨[("png.service", serviceFile "org.Png" ["image/png"] 1)], by decide⟩

theorem onDirChanged_not_inSync : ¬ ∀ (order : KeyTable.Order String) (now : Nat) (t : ThumbnailerDirs)
    (labels : List MonitorLabel) (s : Monitored),
    StepRun.run Monitored.step (Monitored.start order now t) labels = some s → s.InSync := by
  intro h
  have hs := h (.stored String) 0 (systemOnly emptyDirectory) (written 2) _ rfl (.stored String) 2
    "file-image/png" ⟨.system, _, rfl, .inr ⟨⟨"file", "image/png", "org.Png", 2⟩, by decide, by decide⟩⟩
  exact absurd hs (by decide)

theorem onDirChanged_inSync_pngOnly : ∃ s,
    StepRun.run Monitored.step (Monitored.start (.stored String) 0 (systemOnly pngOnly)) (written 2) =
      some s ∧ s.InSync := by
  refine ⟨_, rfl, (onDirChanged_inSync_iff (.stored String) 0 (systemOnly pngOnly) (written 2) _ rfl).mpr ?_⟩
  rintro key ⟨_ | _, d, hd, hkey⟩
  · obtain rfl := Option.some.inj hd
    obtain ⟨s, hs, rfl⟩ := (Directory.hasEntry_iff_declares rfl).mp hkey
    obtain rfl := List.mem_singleton.mp hs
    decide
  · obtain rfl := Option.some.inj hd
    obtain ⟨s, hs, rfl⟩ := (Directory.hasEntry_iff_declares rfl).mp hkey
    exact absurd hs List.not_mem_nil

end HildonThumbnail
