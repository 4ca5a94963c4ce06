import HildonThumbnail.Cache.Files

/-! Who owns the command strings of the exec plugin: the table `execs`, and
`hildon_thumbnail_plugin_create` in daemon/plugins/exec-plugin.c, which frees what it
looks up. A result of `none` is a use of memory that is not there. -/

namespace HildonThumbnail

namespace ExecPlugin

/-- The strings that are alive, by their addresses. -/
abbrev Heap := Nat → Option String

def gFree (heap : Heap) (a : Nat) : Option Heap := (heap a).map fun _ => Function.update heap a none

/-- The table from content types to commands, NULL for a type without one. It owns its strings:
each is alive, and no two types have the same one. -/
structure Execs where
  heap : Heap
  table : KeyTable String (Option Nat)
  alive : ∀ m a, table.lookup m = some (some a) → (heap a).isSome = true
  apart : ∀ m n a, table.lookup m = some (some a) → table.lookup n = some (some a) → m = n

def Execs.command (e : Execs) (contentType : String) : Option String :=
  (e.table.lookup contentType).join.bind e.heap

/-- The other variables of the plugin, and what names the thumbnails. -/
structure Settings where
  env : CacheEnv
  doCropped : Bool
  doPngs : Bool

/-- A URI and what can be queried of its file. -/
structure Item where
  uri : String
  info : Except String (String × UInt64)

def Item.contentType (item : Item) : Option String :=
  match item.info with
  | .ok (contentType, _) => some contentType
  | .error _ => none

/-- What `string_replace` is called with. -/
structure Expansion where
  exec : String
  uri : String
  paths : ThumbPaths
  mimeType : String
  mimeTypeAt : String
  cropping : Bool
  mtime : UInt32

/-- The first slash is overwritten. -/
def slashToAt : List Char → List Char
  | [] => []
  | c :: rest => if c = '/' then '@' :: rest else c :: slashToAt rest

def expansion (settings : Settings) (uri contentType : String) (mtime : UInt64) (exec : String) : Expansion where
  exec := exec
  uri := uri
  paths := hildonThumbnailUtilGetThumbPaths settings.env uri settings.doPngs
  mimeType := contentType
  mimeTypeAt := String.ofList (slashToAt contentType.toList)
  cropping := settings.doCropped
  mtime := mtime.toUInt32

structure Creating where
  heap : Heap
  expanded : List Expansion
  failed : List String
  errors : String

def createStep (settings : Settings) (table : KeyTable String (Option Nat)) (s : Creating) (item : Item) :
    Option Creating :=
  match item.info with
  | .error message =>
    some { s with
      failed := item.uri :: s.failed
      errors := s.errors ++ "[`" ++ item.uri ++ "': " ++ message ++ "] " }
  | .ok (contentType, mtime) =>
    -- the lookup gives NULL for a type without a command, too
    (table.lookup contentType).join.bind fun exec =>
      (s.heap exec).bind fun command =>
        (gFree s.heap exec).map fun heap =>
          { s with heap := heap, expanded := s.expanded ++ [expansion settings item.uri contentType mtime command] }

/-- What a call leaves behind: the strings, all that was expanded so far, and the failed URIs
with the message of the error. -/
structure Created where
  heap : Heap
  expanded : List Expansion
  failed : Option (List String × String)

def pluginCreate (settings : Settings) (table : KeyTable String (Option Nat)) (heap : Heap)
    (expanded : List Expansion) (uris : List Item) : Option Created :=
  (uris.foldlM (createStep settings table) ⟨heap, expanded, [], ""⟩).map fun s =>
    ⟨s.heap, s.expanded, if s.failed = [] then none else some (s.failed, s.errors)⟩

def createCalls (settings : Settings) (table : KeyTable String (Option Nat)) :
    List (List Item) → Heap → List Expansion → Option (Heap × List Expansion)
  | [], heap, expanded => some (heap, expanded)
  | uris :: calls, heap, expanded =>
    (pluginCreate settings table heap expanded uris).bind fun created =>
      createCalls settings table calls created.heap created.expanded

def contentTypes (uris : List Item) : List String := uris.filterMap Item.contentType

def Item.configured (settings : Settings) (e : Execs) (item : Item) : Option Expansion :=
  match item.info with
  | .ok (contentType, mtime) => (e.command contentType).map (expansion settings item.uri contentType mtime)
  | .error _ => none

def configured (settings : Settings) (e : Execs) (uris : List Item) : List Expansion :=
  uris.filterMap (Item.configured settings e)

def Known (e : Execs) (uris : List Item) : Prop := ∀ m ∈ contentTypes uris, (e.table.lookup m).isSome = true

/-- The strings of some types are gone and the others are as they were. -/
def FreedFor (e : Execs) (used : List String) (heap : Heap) : Prop :=
  ∀ m a, e.table.lookup m = some (some a) → heap a = if m ∈ used then none else e.heap a

/-- Each type has a command, which no type before it has used. -/
def Fresh (e : Execs) (used types : List String) : Prop :=
  types.Nodup ∧ ∀ m ∈ types, m ∉ used ∧ (e.command m).isSome = true

section Runs
variable {settings : Settings} {e : Execs} {used : List String} {s : Creating} {item : Item} {uris : List Item}

theorem fresh_nil : Fresh e used [] := ⟨List.nodup_nil, fun _ hm => nomatch hm⟩

theorem fresh_cons {m : String} {types : List String} :
    Fresh e used (m :: types) ↔ (m ∉ used ∧ (e.command m).isSome = true) ∧ Fresh e (used ++ [m]) types := by
  simp only [Fresh, List.nodup_cons, List.mem_cons, List.mem_append, List.not_mem_nil, or_false, not_or]
  constructor
  · rintro ⟨⟨hm, hnodup⟩, hused⟩
    refine ⟨hused m (.inl rfl), hnodup, fun n hn => ⟨⟨(hused n (.inr hn)).1, ?_⟩, (hused n (.inr hn)).2⟩⟩
    rintro rfl
    exact hm hn
  · rintro ⟨hm, hnodup, hused⟩
    refine ⟨⟨fun hin => (hused m hin).1.2 rfl, hnodup⟩, ?_⟩
    rintro n (rfl | hn)
    · exact hm
    · exact ⟨(hused n hn).1.1, (hused n hn).2⟩

theorem fresh_append {xs ys : List String} :
    Fresh e used (xs ++ ys) ↔ Fresh e used xs ∧ Fresh e (used ++ xs) ys := by
  induction xs generalizing used with
  | nil => simp [fresh_nil]
  | cons x xs ih =>
    rw [List.cons_append, fresh_cons, ih, fresh_cons, List.append_assoc, List.singleton_append]
    exact and_assoc.symm

theorem Execs.command_eq_some_iff {m command : String} :
    e.command m = some command ↔ ∃ a, e.table.lookup m = some (some a) ∧ e.heap a = some command := by
  simp only [Execs.command, Option.bind_eq_some_iff, Option.join_eq_some_iff]

theorem FreedFor.free {heap : Heap} (h : FreedFor e used heap) {m : String} {a : Nat}
    (ha : e.table.lookup m = some (some a)) : FreedFor e (used ++ [m]) (Function.update heap a none) := by
  intro n b hb
  by_cases hba : b = a
  · subst hba
    obtain rfl := e.apart m n b ha hb
    simp
  · have hne : n ≠ m := by
      rintro rfl
      exact hba (Option.some.inj (Option.some.inj (hb.symm.trans ha)))
    rw [Function.update_of_ne hba, h n b hb]
    simp [hne]

theorem createStep_error (settings : Settings) (e : Execs) (s : Creating) {message : String}
    (h : item.info = .error message) :
    ∃ s', createStep settings e.table s item = some s' ∧ s'.heap = s.heap ∧ s'.expanded = s.expanded := by
  rw [createStep, h]
  exact ⟨_, rfl, rfl, rfl⟩

/-- The first URI of a type gets its command, and takes it away. -/
theorem createStep_fresh (settings : Settings) {m command : String} {mtime : UInt64}
    (hinfo : item.info = .ok (m, mtime)) (hcommand : e.command m = some command) (h : FreedFor e used s.heap)
    (hm : m ∉ used) :
    ∃ s', createStep settings e.table s item = some s' ∧ FreedFor e (used ++ [m]) s'.heap ∧
      s'.expanded = s.expanded ++ [expansion settings item.uri m mtime command] := by
  obtain ⟨a, ha, hat⟩ := Execs.command_eq_some_iff.mp hcommand
  have hlive : s.heap a = some command := by rw [h m a ha, if_neg hm, hat]
  refine ⟨⟨Function.update s.heap a none, s.expanded ++ [expansion settings item.uri m mtime command],
    s.failed, s.errors⟩, ?_, h.free ha, rfl⟩
  rw [createStep, hinfo]
  simp [ha, hlive, gFree]

theorem createStep_used {m : String} {mtime : UInt64} (hinfo : item.info = .ok (m, mtime))
    (h : FreedFor e used s.heap) (hm : ¬ (m ∉ used ∧ (e.command m).isSome = true)) :
    createStep settings e.table s item = none := by
  rw [createStep, hinfo]
  cases ha : (e.table.lookup m).join with
  | none => simp [ha]
  | some a =>
    rw [Option.join_eq_some_iff] at ha
    have hcommand : (e.command m).isSome = true := by
      rw [Execs.command, ha, Option.join_some, Option.bind_some]
      exact e.alive m a ha
    have hgone : s.heap a = none := by
      rw [h m a ha, if_pos]
      by_contra hnot
      exact hm ⟨hnot, hcommand⟩
    simp [ha, hgone]

theorem contentTypes_cons (item : Item) (uris : List Item) :
    contentTypes (item :: uris) = (item.contentType.elim [] fun m => [m]) ++ contentTypes uris := by
  rw [contentTypes, List.filterMap_cons]
  cases item.contentType <;> rfl

theorem configured_cons (item : Item) (uris : List Item) :
    configured settings e (item :: uris) =
      ((item.configured settings e).elim [] fun x => [x]) ++ configured settings e uris := by
  rw [configured, List.filterMap_cons]
  cases item.configured settings e <;> rfl

/-- The loop goes on to its end where no type comes twice, and expands what is configured. -/
theorem createLoop_spec (settings : Settings) (uris : List Item) (h : FreedFor e used s.heap) :
    (Fresh e used (contentTypes uris) → ∃ s', uris.foldlM (createStep settings e.table) s = some s' ∧
      FreedFor e (used ++ contentTypes uris) s'.heap ∧ s'.expanded = s.expanded ++ configured settings e uris) ∧
    (¬ Fresh e used (contentTypes uris) → uris.foldlM (createStep settings e.table) s = none) := by
  induction uris generalizing used s with
  | nil =>
    constructor
    · intro _
      refine ⟨s, rfl, ?_, (List.append_nil _).symm⟩
      rwa [show contentTypes [] = [] from rfl, List.append_nil]
    · intro hnot
      exact absurd fresh_nil hnot
  | cons item uris ih =>
    rw [List.foldlM_cons]
    cases hinfo : item.info with
    | error message =>
      have htype : item.contentType = none := by rw [Item.contentType, hinfo]
      have hconfigured : item.configured settings e = none := by rw [Item.configured, hinfo]
      obtain ⟨s', hstep, hheap, hexpanded⟩ := createStep_error settings e s hinfo
      have hspec := ih (s := s') (by rw [hheap]; exact h)
      rw [hexpanded] at hspec
      rw [contentTypes_cons, configured_cons, htype, hconfigured, hstep]
      exact hspec
    | ok pair =>
      obtain ⟨m, mtime⟩ := pair
      have htypes : contentTypes (item :: uris) = m :: contentTypes uris := by
        rw [contentTypes_cons, Item.contentType, hinfo]
        rfl
      rw [htypes, fresh_cons]
      by_cases hm : m ∉ used ∧ (e.command m).isSome = true
      · obtain ⟨command, hcommand⟩ := Option.isSome_iff_exists.mp hm.2
        obtain ⟨s', hstep, hfreed, hexpanded⟩ := createStep_fresh settings hinfo hcommand h hm.1
        have hconfigured : item.configured settings e = some (expansion settings item.uri m mtime command) := by
          rw [Item.configured, hinfo]
          simp [hcommand]
        have hspec := ih hfreed
        rw [hexpanded, List.append_assoc, List.append_assoc, List.singleton_append] at hspec
        rw [hstep, configured_cons, hconfigured, and_iff_right hm]
        exact hspec
      · rw [createStep_used hinfo h hm]
        constructor
        · intro hfresh
          exact absurd hfresh.1 hm
        · intro _
          rfl

/-- All calls together are as one: what one of them has freed stays freed. -/
theorem createCalls_spec (settings : Settings) (calls : List (List Item)) {heap : Heap}
    (h : FreedFor e used heap) (expanded : List Expansion) :
    (Fresh e used (contentTypes calls.flatten) → ∃ heap', createCalls settings e.table calls heap expanded =
        some (heap', expanded ++ configured settings e calls.flatten) ∧
      FreedFor e (used ++ contentTypes calls.flatten) heap') ∧
    (¬ Fresh e used (contentTypes calls.flatten) → createCalls settings e.table calls heap expanded = none) := by
  induction calls generalizing used heap expanded with
  | nil =>
    constructor
    · intro _
      refine ⟨heap, by rw [createCalls]; simp [configured], ?_⟩
      rwa [show contentTypes ([] : List (List Item)).flatten = [] from rfl, List.append_nil]
    · intro hnot
      exact absurd fresh_nil hnot
  | cons uris calls ih =>
    have htypes : contentTypes (uris :: calls).flatten = contentTypes uris ++ contentTypes calls.flatten := by
      rw [List.flatten_cons, contentTypes, List.filterMap_append]
      rfl
    have hconfigured : configured settings e (uris :: calls).flatten =
        configured settings e uris ++ configured settings e calls.flatten := by
      rw [List.flatten_cons, configured, List.filterMap_append]
      rfl
    obtain ⟨hgoes, hstops⟩ := createLoop_spec settings uris (s := ⟨heap, expanded, [], ""⟩) h
    rw [htypes, fresh_append, hconfigured, createCalls, pluginCreate]
    by_cases hfresh : Fresh e used (contentTypes uris)
    · obtain ⟨s', hrun, hfreed, hexpanded⟩ := hgoes hfresh
      have hspec := ih hfreed s'.expanded
      rw [hexpanded, List.append_assoc, List.append_assoc] at hspec
      rw [hrun, and_iff_right hfresh, Option.map_some, Option.bind_some, hexpanded]
      exact hspec
    · rw [hstops hfresh]
      exact ⟨fun hh => absurd hh.1 hfresh, fun _ => rfl⟩

end Runs

/-- The calls leave the table with the strings it had. -/
def KeepsTable (settings : Settings) (e : Execs) (calls : List (List Item)) : Prop :=
  ∃ heap expanded, createCalls settings e.table calls e.heap [] = some (heap, expanded) ∧
    ∀ m a, e.table.lookup m = some (some a) → heap a = e.heap a

def ExpandsConfigured (settings : Settings) (e : Execs) (calls : List (List Item)) : Prop :=
  ∃ heap, createCalls settings e.table calls e.heap [] = some (heap, configured settings e calls.flatten)

section Calls
variable {settings : Settings} {e : Execs} {calls : List (List Item)}

theorem freedFor_nil (e : Execs) : FreedFor e [] e.heap := by
  intro m a _
  rw [if_neg List.not_mem_nil]

theorem fresh_nil_iff {types : List String} :
    Fresh e [] types ↔ types.Nodup ∧ ∀ m ∈ types, (e.command m).isSome = true := by
  simp [Fresh]

theorem fresh_of_createCalls {run : Heap × List Expansion}
    (h : createCalls settings e.table calls e.heap [] = some run) : Fresh e [] (contentTypes calls.flatten) := by
  by_contra hnot
  rw [(createCalls_spec settings calls (freedFor_nil e) []).2 hnot] at h
  cases h

theorem expandsConfigured_iff : ExpandsConfigured settings e calls ↔
    (contentTypes calls.flatten).Nodup ∧ ∀ m ∈ contentTypes calls.flatten, (e.command m).isSome = true := by
  rw [← fresh_nil_iff]
  constructor
  · rintro ⟨heap, hrun⟩
    exact fresh_of_createCalls hrun
  · intro hfresh
    obtain ⟨heap, hrun, _⟩ := (createCalls_spec settings calls (freedFor_nil e) []).1 hfresh
    exact ⟨heap, hrun⟩

/-- The string of the first type is gone after its first URI. -/
theorem keepsTable_iff : KeepsTable settings e calls ↔ contentTypes calls.flatten = [] := by
  have hgoes := (createCalls_spec settings calls (freedFor_nil e) []).1
  constructor
  · rintro ⟨heap, expanded, hrun, hsame⟩
    have hfresh := fresh_of_createCalls hrun
    obtain ⟨heap', hrun', hfreed⟩ := hgoes hfresh
    obtain ⟨rfl, _⟩ := Prod.mk.inj (Option.some.inj (hrun.symm.trans hrun'))
    rw [List.eq_nil_iff_forall_not_mem]
    intro m hm
    obtain ⟨command, hcommand⟩ := Option.isSome_iff_exists.mp (hfresh.2 m hm).2
    obtain ⟨a, ha, halive⟩ := Execs.command_eq_some_iff.mp hcommand
    have hgone := hfreed m a ha
    rw [if_pos (List.mem_append_right _ hm), hsame m a ha, halive] at hgone
    cases hgone
  · intro hnone
    obtain ⟨heap, hrun, hfreed⟩ := hgoes (by rw [hnone]; exact fresh_nil)
    refine ⟨heap, _, hrun, ?_⟩
    intro m a ha
    rw [hfreed m a ha, hnone, List.append_nil, if_neg List.not_mem_nil]

/-- The table is left alone by calls without a single content type; the commands are right as
long as every content type has one and none comes a second time. -/
theorem createCalls_iff (settings : Settings) (e : Execs) (calls : List (List Item)) :
    (KeepsTable settings e calls ∧ ExpandsConfigured settings e calls ↔ contentTypes calls.flatten = []) ∧
      (ExpandsConfigured settings e calls ↔ (contentTypes calls.flatten).Nodup ∧
        ∀ m ∈ contentTypes calls.flatten, (e.command m).isSome = true) := by
  refine ⟨?_, expandsConfigured_iff⟩
  rw [keepsTable_iff, expandsConfigured_iff]
  constructor
  · rintro ⟨hnone, _⟩
    exact hnone
  · intro hnone
    rw [hnone]
    exact ⟨rfl, List.nodup_nil, fun _ hm => nomatch hm⟩

end Calls

def oneCommand : Execs where
  heap a := if a = 1 then some "convert" else none
  table := (∅ : KeyTable String (Option Nat)).insert "image/x-foo" (some 1)
  alive m a h := by
    rw [KeyTable.lookup_insert_eq, AList.lookup_empty] at h
    split at h
    · obtain rfl := Option.some.inj (Option.some.inj h)
      rfl
    · cases h
  apart m n a hm hn := by
    rw [KeyTable.lookup_insert_eq, AList.lookup_empty] at hm hn
    split at hm
    · next hmfoo =>
      split at hn
      · next hnfoo => rw [hmfoo, hnfoo]
      · cases hn
    · cases hm

def photo (uri : String) : Item := ⟨uri, .ok ("image/x-foo", 100)⟩

/-- The second photo of a group finds its command freed. -/
theorem createCalls_two : Known oneCommand [[photo "file:///a", photo "file:///b"]].flatten ∧
    ∀ settings, ¬ (KeepsTable settings oneCommand [[photo "file:///a", photo "file:///b"]] ∧
      ExpandsConfigured settings oneCommand [[photo "file:///a", photo "file:///b"]]) := by
  refine ⟨by unfold Known; decide, ?_⟩
  rintro settings ⟨_, hexpands⟩
  have hnodup := (expandsConfigured_iff.mp hexpands).1
  exact absurd hnodup (by decide)

/-- So does the second call. -/
example (settings : Settings) :
    ¬ ExpandsConfigured settings oneCommand [[photo "file:///a"], [photo "file:///b"]] := by
  intro hexpands
  exact absurd (expandsConfigured_iff.mp hexpands).1 (by decide)

end ExecPlugin

end HildonThumbnail
