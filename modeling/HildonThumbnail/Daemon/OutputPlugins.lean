import HildonThumbnail.Daemon.Plugins
import HildonThumbnail.Lib.Run

/-! The output plugins of the daemon over its life: the list that every output
goes through (`hildon_thumbnail_outplugin_load` and `_unload` in
hildon-thumbnail-plugin.c), and the table by path that the start, the monitor and
the stop of the daemon keep (hildon-thumbnail-daemon.c). -/

namespace HildonThumbnail

/-- A path has the value NULL when its plugin could not be loaded at the start. -/
structure OutPluginState where
  outplugs : List GModule
  refs : GModule → Nat
  outregistrations : KeyTable String (Option GModule)

def outPluginInit : OutPluginState := ⟨[], fun _ => 0, ∅⟩

/-- A module that is loaded again has one more reference. -/
def hildonThumbnailOutpluginLoad (s : OutPluginState) : Option GModule → OutPluginState
  | none => s
  | some module =>
    { s with outplugs := module :: s.outplugs, refs := Function.update s.refs module (s.refs module + 1) }

/-- NULL has no symbols, is not in the list and is not closed. -/
def hildonThumbnailOutpluginUnload (s : OutPluginState) (resident : Bool) : Option GModule → OutPluginState
  | none => s
  | some module =>
    { s with
      outplugs := s.outplugs.erase module
      refs := if resident then s.refs else Function.update s.refs module (s.refs module - 1) }

@[simp] theorem outregistrations_load (s : OutPluginState) (load : Option GModule) :
    (hildonThumbnailOutpluginLoad s load).outregistrations = s.outregistrations := by
  cases load <;> rfl

@[simp] theorem outregistrations_unload (s : OutPluginState) (resident : Bool) (v : Option GModule) :
    (hildonThumbnailOutpluginUnload s resident v).outregistrations = s.outregistrations := by
  cases v <;> rfl

/-- No two entries of a directory have one name. -/
structure PluginDir where
  files : List (String × Option GModule)
  nodup : (files.map Prod.fst).Nodup

def initOutputplugin (dir : String) (s : OutPluginState) (file : String × Option GModule) : OutPluginState :=
  if isPluginFile file.1 then
    let loaded := hildonThumbnailOutpluginLoad s file.2
    { loaded with outregistrations := loaded.outregistrations.insert (pluginPath dir file.1) file.2 }
  else s

def initOutputplugins (dir : String) (listing : Option PluginDir) : OutPluginState :=
  match listing with
  | none => outPluginInit
  | some listing => listing.files.foldl (initOutputplugin dir) outPluginInit

inductive OutPluginEvent
  | created (path : String) (load : Option GModule)
  | deleted (path : String) (resident : Bool)
  | other (path : String)

def onOutputpluginChanged (s : OutPluginState) : OutPluginEvent → OutPluginState
  | .created path load =>
    if isPluginFile path then
      let loaded := hildonThumbnailOutpluginLoad s load
      match load with
      | none => loaded
      | some module => { loaded with outregistrations := loaded.outregistrations.insert path (some module) }
    else s
  | .deleted path resident =>
    if isPluginFile path then
      match s.outregistrations.lookup path with
      | some (some module) =>
        hildonThumbnailOutpluginUnload { s with outregistrations := s.outregistrations.erase path } resident
          (some module)
      | some none => s
      | none => s
    else s
  | .other _ => s

/-- The table is emptied in the order in which it is visited; `resident` are the
answers of the stop functions. -/
def stopOutputplugins (o : KeyTable.Order String) (resident : String → Bool) (s : OutPluginState) :
    OutPluginState :=
  { (o.visit s.outregistrations).foldl (fun s e => hildonThumbnailOutpluginUnload s (resident e.1) e.2) s with
    outregistrations := ∅ }

/-- The module whose entry a step gives to another, without unloading it. -/
def OutPluginState.overwritten (s : OutPluginState) : OutPluginEvent → List GModule
  | .created path (some _) => if isPluginFile path then (s.outregistrations.lookup path).join.toList else []
  | .created _ none => []
  | .deleted _ _ => []
  | .other _ => []

/-- The module that a step stops and leaves open. -/
def OutPluginState.stayed (s : OutPluginState) : OutPluginEvent → List GModule
  | .deleted path true => if isPluginFile path then (s.outregistrations.lookup path).join.toList else []
  | .deleted _ false => []
  | .created _ _ => []
  | .other _ => []

theorem pluginPath_injective {dir a b : String} (h : pluginPath dir a = pluginPath dir b) : a = b := by
  have hlist := congrArg String.toList h
  simp only [pluginPath, String.toList_append] at hlist
  exact String.toList_inj.mp (List.append_cancel_left hlist)

/-- How many paths of the table hold the module. -/
def holders (table : KeyTable String (Option GModule)) (module : GModule) : Nat :=
  table.tally fun v => v.toList.count module

theorem holders_erase (table : KeyTable String (Option GModule)) (path : String) (module : GModule) :
    holders (table.erase path) module + (table.lookup path).join.toList.count module = holders table module := by
  have hrest := KeyTable.tally_erase_add (fun v : Option GModule => v.toList.count module) table path
  rw [holders, holders, ← hrest]
  cases table.lookup path with
  | none => rfl
  | some old => cases old <;> rfl

theorem holders_insert (table : KeyTable String (Option GModule)) (path : String) (v : Option GModule)
    (module : GModule) :
    holders (table.insert path v) module + (table.lookup path).join.toList.count module =
      holders table module + v.toList.count module := by
  have hrest := holders_erase table path module
  rw [holders, KeyTable.tally_insert, ← hrest, holders]
  omega

namespace OutPluginState

/-- Each place in the list is that of a path or of an overwritten entry, and
each reference that of a place in the list or of a plugin that stays. -/
structure Balanced (s : OutPluginState) (overwritten stayed : List GModule) : Prop where
  listed : ∀ module, s.outplugs.count module = holders s.outregistrations module + overwritten.count module
  refs : ∀ module, s.refs module = s.outplugs.count module + stayed.count module

section Steps
variable {s : OutPluginState} {overwritten stayed : List GModule}

theorem refs_load (s : OutPluginState) (load : Option GModule) (module : GModule) :
    (hildonThumbnailOutpluginLoad s load).refs module = s.refs module + load.toList.count module ∧
      (hildonThumbnailOutpluginLoad s load).outplugs.count module = s.outplugs.count module +
        load.toList.count module := by
  cases load with
  | none => exact ⟨rfl, rfl⟩
  | some m =>
    by_cases h : module = m
    · simp [hildonThumbnailOutpluginLoad, h]
    · simp [hildonThumbnailOutpluginLoad, h, Ne.symm h]

/-- A module that has a place in the list and a reference for it gives both back, or only its place. -/
theorem refs_unload {v : Option GModule} (resident : Bool)
    (hlisted : ∀ module, v.toList.count module ≤ s.outplugs.count module)
    (hrefs : ∀ module, s.outplugs.count module ≤ s.refs module) (module : GModule) :
    (hildonThumbnailOutpluginUnload s resident v).outplugs.count module + v.toList.count module =
        s.outplugs.count module ∧
      (hildonThumbnailOutpluginUnload s resident v).refs module + (if resident then 0 else v.toList.count module) =
        s.refs module := by
  cases v with
  | none => cases resident <;> exact ⟨rfl, rfl⟩
  | some m =>
    have hm := hlisted m
    have hr := hrefs m
    rw [Option.toList_some, List.count_singleton_self] at hm
    by_cases h : module = m
    · subst h
      cases resident <;> simp [hildonThumbnailOutpluginUnload] <;> omega
    · cases resident <;> simp [hildonThumbnailOutpluginUnload, h, Ne.symm h]

theorem balanced_load (h : s.Balanced overwritten stayed) (path : String) (load : Option GModule) :
    ({ hildonThumbnailOutpluginLoad s load with outregistrations := s.outregistrations.insert path load } :
      OutPluginState).Balanced (overwritten ++ (s.outregistrations.lookup path).join.toList) stayed where
  listed module := by
    have hload := (refs_load s load module).2
    have hinsert := holders_insert s.outregistrations path load module
    have hlisted := h.listed module
    rw [List.count_append]
    dsimp only
    omega
  refs module := by
    have hload := refs_load s load module
    have hrefs := h.refs module
    dsimp only
    omega

theorem balanced_created (h : s.Balanced overwritten stayed) (path : String) (load : Option GModule) :
    (onOutputpluginChanged s (.created path load)).Balanced (overwritten ++ s.overwritten (.created path load))
      (stayed ++ s.stayed (.created path load)) := by
  cases load with
  | none =>
    have hsame : onOutputpluginChanged s (.created path none) = s := by
      simp [onOutputpluginChanged, hildonThumbnailOutpluginLoad]
    rw [hsame]
    simpa [OutPluginState.overwritten, OutPluginState.stayed] using h
  | some module =>
    by_cases hfile : isPluginFile path = true
    · have hstep : onOutputpluginChanged s (.created path (some module)) =
          { hildonThumbnailOutpluginLoad s (some module) with
            outregistrations := s.outregistrations.insert path (some module) } := by
        simp [onOutputpluginChanged, hfile]
      rw [hstep]
      simpa [OutPluginState.overwritten, OutPluginState.stayed, hfile] using balanced_load h path (some module)
    · simpa [onOutputpluginChanged, OutPluginState.overwritten, OutPluginState.stayed, hfile] using h

theorem balanced_deleted (h : s.Balanced overwritten stayed) (path : String) (resident : Bool) :
    (onOutputpluginChanged s (.deleted path resident)).Balanced
      (overwritten ++ s.overwritten (.deleted path resident))
      (stayed ++ s.stayed (.deleted path resident)) := by
  rw [OutPluginState.overwritten, List.append_nil]
  by_cases hfile : isPluginFile path = true
  · cases hpath : (s.outregistrations.lookup path).join with
    | none =>
      have hsame : onOutputpluginChanged s (.deleted path resident) = s := by
        rcases Option.join_eq_none_iff.mp hpath with hnone | hnull
        · simp [onOutputpluginChanged, hfile, hnone]
        · simp [onOutputpluginChanged, hfile, hnull]
      rw [hsame]
      cases resident <;> simpa [OutPluginState.stayed, hfile, hpath] using h
    | some m =>
      have hlookup : s.outregistrations.lookup path = some (some m) := Option.join_eq_some_iff.mp hpath
      have hstep : onOutputpluginChanged s (.deleted path resident) =
          hildonThumbnailOutpluginUnload { s with outregistrations := s.outregistrations.erase path } resident
            (some m) := by
        simp [onOutputpluginChanged, hfile, hlookup]
      have herase (module : GModule) := holders_erase s.outregistrations path module
      simp only [hpath] at herase
      have hunload :=
        refs_unload (s := { s with outregistrations := s.outregistrations.erase path }) (v := some m) resident
        (fun module => by have := herase module; have := h.listed module; dsimp only; omega)
        (fun module => by have := h.refs module; dsimp only; omega)
      rw [hstep]
      refine ⟨fun module => ?_, fun module => ?_⟩
      · have hcount := (hunload module).1
        have hlisted := h.listed module
        have hone := herase module
        rw [outregistrations_unload]
        dsimp only at hcount ⊢
        omega
      · have hcount := hunload module
        have hrefs := h.refs module
        have hone := herase module
        rw [List.count_append]
        cases resident
        · simp only [OutPluginState.stayed, List.count_nil, Bool.false_eq_true, if_false] at hcount ⊢
          omega
        · simp only [OutPluginState.stayed, hfile, hpath, if_true] at hcount ⊢
          omega
  · cases resident <;> simpa [onOutputpluginChanged, OutPluginState.stayed, hfile] using h

theorem balanced_step (h : s.Balanced overwritten stayed) (e : OutPluginEvent) :
    (onOutputpluginChanged s e).Balanced (overwritten ++ s.overwritten e) (stayed ++ s.stayed e) := by
  cases e with
  | created path load => exact balanced_created h path load
  | deleted path resident => exact balanced_deleted h path resident
  | other path => simpa [onOutputpluginChanged, OutPluginState.overwritten, OutPluginState.stayed] using h

theorem balanced_run (h : s.Balanced overwritten stayed) (events : List OutPluginEvent) :
    (events.foldl onOutputpluginChanged s).Balanced
      (overwritten ++ StepRun.gather onOutputpluginChanged OutPluginState.overwritten s events)
      (stayed ++ StepRun.gather onOutputpluginChanged OutPluginState.stayed s events) := by
  induction events generalizing s overwritten stayed with
  | nil => simpa [StepRun.gather] using h
  | cons e events ih =>
    have hrest := ih (balanced_step h e)
    rw [List.append_assoc, List.append_assoc] at hrest
    exact hrest

theorem balanced_scan (dir : String) (files : List (String × Option GModule)) (hnodup : (files.map Prod.fst).Nodup)
    (hnew : ∀ f ∈ files, s.outregistrations.lookup (pluginPath dir f.1) = none)
    (h : s.Balanced overwritten stayed) :
    (files.foldl (initOutputplugin dir) s).Balanced overwritten stayed := by
  induction files generalizing s with
  | nil => exact h
  | cons f files ih =>
    obtain ⟨hfirst, hnodup⟩ := List.nodup_cons.mp hnodup
    have hfree := hnew f List.mem_cons_self
    by_cases hfile : isPluginFile f.1 = true
    · have hstep : initOutputplugin dir s f =
          { hildonThumbnailOutpluginLoad s f.2 with
            outregistrations := s.outregistrations.insert (pluginPath dir f.1) f.2 } := by
        simp [initOutputplugin, hfile]
      rw [List.foldl_cons, hstep]
      refine ih hnodup (fun g hg => ?_) ?_
      · have hg' : g.1 ∈ files.map Prod.fst := List.mem_map_of_mem hg
        have hne : pluginPath dir g.1 ≠ pluginPath dir f.1 := by
          intro heq
          rw [pluginPath_injective heq] at hg'
          exact hfirst hg'
        dsimp only
        rw [AList.lookup_insert_ne hne]
        exact hnew g (List.mem_cons_of_mem f hg)
      · have hload := balanced_load h (pluginPath dir f.1) f.2
        rw [hfree] at hload
        simpa using hload
    · rw [List.foldl_cons, show initOutputplugin dir s f = s by simp [initOutputplugin, hfile]]
      exact ih hnodup (fun g hg => hnew g (List.mem_cons_of_mem f hg)) h

theorem balanced_start (dir : String) (listing : Option PluginDir) :
    (initOutputplugins dir listing).Balanced [] [] := by
  have hinit : outPluginInit.Balanced [] [] := ⟨fun _ => rfl, fun _ => rfl⟩
  cases listing with
  | none => exact hinit
  | some listing => exact balanced_scan dir listing.files listing.nodup (fun _ _ => rfl) hinit

/-- The modules that are stopped and stay open when the table is emptied. -/
def stoppedResident (resident : String → Bool) (entries : List (String × Option GModule)) : List GModule :=
  entries.flatMap fun e => if resident e.1 then e.2.toList else []

theorem refs_stop (resident : String → Bool) (entries : List (String × Option GModule))
    (hlisted : ∀ module, (entries.flatMap fun e => e.2.toList).count module ≤ s.outplugs.count module)
    (hrefs : ∀ module, s.outplugs.count module ≤ s.refs module) (module : GModule) :
    let stopped := entries.foldl (fun s e => hildonThumbnailOutpluginUnload s (resident e.1) e.2) s
    stopped.outplugs.count module + (entries.flatMap fun e => e.2.toList).count module = s.outplugs.count module ∧
      stopped.refs module + s.outplugs.count module =
        s.refs module + stopped.outplugs.count module + (stoppedResident resident entries).count module := by
  induction entries generalizing s with
  | nil => simp [stoppedResident]
  | cons e entries ih =>
    have hfirst : ∀ module, e.2.toList.count module ≤ s.outplugs.count module := by
      intro module
      have hall := hlisted module
      rw [List.flatMap_cons, List.count_append] at hall
      omega
    have hone := refs_unload (resident e.1) hfirst hrefs
    have hrest := @ih (hildonThumbnailOutpluginUnload s (resident e.1) e.2) (fun module => ?_) (fun module => ?_)
    · obtain ⟨hcount, hkept⟩ := hrest
      have hunload := hone module
      rw [List.foldl_cons, List.flatMap_cons, List.count_append, stoppedResident, List.flatMap_cons,
        List.count_append]
      rw [stoppedResident] at hkept
      cases hresident : resident e.1 <;>
        simp only [hresident, List.count_nil, Bool.false_eq_true, if_false, if_true] at * <;>
        constructor <;> omega
    · have hall := hlisted module
      have hunload := (hone module).1
      rw [List.flatMap_cons, List.count_append] at hall
      omega
    · have hunload := hone module
      have hopen := hrefs module
      split at hunload <;> omega

end Steps

end OutPluginState

/-- What a path holds after an event, by what it held before. -/
def entryAfter (path : String) (held : Option GModule) : OutPluginEvent → Option GModule
  | .created p (some module) => if p = path ∧ isPluginFile p then some module else held
  | .created _ none => held
  | .deleted p _ => if p = path ∧ isPluginFile p then none else held
  | .other _ => held

section Entries
variable {s : OutPluginState}

theorem join_lookup_step (path : String) (s : OutPluginState) (e : OutPluginEvent) :
    ((onOutputpluginChanged s e).outregistrations.lookup path).join =
      entryAfter path (s.outregistrations.lookup path).join e := by
  cases e with
  | created p load =>
    cases load with
    | none => simp [onOutputpluginChanged, entryAfter, hildonThumbnailOutpluginLoad]
    | some module =>
      by_cases hfile : isPluginFile p = true
      · by_cases hp : p = path
        · subst hp
          simp [onOutputpluginChanged, entryAfter, hfile]
        · have hne : path ≠ p := Ne.symm hp
          simp [onOutputpluginChanged, entryAfter, hfile, hp, AList.lookup_insert_ne hne]
      · simp [onOutputpluginChanged, entryAfter, hfile]
  | deleted p resident =>
    by_cases hfile : isPluginFile p = true
    · by_cases hp : p = path
      · subst hp
        cases hlookup : s.outregistrations.lookup p with
        | none => simp [onOutputpluginChanged, entryAfter, hfile, hlookup]
        | some held => cases held <;> simp [onOutputpluginChanged, entryAfter, hfile, hlookup]
      · have hne : path ≠ p := Ne.symm hp
        cases hlookup : s.outregistrations.lookup p with
        | none => simp [onOutputpluginChanged, entryAfter, hfile, hp, hlookup]
        | some held =>
          cases held <;> simp [onOutputpluginChanged, entryAfter, hfile, hp, hlookup, AList.lookup_erase_ne hne]
    · simp [onOutputpluginChanged, entryAfter, hfile]
  | other p => rfl

theorem join_lookup_run (path : String) (events : List OutPluginEvent) (s : OutPluginState) :
    ((events.foldl onOutputpluginChanged s).outregistrations.lookup path).join =
      events.foldl (entryAfter path) (s.outregistrations.lookup path).join := by
  induction events generalizing s with
  | nil => rfl
  | cons e events ih => rw [List.foldl_cons, List.foldl_cons, ih, join_lookup_step]

end Entries

end HildonThumbnail
