import Mathlib.Data.List.Induction
import Mathlib.Data.List.MinMax
import HildonThumbnail.Thumbnailer.Plugins

/-! Which registration `get_plugin` gives after any sequence of registrations
and removals. -/

namespace HildonThumbnail

inductive PluginCall
  | register (mimeType : String) (plugin : GModule) (uriSchemes : List String) (priority : Int)
  | unregister (plugin : GModule)
deriving DecidableEq

def PluginTable.call (priv : PluginTable) : PluginCall → PluginTable
  | .register mimeType plugin uriSchemes priority =>
    thumbnailerRegisterPlugin priv mimeType plugin uriSchemes priority
  | .unregister plugin => thumbnailerUnregisterPlugin priv plugin

def runCalls (m : ThumbnailManager) (calls : List PluginCall) : PluginTable :=
  calls.foldl PluginTable.call ⟨∅, m⟩

/-- The registrations for a key whose module no later call unregisters. -/
def liveRegistrations (scheme mime : String) : List PluginCall → List PluginRegistration
  | [] => []
  | .register mimeType plugin uriSchemes priority :: later =>
    if (scheme ∈ uriSchemes ∧ mimeType = mime) ∧ .unregister plugin ∉ later then
      ⟨plugin, priority⟩ :: liveRegistrations scheme mime later
    else liveRegistrations scheme mime later
  | .unregister _ :: later => liveRegistrations scheme mime later

/-- The registration of greatest priority, the earliest one among equals. -/
def best : List PluginRegistration → Option PluginRegistration
  | [] => none
  | reg :: later =>
    match best later with
    | none => some reg
    | some w => if reg.priority < w.priority then some w else some reg

theorem best_eq_argmax (regs : List PluginRegistration) :
    best regs = @List.argmax _ _ Int.instLinearOrder.toPreorder _ PluginRegistration.priority regs := by
  -- The order is named, since the instance that is found for it varies with the imports.
  induction regs with
  | nil => rfl
  | cons reg later ih =>
    rw [best, ih, List.argmax_cons]
    cases later.argmax PluginRegistration.priority <;> rfl

theorem best_eq_none {regs : List PluginRegistration} (h : best regs = none) : regs = [] :=
  List.argmax_eq_none.mp ((best_eq_argmax regs).symm.trans h)

theorem best_mem {regs : List PluginRegistration} {w : PluginRegistration} (h : best regs = some w) :
    w ∈ regs :=
  List.argmax_mem ((best_eq_argmax regs).symm.trans h)

theorem le_best {regs : List PluginRegistration} {w reg : PluginRegistration} (h : best regs = some w)
    (hreg : reg ∈ regs) : reg.priority ≤ w.priority :=
  List.le_of_mem_argmax hreg ((best_eq_argmax regs).symm.trans h)

theorem best_concat (regs : List PluginRegistration) (reg : PluginRegistration) :
    best (regs ++ [reg]) = some (reg.replace (best regs)) := by
  rw [best_eq_argmax, List.argmax_concat, ← best_eq_argmax]
  cases best regs with
  | none => rfl
  | some w => by_cases hlt : w.priority < reg.priority <;> simp [PluginRegistration.replace, hlt]

theorem best_filter {regs : List PluginRegistration} {w : PluginRegistration}
    {p : PluginRegistration → Bool} (hw : best regs = some w) (hp : p w = true) :
    best (regs.filter p) = some w := by
  induction regs generalizing w with
  | nil => exact hw
  | cons first later ih =>
    rw [best] at hw
    cases hb : best later with
    | none =>
      have hnil := best_eq_none hb
      subst hnil
      have hf : first = w := by simpa [hb] using hw
      simp [hf, hp, best]
    | some v =>
      rw [hb] at hw
      by_cases hlt : first.priority < v.priority
      · have hv : v = w := by simpa [hlt] using hw
        subst hv
        have hi := ih hb hp
        cases hpf : p first with
        | true => simp [hpf, best, hi, hlt]
        | false => simpa [hpf] using hi
      · have hf : first = w := by simpa [hlt] using hw
        subst hf
        rw [List.filter_cons_of_pos hp, best]
        cases hbf : best (later.filter p) with
        | none => rfl
        | some v' =>
          have hle : v'.priority ≤ v.priority := le_best hb (List.mem_of_mem_filter (best_mem hbf))
          have hnot : ¬ first.priority < v'.priority := by omega
          simp [hnot]

theorem liveRegistrations_register (scheme mime : String) (calls : List PluginCall) (mimeType : String)
    (plugin : GModule) (uriSchemes : List String) (priority : Int) :
    liveRegistrations scheme mime (calls ++ [.register mimeType plugin uriSchemes priority]) =
      if scheme ∈ uriSchemes ∧ mimeType = mime then
        liveRegistrations scheme mime calls ++ [⟨plugin, priority⟩]
      else liveRegistrations scheme mime calls := by
  induction calls with
  | nil => by_cases h : scheme ∈ uriSchemes ∧ mimeType = mime <;> simp [liveRegistrations, h]
  | cons c calls ih =>
    cases c with
    | unregister p => exact ih
    | register m p ss n =>
      have hmem : (.unregister p ∈ calls ++ [.register mimeType plugin uriSchemes priority]) ↔
          .unregister p ∈ calls := by simp
      simp only [List.cons_append, liveRegistrations, ih, hmem]
      split <;> split <;> rfl

theorem liveRegistrations_unregister (scheme mime : String) (calls : List PluginCall) (plugin : GModule) :
    liveRegistrations scheme mime (calls ++ [.unregister plugin]) =
      (liveRegistrations scheme mime calls).filter fun reg => reg.plugin != plugin := by
  induction calls with
  | nil => rfl
  | cons c calls ih =>
    cases c with
    | unregister p => exact ih
    | register m p ss n =>
      simp only [List.cons_append, liveRegistrations, ih, List.mem_append, List.mem_singleton,
        PluginCall.unregister.injEq, not_or]
      by_cases hk : (scheme ∈ ss ∧ m = mime) ∧ .unregister p ∉ calls
      · by_cases hp : p = plugin
        · subst hp
          simp [hk.1, hk.2]
        · simp [hk.1, hk.2, hp]
      · rw [if_neg hk, if_neg fun h => hk ⟨h.1, h.2.1⟩]

theorem runCalls_concat (m : ThumbnailManager) (calls : List PluginCall) (c : PluginCall) :
    runCalls m (calls ++ [c]) = (runCalls m calls).call c := by
  simp [runCalls]

/-- No call of `after` unregisters the module that `getPlugin` gives when the
call is made, `before` being the calls made earlier. -/
def WinnersStay (m : ThumbnailManager) (scheme mime : String) (before after : List PluginCall) : Prop :=
  ∀ mid p, mid ++ [.unregister p] <+: after → getPlugin (runCalls m (before ++ mid)) scheme mime ≠ some p

theorem WinnersStay.concat {m : ThumbnailManager} {scheme mime : String} {before after : List PluginCall}
    (h : WinnersStay m scheme mime before after) {c : PluginCall}
    (hc : ∀ p, c = .unregister p → getPlugin (runCalls m (before ++ after)) scheme mime ≠ some p) :
    WinnersStay m scheme mime before (after ++ [c]) := by
  intro mid p hpre
  rcases List.prefix_concat_iff.mp hpre with heq | hpre
  · obtain ⟨rfl, hlast⟩ := List.append_inj' heq rfl
    exact hc p (List.singleton_inj.mp hlast).symm
  · exact h mid p hpre

theorem registration_concat {m : ThumbnailManager} {scheme mime : String} {before after : List PluginCall}
    {c : PluginCall}
    (hreg : (runCalls m (before ++ after)).pluginsPerscheme.registration scheme mime =
      best (liveRegistrations scheme mime after))
    (hc : ∀ p, c = .unregister p → getPlugin (runCalls m (before ++ after)) scheme mime ≠ some p) :
    (runCalls m (before ++ (after ++ [c]))).pluginsPerscheme.registration scheme mime =
      best (liveRegistrations scheme mime (after ++ [c])) := by
  rw [← List.append_assoc, runCalls_concat]
  cases c with
  | register mimeType plugin uriSchemes priority =>
    rw [PluginTable.call, registration_register, liveRegistrations_register, hreg]
    split
    · rw [best_concat]
    · rfl
  | unregister p =>
    have hne := hc p rfl
    rw [getPlugin, hreg] at hne
    rw [PluginTable.call, registration_unregister, liveRegistrations_unregister, hreg]
    cases hb : best (liveRegistrations scheme mime after) with
    | none =>
      have hnil : liveRegistrations scheme mime after = [] := best_eq_none hb
      rw [hnil]
      rfl
    | some w =>
      have hw : (w.plugin != p) = true := by
        have hwp : w.plugin ≠ p := fun h => hne (by rw [hb, Option.map_some, h])
        simpa using hwp
      rw [best_filter hb hw, Option.filter_some, hw, if_pos rfl]

/-- `get_plugin` gives the best live registration made since the last call that
unregistered the module it gave for the key at that time. -/
theorem getPlugin_eq_best (m : ThumbnailManager) (scheme mime : String) (calls : List PluginCall) :
    ∃ before after, calls = before ++ after ∧
      (before = [] ∨ ∃ earlier p, before = earlier ++ [.unregister p] ∧
        getPlugin (runCalls m earlier) scheme mime = some p) ∧
      WinnersStay m scheme mime before after ∧
      getPlugin (runCalls m calls) scheme mime =
        (best (liveRegistrations scheme mime after)).map PluginRegistration.plugin := by
  suffices h : ∃ before after, calls = before ++ after ∧
      (before = [] ∨ ∃ earlier p, before = earlier ++ [.unregister p] ∧
        getPlugin (runCalls m earlier) scheme mime = some p) ∧
      WinnersStay m scheme mime before after ∧
      (runCalls m calls).pluginsPerscheme.registration scheme mime =
        best (liveRegistrations scheme mime after) by
    obtain ⟨before, after, hsplit, hbefore, hstay, hreg⟩ := h
    exact ⟨before, after, hsplit, hbefore, hstay, by rw [getPlugin, hreg]⟩
  induction calls using List.reverseRecOn with
  | nil =>
    refine ⟨[], [], rfl, .inl rfl, ?_, rfl⟩
    intro mid p hpre
    simp at hpre
  | append_singleton calls c ih =>
    obtain ⟨before, after, rfl, hbefore, hstay, hreg⟩ := ih
    by_cases hc : ∃ p, c = .unregister p ∧ getPlugin (runCalls m (before ++ after)) scheme mime = some p
    · -- the call removes the winner, and with it the key
      obtain ⟨p, rfl, hp⟩ := hc
      refine ⟨before ++ after ++ [.unregister p], [], by simp, .inr ⟨_, p, rfl, hp⟩, ?_, ?_⟩
      · intro mid q hpre
        simp at hpre
      · rw [runCalls_concat, PluginTable.call, registration_unregister]
        obtain ⟨w, hw, rfl⟩ := Option.map_eq_some_iff.mp hp
        rw [hw]
        simp [liveRegistrations, best]
    · have hne : ∀ p, c = .unregister p →
          getPlugin (runCalls m (before ++ after)) scheme mime ≠ some p :=
        fun p hp hg => hc ⟨p, hp, hg⟩
      refine ⟨before, after ++ [c], by simp, hbefore, hstay.concat hne, ?_⟩
      rw [List.append_assoc]
      exact registration_concat hreg hne

/-- A second plugin for a type, of lower priority, is forgotten at once. -/
theorem getPlugin_not_best : ¬ ∀ (m : ThumbnailManager) (scheme mime : String) (calls : List PluginCall),
    getPlugin (runCalls m calls) scheme mime =
      (best (liveRegistrations scheme mime calls)).map PluginRegistration.plugin := by
  intro h
  have hcall := h thumbnailManagerInit "file" "image/png"
    [.register "image/png" 1 ["file"] 1, .register "image/png" 2 ["file"] 0, .unregister 1]
  exact absurd hcall (by decide)

end HildonThumbnail
