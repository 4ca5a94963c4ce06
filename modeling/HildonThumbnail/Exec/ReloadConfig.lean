import HildonThumbnail.Thumbs.ThumberRegister

/-! The configuration of the exec plugin (`reload_config` in daemon/plugins/exec-plugin.c),
read again whenever its file changes. -/

namespace HildonThumbnail

namespace ExecPlugin

/-- What is asked of a readable exec-plugin.conf, with the answers of the key file. -/
structure Conf where
  doCropping : Bool
  doPngs : Option Bool
  mimeTypes : Option (List String)
  exec : String → Option String

def Conf.listed (c : Conf) : List String := c.mimeTypes.getD []

/-- The variables of the plugin. A type without a command has a NULL in the table. -/
structure Config where
  doCropped : Bool
  doPngs : Bool
  execs : KeyTable String (Option String)

def Config.initial : Config := ⟨true, false, ∅⟩

def reloadConfig (s : Config) : Option Conf → Config
  | none => { s with doCropped := true, doPngs := false }
  | some c => ⟨c.doCropping, c.doPngs.getD false, c.listed.foldl (fun execs m => execs.insert m (c.exec m)) s.execs⟩

def reloads (history : List (Option Conf)) : Config := history.foldl reloadConfig Config.initial

def lastReadable (history : List (Option Conf)) : Option Conf := (history.filterMap id).getLast?

/-- The table has the types of the last readable content, with their commands, and no others. -/
def MapsLast (history : List (Option Conf)) : Prop :=
  ∀ m, (reloads history).execs.lookup m =
    (lastReadable history).bind fun c => if m ∈ c.listed then some (c.exec m) else none

section Histories
variable {history : List (Option Conf)} {c : Conf} {m : String}

theorem reloads_snoc (history : List (Option Conf)) (content : Option Conf) :
    reloads (history ++ [content]) = reloadConfig (reloads history) content := List.foldl_concat _ _ _ _

theorem lookup_reloadConfig (s : Config) (c : Conf) (m : String) :
    (reloadConfig s (some c)).execs.lookup m = if m ∈ c.listed then some (c.exec m) else s.execs.lookup m :=
  KeyTable.lookup_foldl_insert c.exec c.listed s.execs m

theorem lastReadable_unreadable (history : List (Option Conf)) :
    lastReadable (history ++ [none]) = lastReadable history := by
  simp [lastReadable]

theorem lastReadable_readable (history : List (Option Conf)) (c : Conf) :
    lastReadable (history ++ [some c]) = some c := by
  simp [lastReadable]

/-- No type that was ever listed leaves the table. -/
theorem isSome_lookup_reloads (history : List (Option Conf)) (m : String) :
    ((reloads history).execs.lookup m).isSome = true ↔ ∃ c, some c ∈ history ∧ m ∈ c.listed := by
  induction history using List.reverseRecOn with
  | nil => simp [reloads, Config.initial]
  | append_singleton history content ih =>
    rw [reloads_snoc]
    cases content with
    | none =>
      rw [show (reloadConfig (reloads history) none).execs = (reloads history).execs from rfl, ih]
      simp
    | some c =>
      rw [lookup_reloadConfig]
      constructor
      · intro h
        by_cases hc : m ∈ c.listed
        · exact ⟨c, by simp, hc⟩
        · rw [if_neg hc] at h
          obtain ⟨d, hd, hm⟩ := ih.mp h
          exact ⟨d, List.mem_append_left _ hd, hm⟩
      · rintro ⟨d, hd, hm⟩
        by_cases hc : m ∈ c.listed
        · rw [if_pos hc]
          rfl
        · rw [if_neg hc]
          rcases List.mem_append.mp hd with hd | hd
          · exact ih.mpr ⟨d, hd, hm⟩
          · obtain rfl := Option.some.inj (List.mem_singleton.mp hd)
            exact absurd hm hc

theorem lookup_reloads_last (h : lastReadable history = some c) (hm : m ∈ c.listed) :
    (reloads history).execs.lookup m = some (c.exec m) := by
  induction history using List.reverseRecOn with
  | nil => cases h
  | append_singleton history content ih =>
    rw [reloads_snoc]
    cases content with
    | none =>
      rw [lastReadable_unreadable] at h
      exact ih h
    | some d =>
      rw [lastReadable_readable] at h
      obtain rfl := Option.some.inj h
      rw [lookup_reloadConfig, if_pos hm]

theorem not_listed_of_lastReadable_none (h : lastReadable history = none) : some c ∉ history := by
  intro hc
  rw [lastReadable, List.getLast?_eq_none_iff, List.filterMap_eq_nil_iff] at h
  cases h _ hc

/-- The table follows the file exactly in histories that never drop a type for good. -/
theorem mapsLast_iff (history : List (Option Conf)) : MapsLast history ↔
    ∀ c m, some c ∈ history → m ∈ c.listed → ∃ last, lastReadable history = some last ∧ m ∈ last.listed := by
  constructor
  · intro h c m hc hm
    have hsome := (isSome_lookup_reloads history m).mpr ⟨c, hc, hm⟩
    rw [h m] at hsome
    cases hlast : lastReadable history with
    | none =>
      rw [hlast] at hsome
      cases hsome
    | some last =>
      refine ⟨last, rfl, ?_⟩
      by_contra hnot
      rw [hlast, Option.bind_some, if_neg hnot] at hsome
      cases hsome
  · intro h m
    have hnever : (¬ ∃ c, some c ∈ history ∧ m ∈ c.listed) → (reloads history).execs.lookup m = none := by
      intro hnot
      rwa [← isSome_lookup_reloads, Option.not_isSome_iff_eq_none] at hnot
    cases hlast : lastReadable history with
    | none =>
      rw [Option.bind_none]
      apply hnever
      rintro ⟨c, hc, _⟩
      exact not_listed_of_lastReadable_none hlast hc
    | some last =>
      rw [Option.bind_some]
      by_cases hm : m ∈ last.listed
      · rw [if_pos hm]
        exact lookup_reloads_last hlast hm
      · rw [if_neg hm]
        apply hnever
        rintro ⟨c, hc, hmc⟩
        obtain ⟨d, hd, hmd⟩ := h c m hc hmc
        obtain rfl := Option.some.inj (hlast.symm.trans hd)
        exact hm hmd

end Histories

/-- What the plugin reads of the files of the register tool. -/
def Conf.ofKeyFile (k : GKeyFile) : Conf where
  doCropping := k.getValue thumberGroup "DoCropping" = some (.boolean true)
  doPngs := none
  mimeTypes := k.getStringList thumberGroup "MimeTypes"
  exec m := k.getString m "Exec"

def registeredThenNot : List (Option (Option GKeyFile)) :=
  let registered := thumberRegister ⟨"/usr/bin", by decide⟩ "convert" ⟨"image/x-foo", by decide⟩ none
  [registered, registered.bind (thumberUnregister "convert")]

def seen : List (Option Conf) := registeredThenNot.map fun config => config.join.map Conf.ofKeyFile

theorem not_mapsLast_seen : ¬ MapsLast seen := by
  intro h
  have hlast : (lastReadable seen).map Conf.listed = some [] := by decide +kernel
  have hstays : ((reloads seen).execs.lookup "image/x-foo").isSome = true := by decide +kernel
  obtain ⟨last, hl, hnone⟩ := Option.map_eq_some_iff.mp hlast
  rw [h, hl, Option.bind_some, hnone, if_neg List.not_mem_nil] at hstays
  cases hstays

end ExecPlugin

end HildonThumbnail
