import HildonThumbnail.Epeg.Create
import HildonThumbnail.Exec.Create
import HildonThumbnail.Thumbnailer.WorkSignals

/-! What the worker of the daemon relies on when it calls a plugin, whichever
of the three it is. -/

namespace HildonThumbnail

namespace Gdkpixbuf

def Created.report (s : Created) : Failures.Report String := ⟨s.errors, s.failed⟩

def answered (env : Env) (s : Created) (uri : String × Nat) : Option String :=
  let round := createOne env uri.2 uri.1 s.files
  if round.fails then some ("[`" ++ uri.1 ++ "': " ++ round.nerror.getD "Had error before" ++ "] ") else none

def outcome (turns : Nat) (gifs : GifFiles) (env : Env) (s : Created) (uri : String × Nat) : Option String :=
  (gifs.isAnimated turns uri.2).bind fun animated => answered (env.answered animated) s uri

/-- The call ends, and with what it returns it keeps to the contract. -/
def KeepsContract (gifs : GifFiles) (env : Env) (uris : List String) (files : Files) : Prop :=
  ∃ turns s returned, createRun turns gifs env uris files = some s ∧ s.report.finish = some returned ∧
    Failures.Contract uris (Failures.rounds (createUri turns gifs env) Prod.fst (outcome turns gifs env)
      ⟨files, none, []⟩ uris.zipIdx) returned

/-- Every file of the list whose path may be that of a GIF is scanned to its end,
if it can be opened. -/
def GifFiles.Scanned (gifs : GifFiles) (uris : List String) : Prop :=
  ∀ i path stream, i < uris.length → gifs.getPath i = some path → gifs.Suspected path →
    gifs.opened i = some stream → AnimatedGif.ScannedToEnd stream

section Rounds
variable {gifs : GifFiles} {env : Env} {uris : List String} {files : Files} {turns : Nat}

theorem createStep_report (env : Env) (s : Created) (uri : String × Nat) :
    (createStep env s uri).report = s.report.add uri.1 (answered env s uri) := by
  rw [createStep, nerrorHandler, answered]
  dsimp only
  split
  · simp [Created.report, Failures.Report.add, String.append_assoc]
  · rfl

theorem createUri_report (s : Created) (uri : String × Nat) (t : Created)
    (h : createUri turns gifs env s uri = some t) :
    t.report = s.report.add uri.1 (outcome turns gifs env s uri) := by
  obtain ⟨animated, hscan, rfl⟩ := Option.map_eq_some_iff.mp h
  rw [outcome, hscan, Option.bind_some]
  exact createStep_report _ s uri

theorem isAnimated_mono {i more : Nat} {animated : Bool} (hle : turns ≤ more)
    (h : gifs.isAnimated turns i = some animated) : gifs.isAnimated more i = some animated := by
  rw [GifFiles.isAnimated] at h ⊢
  cases hpath : gifs.getPath i with
  | none =>
    rw [hpath] at h
    exact h
  | some path =>
    rw [hpath] at h
    dsimp only at h ⊢
    split
    · next hgif =>
      rw [if_pos hgif] at h
      exact AnimatedGif.scanStream_mono hle h
    · next hgif =>
      rw [if_neg hgif] at h
      exact h

theorem isAnimated_ends_iff (gifs : GifFiles) (i : Nat) : (∃ turns, (gifs.isAnimated turns i).isSome) ↔
    ∀ path stream, gifs.getPath i = some path → gifs.Suspected path → gifs.opened i = some stream →
      AnimatedGif.ScannedToEnd stream := by
  simp only [GifFiles.isAnimated]
  cases gifs.getPath i with
  | none => simp
  | some path =>
    by_cases hgif : gifs.Suspected path
    · cases gifs.opened i with
      | none => simp [hgif, AnimatedGif.scanStream]
      | some stream => simp [hgif, AnimatedGif.scanStream_ends_iff]
    · simp only [if_neg hgif, Option.isSome_some, exists_const, true_iff]
      intro path' stream hpath hgif'
      exact absurd (Option.some.inj hpath ▸ hgif') hgif

/-- A call for which so many turns suffice in each of its scans has them all. -/
theorem createRun_isSome_iff : (createRun turns gifs env uris files).isSome ↔
    ∀ i, i < uris.length → (gifs.isAnimated turns i).isSome := by
  have hrounds (rounds : List (String × Nat)) (s : Created) :
      (StepRun.run (createUri turns gifs env) s rounds).isSome ↔
        ∀ r ∈ rounds, (gifs.isAnimated turns r.2).isSome := by
    induction rounds generalizing s with
    | nil => simp
    | cons r rounds ih =>
      rw [StepRun.run_cons, List.forall_mem_cons, createUri]
      cases gifs.isAnimated turns r.2 with
      | none => simp
      | some animated => simpa using ih _
  rw [createRun, hrounds]
  constructor
  · intro h i hi
    exact h (uris[i], i) (List.mem_zipIdx_iff_getElem?.mpr (List.getElem?_eq_getElem hi))
  · intro h r hr
    have hget := List.mem_zipIdx_iff_getElem?.mp hr
    exact h r.2 (List.getElem?_eq_some_iff.mp hget).1

theorem scanned_iff (gifs : GifFiles) (env : Env) (uris : List String) (files : Files) :
    gifs.Scanned uris ↔ ∃ turns, (createRun turns gifs env uris files).isSome := by
  simp only [createRun_isSome_iff]
  constructor
  · intro h
    have hends : ∀ i ∈ List.range uris.length, ∃ n, ∀ m, n ≤ m → (gifs.isAnimated m i).isSome := by
      intro i hi
      obtain ⟨n, hn⟩ := (isAnimated_ends_iff gifs i).mpr fun path stream => h i path stream (List.mem_range.mp hi)
      obtain ⟨animated, hanimated⟩ := Option.isSome_iff_exists.mp hn
      exact ⟨n, fun m hm => Option.isSome_iff_exists.mpr ⟨animated, isAnimated_mono hm hanimated⟩⟩
    obtain ⟨n, hn⟩ := WhileLoop.exists_turns (List.range uris.length) hends
    exact ⟨n, fun i hi => hn n (Nat.le_refl n) i (List.mem_range.mpr hi)⟩
  · rintro ⟨turns, h⟩ i path stream hi
    exact (isAnimated_ends_iff gifs i).mp ⟨turns, h i hi⟩ path stream

theorem run_contract {s : Created} (h : createRun turns gifs env uris files = some s) :
    ∃ returned, s.report.finish = some returned ∧
      Failures.Contract uris (Failures.rounds (createUri turns gifs env) Prod.fst (outcome turns gifs env)
        ⟨files, none, []⟩ uris.zipIdx) returned := by
  have hempty : (⟨files, none, []⟩ : Created).report = .empty := rfl
  have hcontract := Failures.run_contract createUri_report hempty h
  rw [List.zipIdx_map_fst] at hcontract
  exact hcontract

theorem keepsContract_iff_scanned : KeepsContract gifs env uris files ↔ gifs.Scanned uris := by
  rw [scanned_iff gifs env uris files]
  constructor
  · rintro ⟨turns, s, returned, hrun, -⟩
    exact ⟨turns, Option.isSome_iff_exists.mpr ⟨s, hrun⟩⟩
  · rintro ⟨turns, h⟩
    obtain ⟨s, hrun⟩ := Option.isSome_iff_exists.mp h
    obtain ⟨returned, hfinish, hcontract⟩ := run_contract hrun
    exact ⟨turns, s, returned, hrun, hfinish, hcontract⟩

end Rounds

end Gdkpixbuf

/-- As the worker takes it, which reads the array up to the NULL. -/
def pluginCreate (returned : Failures.Returned String) : PluginCreate :=
  ⟨(returned.failed.bind fun cells => cells.read cells.length).getD [], returned.error⟩

section Worker
variable {uris : List String} {rounds : List (String × Option String)} {returned : Failures.Returned String}

theorem pluginCreate_failedUris (h : Failures.Contract uris rounds returned) :
    (pluginCreate returned).failedUris = (Failures.failing rounds).reverse := by
  rw [pluginCreate]
  cases hfailed : returned.failed with
  | none =>
    have hnone : Failures.failing rounds = [] := by
      by_contra hnot
      have hsome := (h.failed _).mpr ⟨hnot, rfl⟩
      rw [hfailed] at hsome
      cases hsome
    rw [hnone]
    rfl
  | some cells =>
    obtain ⟨-, hcells⟩ := (h.failed cells).mp hfailed
    have hread := PointerArray.read_filled_of_le (Failures.failing rounds).reverse 0 cells.length
      (by rw [hcells]; simp)
    rw [show PointerArray.filled (Failures.failing rounds).reverse 1 = cells from hcells.symm] at hread
    rw [Option.bind_some, hread, Option.getD_some]

theorem pluginCreate_contract (h : Failures.Contract uris rounds returned) (hnodup : uris.Nodup) :
    (pluginCreate returned).Contract uris := by
  have hfailed := pluginCreate_failedUris h
  constructor
  · rw [hfailed, pluginCreate, h.error_iff, Option.isSome_iff_exists]
    simp [h.failed]
  · intro u
    rw [hfailed, List.count_reverse]
    have hsub := Failures.failing_sublist rounds
    rw [h.processed] at hsub
    have hle := hsub.count_le u
    have hone := List.nodup_iff_count_le_one.mp hnodup u
    omega

end Worker

namespace Gdkpixbuf
variable {gifs : GifFiles} {env : Env} {uris : List String} {files : Files} {turns : Nat}

/-- The contract of the worker, for a list that has no URI twice. -/
theorem create_contract {s : Created} (h : createRun turns gifs env uris files = some s) (hnodup : uris.Nodup) :
    (⟨s.failed, s.errors⟩ : PluginCreate).Contract uris := by
  obtain ⟨returned, hfinish, hcontract⟩ := run_contract h
  have hempty : (⟨files, none, []⟩ : Created).report = .empty := rfl
  have hreport : s.report = _ := Failures.run_report createUri_report h
  rw [hempty] at hreport
  have hfailed := pluginCreate_failedUris hcontract
  rw [← Failures.empty_addAll_failed, ← hreport] at hfailed
  have herror : returned.error = s.report.errors := by
    have hall := hfinish
    rw [hreport, Failures.finish_addAll] at hall
    rw [hreport, ← Option.some.inj hall]
  have heq : pluginCreate returned = ⟨s.failed, s.errors⟩ := by
    rw [show pluginCreate returned = ⟨(pluginCreate returned).failedUris, returned.error⟩ from rfl, hfailed, herror]
    rfl
  rw [← heq]
  exact pluginCreate_contract hcontract hnodup

/-- The call that the worker is modelled with, whose scans have come to their ends. -/
theorem gdkpixbuf_contract
    (h : ∀ uri i, uris[i]? = some uri → gifs.isAnimated turns i = some (env.isAnimatedGif uri))
    (hnodup : uris.Nodup) :
    (hildonThumbnailPluginCreate env uris files).Contract uris :=
  create_contract (createRun_eq h) hnodup

end Gdkpixbuf

/-- A plugin keeps the contract in a call that comes to its end, which its loop
does under the conditions on the right. -/
theorem keepsContract_iff (gifs : Gdkpixbuf.GifFiles) (gdkpixbuf : Gdkpixbuf.Env) (epeg : Epeg.Env)
    (uris : List String) (exec : ExecPlugin.CreateEnv) {e : ExecPlugin.Execs} (left : ExecPlugin.Remaining e)
    (queried : List ExecPlugin.Queried) (files : Files) :
    (Gdkpixbuf.KeepsContract gifs gdkpixbuf uris files ↔ gifs.Scanned uris) ∧
      (Epeg.KeepsContract epeg uris files ↔ Epeg.OrientationsInside epeg uris files) ∧
        (ExecPlugin.KeepsContract exec left queried files ↔ ExecPlugin.CommandsLast exec left queried) := by
  refine ⟨?_, ?_, ?_⟩
  · exact Gdkpixbuf.keepsContract_iff_scanned
  · exact Epeg.keepsContract_iff_orientationsInside
  · exact ExecPlugin.keepsContract_iff_commandsLast

namespace ExecPlugin

def queriedPhoto (uri : String) : Queried := ⟨uri, .ok ⟨some "image/x-foo", 100⟩⟩

def ordinary : CreateEnv where
  settings := ⟨⟨["home", "user"], id⟩, true, false⟩
  plugins := [⟨.jpeg, true⟩]
  queryAgain _ := none
  now _ := 200
  beyond _ _ := nul

/-- The second photo of a group finds its command freed. -/
theorem not_keepsContract :
    ¬ ((∀ gifs env uris files, Gdkpixbuf.KeepsContract gifs env uris files) ∧
      (∀ env uris files, Epeg.KeepsContract env uris files) ∧
      ∀ (env : CreateEnv) (e : Execs) (left : Remaining e) (uris : List Queried) (files : Files),
        KeepsContract env left uris files) := by
  rintro ⟨-, -, hexec⟩
  have hkeeps := hexec ordinary oneCommand (Remaining.all oneCommand)
    [queriedPhoto "file:///a", queriedPhoto "file:///b"] ∅
  obtain ⟨items, hitems, hfresh, -⟩ := keepsContract_iff_commandsLast.mp hkeeps
  have hphotos : items = [photo "file:///a", photo "file:///b"] := (Option.some.inj hitems).symm
  have hnodup := hfresh.1
  rw [hphotos] at hnodup
  exact absurd hnodup (by decide)

end ExecPlugin

end HildonThumbnail
