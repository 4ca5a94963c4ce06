import HildonThumbnail.Exec.Ownership
import HildonThumbnail.Exec.Replaced
import HildonThumbnail.Lib.Failures
import HildonThumbnail.OutPlugin.Outplugins
import HildonThumbnail.Thumbnailer.Task

/-! All of `hildon_thumbnail_plugin_create` in daemon/plugins/exec-plugin.c: what
becomes of the command strings, their expansion, and the URIs that fail. -/

namespace HildonThumbnail

section Replacing
variable {in_ : CString} {a : ExecArgs} {beyond : Nat → Char}

/-- `string_replace`; a write outside of the block has no result. -/
def stringReplaced (fuel : Nat) (in_ : CString) (a : ExecArgs) (beyond : Nat → Char) : Option Buffer :=
  (stringReplace fuel in_ a beyond).filter fun b => decide (BlockWrites.Within b.size b.writes)

/-- The template is no part of a placeholder's text, and nothing that is put in
for a placeholder reaches over the end of the block. -/
structure FitsBlock (in_ : CString) (a : ExecArgs) (beyond : Nat → Char) : Prop where
  notPart : ∀ loop ∈ a.lengthLoops, ¬ in_.chars <:+: loop.1
  within : ∀ s, WhileLoop.EndsIn (substitutionStep (memoryAt in_ beyond) in_.strlen (a.room in_) a) ⟨0, 0, []⟩ s →
    BlockWrites.Within ((a.room in_).toNat + 5) s.writes

theorem fitsBlock_of_stringReplaced {fuel : Nat} (h : (stringReplaced fuel in_ a beyond).isSome = true) :
    FitsBlock in_ a beyond := by
  obtain ⟨b, hb⟩ := Option.isSome_iff_exists.mp h
  obtain ⟨hreplace, hwithin⟩ := Option.filter_eq_some_iff.mp hb
  obtain ⟨total, htotal, hsub⟩ := Option.bind_eq_some_iff.mp hreplace
  obtain ⟨hpart, rfl⟩ := lengthComputation_eq_some htotal
  obtain ⟨s, hs, rfl⟩ := Option.map_eq_some_iff.mp hsub
  refine ⟨hpart, fun t ht => ?_⟩
  rw [WhileLoop.EndsIn.unique ht ⟨fuel, hs⟩]
  exact of_decide_eq_true hwithin

theorem FitsBlock.stringReplaced (h : FitsBlock in_ a beyond) :
    ∃ n, ∀ fuel, n ≤ fuel → (stringReplaced fuel in_ a beyond).isSome = true := by
  obtain ⟨s, n, hn⟩ := substitution_ends (memoryAt in_ beyond) in_.strlen (a.room in_) a ⟨0, 0, []⟩
  refine ⟨n + 2, fun fuel hfuel => ?_⟩
  obtain ⟨k, rfl⟩ : ∃ k, fuel = k + 2 := ⟨fuel - 2, by omega⟩
  have hexec := WhileLoop.exec_eq_some_of_le (by omega : n ≤ k + 2) hn
  have hreplace : stringReplace (k + 2) in_ a beyond = some ⟨(a.room in_).toNat + 5, s.writes⟩ := by
    rw [stringReplace, lengthComputation_of_notPart h.notPart, Option.bind_some, hexec, Option.map_some]
  have hwithin := h.within s ⟨n, hn⟩
  simp [HildonThumbnail.stringReplaced, hreplace, hwithin]

end Replacing

namespace ExecPlugin

/-- The bytes of the text, up to the first that is zero. -/
def cString (s : String) : CString where
  chars := (s.toUTF8.data.toList.map fun b => Char.ofNat b.toNat).takeWhile fun c => c ≠ nul
  nul_notMem h := by simpa using List.mem_takeWhile_imp h

def filename (path : Path) : String := String.join (path.map fun name => "/" ++ name)

def Expansion.args (x : Expansion) : ExecArgs where
  uri := cString x.uri
  large := cString (filename x.paths.large)
  normal := cString (filename x.paths.normal)
  cropped := cString (filename x.paths.cropped)
  mimeType := cString x.mimeType
  mimeTypeAt := cString x.mimeTypeAt
  cropping := x.cropping
  mtime := x.mtime

/-- The variables of the plugin, and what else a call meets: whether the files of
the failed URIs are found again, and what lies in memory after a command. -/
structure CreateEnv where
  settings : Settings
  plugins : List OutPlugin
  queryAgain : Nat → Option UInt64
  now : Nat → UInt64
  beyond : Expansion → Nat → Char

structure Queried where
  uri : String
  info : Except String GFileInfo

/-- A content type that is NULL is used all the same. -/
def Queried.item (q : Queried) : Option Item :=
  match q.info with
  | .error message => some ⟨q.uri, .error message⟩
  | .ok info => info.contentType.map fun contentType => ⟨q.uri, .ok (contentType, info.mtime)⟩

structure Running where
  heap : Heap
  expanded : List Expansion
  report : Failures.Report String

def Expansion.replaced (fuel : Nat) (env : CreateEnv) (x : Expansion) : Option Buffer :=
  stringReplaced fuel (cString x.exec) x.args (env.beyond x)

def createUri (fuel : Nat) (env : CreateEnv) (table : KeyTable String (Option Nat)) (s : Running) (q : Queried) :
    Option Running :=
  q.item.bind fun item =>
    match item.info with
    | .error message =>
      some { s with report := s.report.add item.uri (some ("[`" ++ item.uri ++ "': " ++ message ++ "] ")) }
    | .ok (contentType, mtime) =>
      (table.lookup contentType).join.bind fun exec =>
        (s.heap exec).bind fun command =>
          let x := expansion env.settings item.uri contentType mtime command
          (x.replaced fuel env).bind fun _ =>
            (gFree s.heap exec).map fun heap => { s with heap := heap, expanded := s.expanded ++ [x] }

/-- In the loop that fills the array; no message is put on file. -/
def putErrors (env : CreateEnv) (failed : List String) (files : Files) : Files :=
  failed.zipIdx.foldl (fun files uri =>
    match env.queryAgain uri.2 with
    | none => files
    | some mtime => outpluginsPutError env.settings.env (env.now uri.2) mtime uri.1 none env.plugins files) files

structure Finished where
  heap : Heap
  expanded : List Expansion
  files : Files
  returned : Failures.Returned String

def hildonThumbnailPluginCreate (fuel : Nat) (env : CreateEnv) (table : KeyTable String (Option Nat)) (heap : Heap)
    (uris : List Queried) (files : Files) : Option Finished :=
  (StepRun.run (createUri fuel env table) ⟨heap, [], .empty⟩ uris).bind fun s =>
    s.report.finish.map fun returned =>
      ⟨s.heap, s.expanded, if returned.failed.isSome then putErrors env s.report.failed files else files, returned⟩

def Queried.outcome (q : Queried) : Option String :=
  match q.info with
  | .error message => some ("[`" ++ q.uri ++ "': " ++ message ++ "] ")
  | .ok _ => none

def Running.creating (s : Running) : Creating := ⟨s.heap, s.expanded, s.report.failed, s.report.errors.getD ""⟩

section Rounds
variable {fuel : Nat} {env : CreateEnv} {table : KeyTable String (Option Nat)} {s t : Running} {q : Queried}
    {item : Item}
  {uris : List Queried} {items : List Item}

theorem createUri_report (h : createUri fuel env table s q = some t) : t.report = s.report.add q.uri q.outcome := by
  obtain ⟨item, hitem, hround⟩ := Option.bind_eq_some_iff.mp h
  rw [Queried.outcome]
  cases hinfo : q.info with
  | error message =>
    rw [Queried.item, hinfo] at hitem
    obtain rfl := Option.some.inj hitem
    rw [← Option.some.inj hround]
  | ok info =>
    rw [Queried.item, hinfo] at hitem
    obtain ⟨contentType, -, rfl⟩ := Option.map_eq_some_iff.mp hitem
    obtain ⟨exec, -, hround⟩ := Option.bind_eq_some_iff.mp hround
    obtain ⟨command, -, hround⟩ := Option.bind_eq_some_iff.mp hround
    obtain ⟨b, -, hround⟩ := Option.bind_eq_some_iff.mp hround
    obtain ⟨heap, -, rfl⟩ := Option.map_eq_some_iff.mp hround
    rfl

theorem createStep_ok_iff {settings : Settings} {c d : Creating} {m : String} {mtime : UInt64}
    (hinfo : item.info = .ok (m, mtime)) : createStep settings table c item = some d ↔
      ∃ exec command heap, (table.lookup m).join = some exec ∧ c.heap exec = some command ∧
        gFree c.heap exec = some heap ∧
        d = { c with heap := heap, expanded := c.expanded ++ [expansion settings item.uri m mtime command] } := by
  rw [createStep, hinfo]
  simp only [Option.bind_eq_some_iff, Option.map_eq_some_iff]
  constructor
  · rintro ⟨exec, hexec, command, hcommand, heap, hheap, rfl⟩
    exact ⟨exec, command, heap, hexec, hcommand, hheap, rfl⟩
  · rintro ⟨exec, command, heap, hexec, hcommand, hheap, rfl⟩
    exact ⟨exec, hexec, command, hcommand, heap, hheap, rfl⟩

theorem createUri_ok_iff (hitem : q.item = some item) {m : String} {mtime : UInt64}
    (hinfo : item.info = .ok (m, mtime)) : createUri fuel env table s q = some t ↔
      ∃ exec command heap, (table.lookup m).join = some exec ∧ s.heap exec = some command ∧
        ((expansion env.settings item.uri m mtime command).replaced fuel env).isSome = true ∧
        gFree s.heap exec = some heap ∧
        t = { s with heap := heap, expanded := s.expanded ++
          [expansion env.settings item.uri m mtime command] } := by
  rw [createUri, hitem, Option.bind_some, hinfo]
  simp only [Option.bind_eq_some_iff, Option.map_eq_some_iff, Option.isSome_iff_exists]
  constructor
  · rintro ⟨exec, hexec, command, hcommand, b, hb, heap, hheap, rfl⟩
    exact ⟨exec, command, heap, hexec, hcommand, ⟨b, hb⟩, hheap, rfl⟩
  · rintro ⟨exec, command, heap, hexec, hcommand, ⟨b, hb⟩, hheap, rfl⟩
    exact ⟨exec, hexec, command, hcommand, b, hb, heap, hheap, rfl⟩

theorem createUri_error (fuel : Nat) (hitem : q.item = some item) {message : String}
    (hinfo : item.info = .error message) :
    ∃ t, createUri fuel env table s q = some t ∧ t.expanded = s.expanded ∧
      createStep env.settings table s.creating item = some t.creating := by
  rw [createUri, hitem, Option.bind_some, hinfo, createStep, hinfo]
  refine ⟨_, rfl, rfl, ?_⟩
  simp [Running.creating, Failures.Report.add, String.append_assoc]

theorem createUri_creating (hitem : q.item = some item) (h : createUri fuel env table s q = some t) :
    createStep env.settings table s.creating item = some t.creating ∧
      ∀ x ∈ t.expanded, x ∈ s.expanded ∨ (x.replaced fuel env).isSome = true := by
  cases hinfo : item.info with
  | error message =>
    obtain ⟨u, hround, hexpanded, hstep⟩ := createUri_error fuel hitem hinfo
    obtain rfl := Option.some.inj (hround.symm.trans h)
    rw [hexpanded]
    exact ⟨hstep, fun x hx => .inl hx⟩
  | ok info =>
    obtain ⟨exec, command, heap, hexec, hcommand, hends, hheap, rfl⟩ := (createUri_ok_iff hitem hinfo).mp h
    refine ⟨(createStep_ok_iff hinfo).mpr ⟨exec, command, heap, hexec, hcommand, hheap, rfl⟩, ?_⟩
    intro x hx
    rcases List.mem_append.mp hx with hx | hx
    · exact .inl hx
    · rw [List.mem_singleton.mp hx]
      exact .inr hends

theorem createUri_of_creating (hitem : q.item = some item) {c : Creating}
    (h : createStep env.settings table s.creating item = some c)
    (hends : ∀ x ∈ c.expanded, (x.replaced fuel env).isSome = true) :
    ∃ t, createUri fuel env table s q = some t ∧ t.creating = c := by
  cases hinfo : item.info with
  | error message =>
    obtain ⟨t, hround, -, hstep⟩ := createUri_error fuel hitem hinfo
    exact ⟨t, hround, Option.some.inj (hstep.symm.trans h)⟩
  | ok info =>
    obtain ⟨exec, command, heap, hexec, hcommand, hheap, rfl⟩ := (createStep_ok_iff hinfo).mp h
    have hlast := hends _ (List.mem_append_right _ (List.mem_singleton_self _))
    exact ⟨_, (createUri_ok_iff hitem hinfo).mpr ⟨exec, command, heap, hexec, hcommand, hlast, hheap, rfl⟩, rfl⟩

theorem createStep_expanded {settings : Settings} {c d : Creating} (h : createStep settings table c item = some d) :
    ∀ x ∈ c.expanded, x ∈ d.expanded := by
  intro x hx
  cases hinfo : item.info with
  | error message =>
    rw [createStep, hinfo] at h
    rw [← Option.some.inj h]
    exact hx
  | ok info =>
    obtain ⟨exec, command, heap, -, -, -, rfl⟩ := (createStep_ok_iff hinfo).mp h
    exact List.mem_append_left _ hx

theorem createSteps_expanded {settings : Settings} {c d : Creating}
    (h : items.foldlM (createStep settings table) c = some d) : ∀ x ∈ c.expanded, x ∈ d.expanded := by
  induction items generalizing c with
  | nil =>
    rw [← Option.some.inj h]
    exact fun _ hx => hx
  | cons item items ih =>
    rw [List.foldlM_cons] at h
    obtain ⟨u, hstep, hrest⟩ := Option.bind_eq_some_iff.mp h
    exact fun x hx => ih hrest x (createStep_expanded hstep x hx)

theorem run_creating (h : StepRun.run (createUri fuel env table) s uris = some t) :
    ∃ items, uris.mapM Queried.item = some items ∧
      items.foldlM (createStep env.settings table) s.creating = some t.creating ∧
      ∀ x ∈ t.expanded, x ∈ s.expanded ∨ (x.replaced fuel env).isSome = true := by
  induction uris generalizing s with
  | nil =>
    obtain rfl := Option.some.inj h
    exact ⟨[], rfl, rfl, fun x hx => .inl hx⟩
  | cons q uris ih =>
    obtain ⟨u, hround, hrest⟩ := Option.bind_eq_some_iff.mp h
    obtain ⟨item, hitem, -⟩ := Option.bind_eq_some_iff.mp hround
    obtain ⟨hstep, hfirst⟩ := createUri_creating hitem hround
    obtain ⟨items, hitems, hsteps, hlater⟩ := ih hrest
    refine ⟨item :: items, by simp [hitem, hitems], ?_, ?_⟩
    · rw [List.foldlM_cons, hstep]
      exact hsteps
    · intro x hx
      rcases hlater x hx with hx | hx
      · exact hfirst x hx
      · exact .inr hx

theorem run_of_creating (hitems : uris.mapM Queried.item = some items) {c : Creating}
    (h : items.foldlM (createStep env.settings table) s.creating = some c)
    (hends : ∀ x ∈ c.expanded, (x.replaced fuel env).isSome = true) :
    ∃ t, StepRun.run (createUri fuel env table) s uris = some t := by
  induction uris generalizing s items with
  | nil => exact ⟨s, rfl⟩
  | cons q uris ih =>
    rw [List.mapM_cons] at hitems
    obtain ⟨item, hitem, hitems⟩ := Option.bind_eq_some_iff.mp hitems
    obtain ⟨later, hlater, hitems⟩ := Option.bind_eq_some_iff.mp hitems
    obtain rfl := Option.some.inj hitems
    rw [List.foldlM_cons] at h
    obtain ⟨d, hstep, hrest⟩ := Option.bind_eq_some_iff.mp h
    obtain ⟨u, hround, rfl⟩ := createUri_of_creating hitem hstep fun x hx =>
      hends x (createSteps_expanded hrest x hx)
    obtain ⟨t, hrun⟩ := ih hlater hrest
    refine ⟨t, ?_⟩
    rw [StepRun.run_cons, hround]
    exact hrun

end Rounds

/-- The table of a configuration, some calls later. -/
structure Remaining (e : Execs) where
  used : List String
  heap : Heap
  freed : FreedFor e used heap

def Remaining.all (e : Execs) : Remaining e := ⟨[], e.heap, freedFor_nil e⟩

section Contract
variable {env : CreateEnv} {e : Execs} {left : Remaining e} {uris : List Queried} {files : Files}

/-- The call ends, and with what it returns it keeps to the contract. -/
def KeepsContract (env : CreateEnv) (left : Remaining e) (uris : List Queried) (files : Files) : Prop :=
  ∃ fuel finished, hildonThumbnailPluginCreate fuel env e.table left.heap uris files = some finished ∧
    Failures.Contract (uris.map Queried.uri)
      (Failures.rounds (createUri fuel env e.table) Queried.uri (fun _ => Queried.outcome)
        ⟨left.heap, [], .empty⟩ uris) finished.returned

/-- Every file that is found has a content type; these are all different, and each
has a command that no call before has used; and `string_replace` can expand it. -/
def CommandsLast (env : CreateEnv) (left : Remaining e) (uris : List Queried) : Prop :=
  ∃ items, uris.mapM Queried.item = some items ∧ Fresh e left.used (contentTypes items) ∧
    ∀ x ∈ configured env.settings e items, FitsBlock (cString x.exec) x.args (env.beyond x)

theorem commandsLast_of_run {fuel : Nat} {t : Running}
    (h : StepRun.run (createUri fuel env e.table) ⟨left.heap, [], .empty⟩ uris = some t) :
    CommandsLast env left uris := by
  obtain ⟨items, hitems, hsteps, hends⟩ := run_creating h
  obtain ⟨hgoes, hstops⟩ := createLoop_spec env.settings items (s := ⟨left.heap, [], [], ""⟩) left.freed
  have hfresh : Fresh e left.used (contentTypes items) := by
    by_contra hnot
    have hnone := (hstops hnot).symm.trans hsteps
    cases hnone
  obtain ⟨c, hrun, -, hexpanded⟩ := hgoes hfresh
  have hall : t.expanded = configured env.settings e items := by
    have hsame : some c = some t.creating := hrun.symm.trans hsteps
    rw [show t.expanded = t.creating.expanded from rfl, ← Option.some.inj hsame, hexpanded]
    rfl
  refine ⟨items, hitems, hfresh, fun x hx => ?_⟩
  rw [← hall] at hx
  rcases hends x hx with hx | hx
  · cases hx
  · exact fitsBlock_of_stringReplaced hx

theorem CommandsLast.run (h : CommandsLast env left uris) :
    ∃ fuel t, StepRun.run (createUri fuel env e.table) ⟨left.heap, [], .empty⟩ uris = some t := by
  obtain ⟨items, hitems, hfresh, hfits⟩ := h
  obtain ⟨c, hrun, -, hexpanded⟩ :=
    (createLoop_spec env.settings items (s := ⟨left.heap, [], [], ""⟩) left.freed).1 hfresh
  obtain ⟨n, hn⟩ := WhileLoop.exists_turns (configured env.settings e items) fun x hx => (hfits x hx).stringReplaced
  refine ⟨n, run_of_creating hitems hrun fun x hx => ?_⟩
  rw [hexpanded] at hx
  exact hn n (Nat.le_refl n) x hx

theorem keepsContract_iff_commandsLast : KeepsContract env left uris files ↔ CommandsLast env left uris := by
  constructor
  · rintro ⟨fuel, finished, hcall, -⟩
    obtain ⟨t, hrun, -⟩ := Option.bind_eq_some_iff.mp hcall
    exact commandsLast_of_run hrun
  · intro h
    obtain ⟨fuel, t, hrun⟩ := h.run
    have hreport (s : Running) (q : Queried) (t : Running) :
        createUri fuel env e.table s q = some t → t.report = s.report.add q.uri q.outcome := createUri_report
    obtain ⟨returned, hfinish, hcontract⟩ := Failures.run_contract hreport rfl hrun
    have hcall : hildonThumbnailPluginCreate fuel env e.table left.heap uris files = some ⟨t.heap, t.expanded,
        if returned.failed.isSome then putErrors env t.report.failed files else files, returned⟩ := by
      rw [hildonThumbnailPluginCreate, hrun, Option.bind_some, hfinish, Option.map_some]
    exact ⟨fuel, _, hcall, hcontract⟩

end Contract

end ExecPlugin

end HildonThumbnail
