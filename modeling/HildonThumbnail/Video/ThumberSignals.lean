import Mathlib.Data.List.Forall2
import Mathlib.Data.List.Induction
import HildonThumbnail.Video.Thumber

/-! What the video thumbnailer announces: task by task in the order of the
calls, whatever the main loop dispatches in between. -/

namespace HildonThumbnail

/-- The handle of each call, counted from the handle given last, and its URIs. -/
def submissions : UInt32 → List ThumberEvent → List (UInt32 × List String)
  | _, [] => []
  | n, .create uri _ :: events => (n + 1, [uri]) :: submissions (n + 1) events
  | n, .createMany uris _ :: events => (n + 1, uris) :: submissions (n + 1) events
  | n, _ :: events => submissions n events

/-- The URIs to announce for a call, in the order of their announcement. -/
def wanted (uris : List String) : List String := (uris.filter (· ≠ "")).reverse

def Announces (results : List ThumberSignal) (uris : List String) : Prop :=
  List.Forall₂ (fun s uri => s = .ready uri ∨ ∃ code message, s = .error uri code message) results uris

def Closed (call : UInt32 × List String) (block : List ThumberSignal) : Prop :=
  ∃ results, block = .started call.1 :: (results ++ [.finished call.1]) ∧ Announces results (wanted call.2)

/-- The first of the calls is under way, or there is nothing of it yet. -/
def Open (calls : List (UInt32 × List String)) (block : List ThumberSignal) : Prop :=
  block = [] ∨ ∃ call more results announced left, calls = call :: more ∧ block = .started call.1 :: results ∧
    wanted call.2 = announced ++ left ∧ Announces results announced

namespace Thumber

def jobs (tasks : List TaskInfo) : List (UInt32 × List String) := tasks.map fun task => (task.id, task.files)

/-- The calls that no Finished has been emitted for, against the queues. -/
inductive Working (t : Thumber) : List (UInt32 × List String) → List ThumberSignal → Prop
  | between (calls : List (UInt32 × List String)) (hcurrent : t.currentTask = none) (hfiles : t.fileQueue = [])
      (hqueue : jobs t.taskQueue = calls.map fun call => (call.1, wanted call.2)) : t.Working calls []
  | current (call : UInt32 × List String) (more : List (UInt32 × List String)) (results : List ThumberSignal)
      (announced : List String) (task : TaskInfo) (hcurrent : t.currentTask = some task) (hid : task.id = call.1)
      (hpipe : t.pipe ≠ none) (hwanted : wanted call.2 = announced ++ t.fileQueue)
      (hresults : Announces results announced)
      (hqueue : jobs t.taskQueue = more.map fun call => (call.1, wanted call.2)) :
      t.Working (call :: more) (.started call.1 :: results)

structure Tracks (t : Thumber) (calls : List (UInt32 × List String)) : Prop where
  split : ∃ closed rest blocks block, calls = closed ++ rest ∧ t.signals = List.flatten blocks ++ block ∧
    List.Forall₂ Closed closed blocks ∧ t.Working rest block

section Frame
variable {t t' : Thumber} {calls : List (UInt32 × List String)} {block : List ThumberSignal}

/-- Neither the states nor the sources matter to the announcements. -/
def SameQueues (t t' : Thumber) : Prop :=
  t'.currentTask = t.currentTask ∧ t'.taskQueue = t.taskQueue ∧ t'.fileQueue = t.fileQueue ∧ t'.pipe = t.pipe ∧
    t'.signals = t.signals ∧ t'.idCounter = t.idCounter

theorem SameQueues.refl (t : Thumber) : t.SameQueues t := ⟨rfl, rfl, rfl, rfl, rfl, rfl⟩

theorem SameQueues.trans {t'' : Thumber} (h : t.SameQueues t') (h' : t'.SameQueues t'') : t.SameQueues t'' := by
  obtain ⟨h₁, h₂, h₃, h₄, h₅, h₆⟩ := h
  obtain ⟨h₁', h₂', h₃', h₄', h₅', h₆'⟩ := h'
  exact ⟨h₁'.trans h₁, h₂'.trans h₂, h₃'.trans h₃, h₄'.trans h₄, h₅'.trans h₅, h₆'.trans h₆⟩

theorem sameQueues_installIdle (t : Thumber) : t.SameQueues t.installIdle := by
  unfold installIdle
  split <;> exact .refl t

theorem sameQueues_removeIdle (t : Thumber) : t.SameQueues t.removeIdle := by
  unfold removeIdle
  split <;> exact .refl t

theorem sameQueues_installQuitTimeout (t : Thumber) : t.SameQueues t.installQuitTimeout := by
  unfold installQuitTimeout
  split <;> exact .refl t

theorem sameQueues_removeQuitTimeout (t : Thumber) : t.SameQueues t.removeQuitTimeout := by
  unfold removeQuitTimeout
  split <;> exact .refl t

theorem sameQueues_setState (t : Thumber) (state : ThumberState) : t.SameQueues (thumberSetState t state) := by
  cases state with
  | null => exact .refl t
  | working => exact (sameQueues_installIdle t).trans (sameQueues_removeQuitTimeout _)
  | paused => exact (sameQueues_removeIdle t).trans (sameQueues_removeQuitTimeout _)
  | stopped => exact (sameQueues_removeIdle t).trans (sameQueues_installQuitTimeout _)
  | pendingStop =>
    by_cases ht : 0 ≤ t.quitTimeout
    · simp only [thumberSetState, ht, if_true]
      exact (sameQueues_removeIdle t).trans (sameQueues_installQuitTimeout _)
    · simp only [thumberSetState, ht, if_false]
      exact sameQueues_removeIdle t

theorem sameQueues_requestResources (playback : Bool) (t : Thumber) :
    t.SameQueues (requestResources playback t) := by
  unfold requestResources
  split
  · cases playback
    · exact sameQueues_setState t .working
    · exact sameQueues_setState { t with requests := t.requests ++ [.play] } .paused
  · exact .refl t

theorem sameQueues_releaseResources (playback : Bool) (t : Thumber) :
    t.SameQueues (releaseResources playback t) := by
  unfold releaseResources
  split
  · cases playback
    · exact sameQueues_setState t .stopped
    · exact sameQueues_setState { t with requests := t.requests ++ [.stop] } .pendingStop
  · exact .refl t

theorem Working.frame (h : t.SameQueues t') (hw : t.Working calls block) : t'.Working calls block := by
  obtain ⟨hcurrent', hqueue', hfiles', hpipe', _, _⟩ := h
  cases hw with
  | between _ hcurrent hfiles hqueue =>
    exact .between _ (hcurrent'.trans hcurrent) (hfiles'.trans hfiles) (hqueue' ▸ hqueue)
  | current call more results announced task hcurrent hid hpipe hwanted hresults hqueue =>
    exact .current call more results announced task (hcurrent'.trans hcurrent) hid (hpipe' ▸ hpipe)
      (hfiles' ▸ hwanted) hresults (hqueue' ▸ hqueue)

theorem Tracks.frame (h : t.SameQueues t') (ht : t.Tracks calls) : t'.Tracks calls := by
  obtain ⟨closed, rest, blocks, block, hcalls, hsignals, hclosed, hw⟩ := ht.split
  have hsignals' : t'.signals = t.signals := h.2.2.2.2.1
  exact ⟨closed, rest, blocks, block, hcalls, hsignals'.trans hsignals, hclosed, hw.frame h⟩

theorem sameQueues_noIdle (t : Thumber) : t.SameQueues { t with idleId := 0 } := .refl t

theorem sameQueues_removeSource (t : Thumber) (id : Nat) : t.SameQueues (t.removeSource id) := .refl t

theorem sameQueues_hint (playback : Bool) (t : Thumber) (allowedStop allowedPlay : Bool) :
    t.SameQueues (libplaybackStateHintHandler playback t allowedStop allowedPlay) := by
  rw [libplaybackStateHintHandler]
  split
  · split
    · exact sameQueues_releaseResources playback t
    · exact .refl t
  · split
    · exact sameQueues_requestResources playback t
    · exact .refl t
  · exact .refl t

theorem sameQueues_request (t : Thumber) (reqState : PbState) :
    t.SameQueues (libplaybackStateRequestHandler t reqState) := by
  rw [libplaybackStateRequestHandler.eq_def]
  split
  · split
    · exact sameQueues_setState t .working
    · exact .refl t
  · split
    · exact sameQueues_setState t .paused
    · exact .refl t
  · exact .refl t

theorem sameQueues_reply (t : Thumber) (grantedState : PbState) :
    t.SameQueues (libplaybackStateReply t grantedState) := by
  rw [libplaybackStateReply.eq_def]
  split
  · split
    · exact sameQueues_setState t .working
    · exact .refl t
  · split
    · exact sameQueues_setState t .stopped
    · exact .refl t
  · exact .refl t

end Frame

section Steps
variable {t : Thumber} {calls : List (UInt32 × List String)} {block : List ThumberSignal}

theorem taskInfoAddUris_eq (info : TaskInfo) (uris : List String) :
    taskInfoAddUris info uris = { info with files := wanted uris ++ info.files } := by
  induction uris generalizing info with
  | nil => rfl
  | cons uri uris ih =>
    have hh : taskInfoAddUris info (uri :: uris) = taskInfoAddUris (taskInfoAddUri info uri) uris := rfl
    rw [hh, ih]
    by_cases hu : uri = "" <;> simp [taskInfoAddUri, wanted, hu]

theorem taskInfoAddUri_eq (info : TaskInfo) (uri : String) :
    taskInfoAddUri info uri = { info with files := wanted [uri] ++ info.files } :=
  taskInfoAddUris_eq info [uri]

theorem Working.addTask (hw : t.Working calls block) {info : TaskInfo} {uris : List String}
    (hfiles : info.files = wanted uris) : (addTask t info).Working (calls ++ [(info.id, uris)]) block := by
  cases hw with
  | between _ hcurrent hempty hqueue =>
    refine .between _ hcurrent hempty ?_
    simpa [HildonThumbnail.addTask, jobs, hfiles] using hqueue
  | current call more results announced task hcurrent hid hpipe hwanted hresults hqueue =>
    refine .current call _ results announced task hcurrent hid hpipe hwanted hresults ?_
    simpa [HildonThumbnail.addTask, jobs, hfiles] using hqueue

theorem Tracks.addTask (ht : t.Tracks calls) {info : TaskInfo} {uris : List String}
    (hfiles : info.files = wanted uris) : (addTask t info).Tracks (calls ++ [(info.id, uris)]) := by
  obtain ⟨closed, rest, blocks, block, rfl, hsignals, hclosed, hw⟩ := ht.split
  exact ⟨closed, _, blocks, block, List.append_assoc .., hsignals, hclosed, hw.addTask hfiles⟩

theorem Tracks.create (ht : t.Tracks calls) (playback : Bool) (uri mimeHint : String) :
    (thumberDbusMethodCreate playback t uri mimeHint).Tracks (calls ++ [(t.idCounter + 1, [uri])]) := by
  rw [thumberDbusMethodCreate, taskInfoAddUri_eq]
  exact Tracks.frame (sameQueues_requestResources playback _) (ht.addTask (List.append_nil _))

theorem Tracks.createMany (ht : t.Tracks calls) (playback : Bool) (uris : List String) (mimeHint : String) :
    (thumberDbusMethodCreateMany playback t uris mimeHint).Tracks (calls ++ [(t.idCounter + 1, uris)]) := by
  rw [thumberDbusMethodCreateMany, taskInfoAddUris_eq]
  exact Tracks.frame (sameQueues_requestResources playback _) (ht.addTask (List.append_nil _))

theorem signal_announces (run : PipeRun) (uri : String) : Announces [run.signal uri] [uri] := by
  refine List.Forall₂.cons ?_ .nil
  rcases run with _ | _ | message
  · exact .inl rfl
  · exact .inr ⟨_, _, rfl⟩
  · exact .inr ⟨_, _, rfl⟩

/-- The part of `thumber_process_func` after the files of the current task. -/
def takeTask (playback : Bool) (t : Thumber) : Thumber × Bool :=
  match t.taskQueue with
  | task :: tasks =>
    ({ t with
        taskQueue := tasks
        pipe := some ⟨t.standard, t.cropped⟩
        fileQueue := t.fileQueue ++ task.files
        currentTask := some task }.emit (.started task.id), true)
  | [] => ({ releaseResources playback { t with pipe := none } with idleId := 0 }, false)

theorem thumberProcessFunc_of_no_files (playback : Bool) (run : PipeRun) (hfiles : t.fileQueue = []) :
    thumberProcessFunc playback t run = takeTask playback (finishTask t) := by
  unfold thumberProcessFunc
  split
  · next h => simp [hfiles] at h
  · rfl

/-- Between two tasks: everything so far is closed. -/
theorem Tracks.takeTask {closed rest : List (UInt32 × List String)} {blocks : List (List ThumberSignal)}
    (playback : Bool) (hcalls : calls = closed ++ rest) (hsignals : t.signals = List.flatten blocks)
    (hclosed : List.Forall₂ Closed closed blocks) (hcurrent : t.currentTask = none) (hfiles : t.fileQueue = [])
    (hqueue : jobs t.taskQueue = rest.map fun call => (call.1, wanted call.2)) :
    (takeTask playback t).1.Tracks calls := by
  unfold Thumber.takeTask
  split
  · next task tasks htasks =>
    rw [htasks] at hqueue
    cases rest with
    | nil => simp [jobs] at hqueue
    | cons call more =>
      obtain ⟨hjob, hmore⟩ := List.cons.inj hqueue
      obtain ⟨hid, hwanted⟩ := Prod.mk.inj hjob
      refine ⟨closed, call :: more, blocks, [.started call.1], hcalls, ?_, hclosed, ?_⟩
      · simp [emit, hsignals, ← hid]
      · exact .current call more [] [] task rfl hid (by simp [emit])
          (by simpa [emit, hfiles] using hwanted.symm) .nil hmore
  · next htasks =>
    have hsame := sameQueues_releaseResources playback { t with pipe := none }
    have hw : Working { t with pipe := none } rest [] := .between rest hcurrent hfiles hqueue
    have hh : Tracks { t with pipe := none } calls :=
      ⟨closed, rest, blocks, [], hcalls, by simpa using hsignals, hclosed, hw⟩
    exact (hh.frame hsame).frame (sameQueues_noIdle _)

theorem Tracks.process (ht : t.Tracks calls) (playback : Bool) (run : PipeRun) :
    (thumberProcessFunc playback t run).1.Tracks calls := by
  obtain ⟨closed, rest, blocks, block, hcalls, hsignals, hclosed, hw⟩ := ht.split
  cases hw with
  | between _ hcurrent hfiles hqueue =>
    rw [thumberProcessFunc_of_no_files playback run hfiles]
    have hh : finishTask t = t := by rw [finishTask, hcurrent]
    rw [hh]
    exact Tracks.takeTask playback hcalls (by simpa using hsignals) hclosed hcurrent hfiles hqueue
  | current call more results announced task hcurrent hid hpipe hwanted hresults hqueue =>
    cases hfiles : t.fileQueue with
    | nil =>
      rw [thumberProcessFunc_of_no_files playback run hfiles]
      have hh : finishTask t = { t.emit (.finished task.id) with currentTask := none } := by
        rw [finishTask, hcurrent]
      rw [hh]
      rw [hfiles, List.append_nil] at hwanted
      have hblock : Closed call (.started call.1 :: (results ++ [.finished call.1])) :=
        ⟨results, rfl, hwanted ▸ hresults⟩
      have hclosed' := List.rel_append (R := Closed) hclosed (.cons hblock .nil)
      have hcalls' : calls = (closed ++ [call]) ++ more := by simpa using hcalls
      refine Tracks.takeTask playback hcalls' ?_ hclosed' rfl hfiles hqueue
      simp [emit, hsignals, hid]
    | cons uri files =>
      obtain ⟨pipe, hpipe'⟩ := Option.ne_none_iff_exists'.mp hpipe
      have hh : thumberProcessFunc playback t run =
        ({ t with fileQueue := files }.emit (run.signal uri), true) := by
        unfold thumberProcessFunc
        simp [hpipe', hfiles]
      rw [hh]
      have hresults' := List.rel_append (R := fun s uri => _) hresults (signal_announces run uri)
      refine ⟨closed, call :: more, blocks, .started call.1 :: (results ++ [run.signal uri]), hcalls, ?_,
        hclosed, ?_⟩
      · simp [emit, hsignals]
      · refine .current call more _ (announced ++ [uri]) task hcurrent hid hpipe ?_ hresults' hqueue
        simpa [emit, hfiles] using hwanted

theorem idCounter_process (playback : Bool) (run : PipeRun) :
    (thumberProcessFunc playback t run).1.idCounter = t.idCounter := by
  have hfinish : (finishTask t).idCounter = t.idCounter := by
    rw [finishTask.eq_def]
    split <;> rfl
  unfold thumberProcessFunc
  split
  · rfl
  · dsimp only
    split
    · exact hfinish
    · exact (sameQueues_releaseResources playback _).2.2.2.2.2.trans hfinish

theorem Tracks.handle (ht : t.Tracks calls) (playback : Bool) (e : ThumberEvent) :
    (t.handle playback e).Tracks (calls ++ submissions t.idCounter [e]) := by
  cases e with
  | create uri mimeHint => exact ht.create playback uri mimeHint
  | createMany uris mimeHint => exact ht.createMany playback uris mimeHint
  | hint allowedStop allowedPlay =>
    simpa [submissions, Thumber.handle] using ht.frame (sameQueues_hint playback t allowedStop allowedPlay)
  | request reqState => simpa [submissions, Thumber.handle] using ht.frame (sameQueues_request t reqState)
  | reply grantedState => simpa [submissions, Thumber.handle] using ht.frame (sameQueues_reply t grantedState)
  | quit source =>
    have hsame : t.SameQueues (t.handle playback (.quit source)) := .refl t
    simpa [submissions] using ht.frame hsame
  | process source run =>
    have hh := ht.process playback run
    simp only [submissions, List.append_nil, Thumber.handle]
    split
    · exact hh
    · exact hh.frame (sameQueues_removeSource _ source)

theorem idCounter_handle (playback : Bool) (t : Thumber) (e : ThumberEvent) (events : List ThumberEvent) :
    submissions t.idCounter (e :: events) =
      submissions t.idCounter [e] ++ submissions (t.handle playback e).idCounter events := by
  have hcreate (t' : Thumber) : (requestResources playback t').idCounter = t'.idCounter :=
    (sameQueues_requestResources playback t').2.2.2.2.2
  cases e with
  | create uri mimeHint =>
    simp [submissions, Thumber.handle, thumberDbusMethodCreate, hcreate, taskInfoAddUri_eq,
      HildonThumbnail.addTask, taskInfoNew]
  | createMany uris mimeHint =>
    simp [submissions, Thumber.handle, thumberDbusMethodCreateMany, hcreate, taskInfoAddUris_eq,
      HildonThumbnail.addTask, taskInfoNew]
  | hint allowedStop allowedPlay =>
    have hh := (sameQueues_hint playback t allowedStop allowedPlay).2.2.2.2.2
    simp [submissions, Thumber.handle, hh]
  | request reqState =>
    have hh := (sameQueues_request t reqState).2.2.2.2.2
    simp [submissions, Thumber.handle, hh]
  | reply grantedState =>
    have hh := (sameQueues_reply t grantedState).2.2.2.2.2
    simp [submissions, Thumber.handle, hh]
  | quit source => rfl
  | process source run =>
    have hh := idCounter_process (t := t) playback run
    have hr : (t.handle playback (.process source run)).idCounter = t.idCounter := by
      simp only [Thumber.handle]
      split
      · exact hh
      · exact hh
    simp [submissions, hr]

theorem Tracks.events (ht : t.Tracks calls) (playback : Bool) (events : List ThumberEvent) :
    (events.foldl (Thumber.handle playback) t).Tracks (calls ++ submissions t.idCounter events) := by
  induction events generalizing t calls with
  | nil => simpa [submissions] using ht
  | cons e events ih =>
    rw [idCounter_handle playback, ← List.append_assoc]
    exact ih (ht.handle playback e)

theorem Working.isOpen (hw : t.Working calls block) : Open calls block := by
  cases hw with
  | between calls => exact .inl rfl
  | current call more results announced task _ _ _ hwanted hresults =>
    exact .inr ⟨call, more, results, announced, t.fileQueue, rfl, rfl, hwanted, hresults⟩

theorem Working.idle (hw : t.Working calls block) (hcurrent : t.currentTask = none) (hqueue : t.taskQueue = []) :
    calls = [] ∧ block = [] := by
  cases hw with
  | between calls _ _ hcalls =>
    rw [hqueue] at hcalls
    exact ⟨List.map_eq_nil_iff.mp hcalls.symm, rfl⟩
  | current call more results announced task hsome => simp [hcurrent] at hsome

end Steps

end Thumber

/-- Task by task in the order of the calls: nothing is lost, nothing announced
twice, and no two tasks are mixed. -/
theorem thumber_signals_in_order (playback standard cropped : Bool) (quitTimeout : Int)
    (events : List ThumberEvent) :
    let t := events.foldl (Thumber.handle playback) (thumberInit standard cropped quitTimeout)
    ∃ closed rest blocks block, submissions 0 events = closed ++ rest ∧
      t.signals = List.flatten blocks ++ block ∧ List.Forall₂ Closed closed blocks ∧ Open rest block ∧
      (t.taskQueue = [] → t.fileQueue = [] → t.currentTask = none → rest = [] ∧ block = []) := by
  intro t
  have hw : (thumberInit standard cropped quitTimeout).Working [] [] := .between [] rfl rfl rfl
  have hinit : (thumberInit standard cropped quitTimeout).Tracks [] := ⟨[], [], [], [], rfl, rfl, .nil, hw⟩
  have ht : t.Tracks (submissions 0 events) := hinit.events playback events
  obtain ⟨closed, rest, blocks, block, hcalls, hsignals, hclosed, hw⟩ := ht.split
  exact ⟨closed, rest, blocks, block, hcalls, hsignals, hclosed, hw.isOpen,
    fun hqueue _ hcurrent => hw.idle hcurrent hqueue⟩

end HildonThumbnail
