import HildonThumbnail.Video.ThumberSignals

/-! The states of the video thumbnailer against the sources in its main context:
it works exactly while it has an idle source, and quits with nothing left to do. -/

namespace HildonThumbnail
namespace Thumber

/-- The identifiers the thumber keeps name the sources that are installed. -/
structure Installed (t : Thumber) : Prop where
  idle : ∀ id, t.sources.lookup id = some .thumberProcessFunc ↔ id = t.idleId ∧ id ≠ 0
  quit : ∀ id, t.sources.lookup id = some .quitTimeoutCb → id = t.quitTimeoutId ∧ id ≠ 0
  idle_lt : t.idleId < t.nextSource
  quit_lt : t.quitTimeoutId < t.nextSource
  apart : t.idleId = t.quitTimeoutId → t.idleId = 0

structure Settled (t : Thumber) : Prop where
  installed : t.Installed
  idle_iff : t.idleId ≠ 0 ↔ t.state = .working
  quit_stop : t.quitTimeoutId ≠ 0 → t.state = .stopped ∨ t.state = .pendingStop

/-- What has been started is kept in the current task, its pipe and its files. -/
structure Started (t : Thumber) : Prop where
  files : t.currentTask = none → t.fileQueue = []
  pipe : t.currentTask ≠ none → t.pipe ≠ none

def NoWork (t : Thumber) : Prop := t.taskQueue = [] ∧ t.fileQueue = [] ∧ t.currentTask = none

structure Sound (t : Thumber) : Prop where
  settled : t.Settled
  started : t.Started
  stop : t.state = .stopped ∨ t.state = .pendingStop → t.NoWork
  quit : t.hasQuit = true → t.NoWork

section Sources
variable {t : Thumber}

theorem Installed.installIdle (h : t.Installed) : t.installIdle.Installed := by
  by_cases hid : t.idleId = 0
  · have hh : t.installIdle = { t.addSource .thumberProcessFunc with idleId := t.nextSource } := by
      simp [Thumber.installIdle, hid]
    have hlt := h.quit_lt
    rw [hh]
    refine ⟨fun id => ?_, fun id => ?_, Nat.lt_succ_self _, Nat.lt_succ_of_lt hlt, fun heq => ?_⟩
    · simp only [addSource, KeyTable.lookup_insert_eq]
      split
      · next hn => simpa [hn] using (show t.nextSource ≠ 0 by omega)
      · next hn =>
        have hi := h.idle id
        simp only [hid] at hi
        constructor
        · exact fun hl => absurd (hi.mp hl) (by omega)
        · exact fun hl => absurd hl.1 hn
    · simp only [addSource, KeyTable.lookup_insert_eq]
      split
      · simp
      · exact h.quit id
    · have heq' : t.nextSource = t.quitTimeoutId := heq
      omega
  · simpa [Thumber.installIdle, hid] using h

theorem Installed.removeIdle (h : t.Installed) : t.removeIdle.Installed := by
  by_cases hid : t.idleId = 0
  · simpa [Thumber.removeIdle, hid] using h
  · have hh : t.removeIdle = { t.removeSource t.idleId with idleId := 0 } := by simp [Thumber.removeIdle, hid]
    have hlt := h.idle_lt
    rw [hh]
    refine ⟨fun id => ?_, fun id => ?_, Nat.lt_of_le_of_lt (Nat.zero_le _) hlt, h.quit_lt, fun _ => rfl⟩
    · simp only [removeSource, KeyTable.lookup_erase_eq]
      split
      · simp_all
      · next hn =>
        have hi := h.idle id
        constructor
        · exact fun hl => absurd (hi.mp hl).1 hn
        · exact fun hl => absurd hl.1 hl.2
    · simp only [removeSource, KeyTable.lookup_erase_eq]
      split
      · simp
      · exact h.quit id

theorem Installed.installQuitTimeout (h : t.Installed) : t.installQuitTimeout.Installed := by
  by_cases hid : t.quitTimeoutId = 0
  · have hh : t.installQuitTimeout = { t.addSource .quitTimeoutCb with quitTimeoutId := t.nextSource } := by
      simp [Thumber.installQuitTimeout, hid]
    have hlt := h.idle_lt
    rw [hh]
    refine ⟨fun id => ?_, fun id => ?_, Nat.lt_succ_of_lt hlt, Nat.lt_succ_self _, fun heq => ?_⟩
    · simp only [addSource, KeyTable.lookup_insert_eq]
      split
      · next hn => simpa [hn] using fun heq : t.nextSource = t.idleId => absurd heq (by omega)
      · exact h.idle id
    · simp only [addSource, KeyTable.lookup_insert_eq]
      split
      · next hn => exact fun _ => ⟨hn, by omega⟩
      · exact fun hl => absurd (h.quit id hl) (by omega)
    · have heq' : t.idleId = t.nextSource := heq
      omega
  · simpa [Thumber.installQuitTimeout, hid] using h

theorem Installed.removeQuitTimeout (h : t.Installed) : t.removeQuitTimeout.Installed := by
  by_cases hid : t.quitTimeoutId = 0
  · simpa [Thumber.removeQuitTimeout, hid] using h
  · have hh : t.removeQuitTimeout = { t.removeSource t.quitTimeoutId with quitTimeoutId := 0 } := by
      simp [Thumber.removeQuitTimeout, hid]
    have hlt := h.quit_lt
    rw [hh]
    refine ⟨fun id => ?_, fun id => ?_, h.idle_lt, Nat.lt_of_le_of_lt (Nat.zero_le _) hlt, fun heq => heq⟩
    · have hi := h.idle id
      have ha := h.apart
      simp only [removeSource, KeyTable.lookup_erase_eq]
      split
      · next hn =>
        constructor
        · exact fun hl => nomatch hl
        · exact fun hl => absurd hl.1 (by omega)
      · exact hi
    · simp only [removeSource, KeyTable.lookup_erase_eq]
      split
      · simp
      · next hn => exact fun hl => absurd (h.quit id hl).1 hn

theorem installIdle_ids (h : t.Installed) :
    t.installIdle.idleId ≠ 0 ∧ t.installIdle.quitTimeoutId = t.quitTimeoutId := by
  have hlt := h.quit_lt
  rw [Thumber.installIdle]
  split
  · exact ⟨show t.nextSource ≠ 0 by omega, rfl⟩
  · next hid => exact ⟨hid, rfl⟩

theorem removeIdle_idleId (t : Thumber) : t.removeIdle.idleId = 0 := by
  rw [Thumber.removeIdle]
  split
  · rfl
  · next hid => exact not_not.mp hid

theorem removeQuitTimeout_ids (t : Thumber) :
    t.removeQuitTimeout.quitTimeoutId = 0 ∧ t.removeQuitTimeout.idleId = t.idleId := by
  rw [Thumber.removeQuitTimeout]
  split
  · exact ⟨rfl, rfl⟩
  · next hid => exact ⟨not_not.mp hid, rfl⟩

theorem installQuitTimeout_idleId (t : Thumber) : t.installQuitTimeout.idleId = t.idleId := by
  rw [Thumber.installQuitTimeout]
  split <;> rfl

theorem Installed.withState (h : t.Installed) (state : ThumberState) : Installed { t with state := state } :=
  ⟨h.idle, h.quit, h.idle_lt, h.quit_lt, h.apart⟩

theorem Settled.working (h : t.Installed) : (thumberSetState t .working).Settled := by
  have hid := installIdle_ids h
  have hrm := removeQuitTimeout_ids t.installIdle
  refine ⟨h.installIdle.removeQuitTimeout.withState .working, ?_, fun hq => absurd hrm.1 hq⟩
  have hh : (thumberSetState t .working).idleId ≠ 0 := fun heq => hid.1 (hrm.2.symm.trans heq)
  exact iff_of_true hh rfl

theorem Settled.paused (h : t.Installed) : (thumberSetState t .paused).Settled := by
  have hrm := removeQuitTimeout_ids t.removeIdle
  refine ⟨h.removeIdle.removeQuitTimeout.withState .paused, ?_, fun hq => absurd hrm.1 hq⟩
  have hh : (thumberSetState t .paused).idleId = 0 := hrm.2.trans (removeIdle_idleId t)
  exact iff_of_false (fun hn => hn hh) (by simp [thumberSetState])

theorem Settled.stopped (h : t.Installed) : (thumberSetState t .stopped).Settled := by
  refine ⟨h.removeIdle.installQuitTimeout.withState .stopped, ?_, fun _ => .inl rfl⟩
  have hh : (thumberSetState t .stopped).idleId = 0 :=
    (installQuitTimeout_idleId t.removeIdle).trans (removeIdle_idleId t)
  exact iff_of_false (fun hn => hn hh) (by simp [thumberSetState])

theorem Settled.pendingStop (h : t.Installed) : (thumberSetState t .pendingStop).Settled := by
  by_cases hq : 0 ≤ t.quitTimeout
  · have heq : thumberSetState t .pendingStop = { t.removeIdle.installQuitTimeout with state := .pendingStop } := by
      simp [thumberSetState, hq]
    rw [heq]
    refine ⟨h.removeIdle.installQuitTimeout.withState .pendingStop, ?_, fun _ => .inr rfl⟩
    have hh := (installQuitTimeout_idleId t.removeIdle).trans (removeIdle_idleId t)
    exact iff_of_false (fun hn => hn hh) (by simp)
  · have heq : thumberSetState t .pendingStop = { t.removeIdle with state := .pendingStop } := by
      simp [thumberSetState, hq]
    rw [heq]
    refine ⟨h.removeIdle.withState .pendingStop, ?_, fun _ => .inr rfl⟩
    exact iff_of_false (fun hn => hn (removeIdle_idleId t)) (by simp)

theorem hasQuit_setState (t : Thumber) (state : ThumberState) :
    (thumberSetState t state).hasQuit = t.hasQuit := by
  have hinstall (t : Thumber) : t.installIdle.hasQuit = t.hasQuit := by
    rw [Thumber.installIdle]; split <;> rfl
  have hremove (t : Thumber) : t.removeIdle.hasQuit = t.hasQuit := by
    rw [Thumber.removeIdle]; split <;> rfl
  have harm (t : Thumber) : t.installQuitTimeout.hasQuit = t.hasQuit := by
    rw [Thumber.installQuitTimeout]; split <;> rfl
  have hdisarm (t : Thumber) : t.removeQuitTimeout.hasQuit = t.hasQuit := by
    rw [Thumber.removeQuitTimeout]; split <;> rfl
  cases state with
  | null => rfl
  | working => exact (hdisarm _).trans (hinstall _)
  | paused => exact (hdisarm _).trans (hremove _)
  | stopped => exact (harm _).trans (hremove _)
  | pendingStop =>
    simp only [thumberSetState]
    split
    · exact (harm _).trans (hremove _)
    · exact hremove _

end Sources

section Steps
variable {t t' : Thumber} {playback : Bool}

theorem Started.frame (hs : t.SameQueues t') (h : t.Started) : t'.Started := by
  obtain ⟨hcurrent, _, hfiles, hpipe, _, _⟩ := hs
  refine ⟨fun hn => ?_, fun hn => ?_⟩
  · exact hfiles.trans (h.files (hcurrent.symm.trans hn))
  · exact fun hp => h.pipe (fun hc => hn (hcurrent.trans hc)) (hpipe.symm.trans hp)

theorem NoWork.frame (hs : t.SameQueues t') (h : t.NoWork) : t'.NoWork := by
  obtain ⟨hcurrent, hqueue, hfiles, _, _, _⟩ := hs
  exact ⟨hqueue.trans h.1, hfiles.trans h.2.1, hcurrent.trans h.2.2⟩

/-- A change of state away from the work, or with none left. -/
theorem Sound.setState (hi : t.Installed) (hw : t.Started) (hq : t.hasQuit = false) {state : ThumberState}
    (hstop : state = .working ∨ state = .paused ∨ (state ≠ .null ∧ t.NoWork)) :
      (thumberSetState t state).Sound := by
  have hsame := sameQueues_setState t state
  have hquit : (thumberSetState t state).hasQuit = false := (hasQuit_setState t state).trans hq
  have hstate : (thumberSetState t state).state = state := rfl
  have hsettled : (thumberSetState t state).Settled := by
    cases state with
    | null => simp at hstop
    | working => exact .working hi
    | paused => exact .paused hi
    | stopped => exact .stopped hi
    | pendingStop => exact .pendingStop hi
  refine ⟨hsettled, hw.frame hsame, fun hs => ?_, fun hh => by simp [hquit] at hh⟩
  rw [hstate] at hs
  rcases hstop with rfl | rfl | ⟨_, hno⟩
  · simp at hs
  · simp at hs
  · exact hno.frame hsame

theorem Installed.withRequests (h : t.Installed) (requests : List PbState) :
    Installed { t with requests := requests } :=
  ⟨h.idle, h.quit, h.idle_lt, h.quit_lt, h.apart⟩

theorem Started.withRequests (h : t.Started) (requests : List PbState) : Started { t with requests := requests } :=
  ⟨h.files, h.pipe⟩

theorem Sound.requestResources (hs : t.Settled) (hw : t.Started) (hq : t.hasQuit = false) :
    (requestResources playback t).Sound := by
  rw [HildonThumbnail.requestResources]
  split
  · cases playback with
    | false => exact .setState hs.installed hw hq (.inl rfl)
    | true =>
      let requests := t.requests ++ [.play]
      exact .setState (hs.installed.withRequests requests) (hw.withRequests requests) hq (.inr (.inl rfl))
  · next hworking =>
    have hh : t.state = .working := not_not.mp hworking
    exact ⟨hs, hw, fun hstop => by simp [hh] at hstop, fun hn => by simp [hq] at hn⟩

theorem Sound.releaseResources (hi : t.Installed) (hw : t.Started) (hq : t.hasQuit = false) (hno : t.NoWork)
    (hstate : t.state ≠ .stopped) : (releaseResources playback t).Sound := by
  rw [HildonThumbnail.releaseResources, if_pos hstate]
  cases playback with
  | false =>
    have hnull : ThumberState.stopped ≠ .null := by simp
    exact .setState hi hw hq (.inr (.inr ⟨hnull, hno⟩))
  | true =>
    let requests := t.requests ++ [.stop]
    have hnull : ThumberState.pendingStop ≠ .null := by simp
    exact .setState (hi.withRequests requests) (hw.withRequests requests) hq (.inr (.inr ⟨hnull, hno⟩))

theorem Sound.addTask (h : t.Sound) (hq : t.hasQuit = false) (info : TaskInfo) :
    (HildonThumbnail.requestResources playback (addTask t info)).Sound := by
  have hi := h.settled.installed
  have hi' : (HildonThumbnail.addTask t info).Installed := ⟨hi.idle, hi.quit, hi.idle_lt, hi.quit_lt, hi.apart⟩
  exact .requestResources ⟨hi', h.settled.idle_iff, h.settled.quit_stop⟩ ⟨h.started.files, h.started.pipe⟩ hq

theorem Sound.hint (h : t.Sound) (hq : t.hasQuit = false) (allowedStop allowedPlay : Bool) :
    (libplaybackStateHintHandler playback t allowedStop allowedPlay).Sound := by
  rw [libplaybackStateHintHandler]
  split
  · next hstate =>
    split
    · exact .releaseResources h.settled.installed h.started hq (h.stop (.inr hstate)) (by simp [hstate])
    · exact h
  · split
    · exact .requestResources h.settled h.started hq
    · exact h
  · exact h

theorem Sound.request (h : t.Sound) (hq : t.hasQuit = false) (reqState : PbState) :
    (libplaybackStateRequestHandler t reqState).Sound := by
  rw [libplaybackStateRequestHandler.eq_def]
  split
  · split
    · exact .setState h.settled.installed h.started hq (.inl rfl)
    · exact h
  · split
    · exact .setState h.settled.installed h.started hq (.inr (.inl rfl))
    · exact h
  · exact h

theorem Sound.reply (h : t.Sound) (hq : t.hasQuit = false) (grantedState : PbState) :
    (libplaybackStateReply t grantedState).Sound := by
  rw [libplaybackStateReply.eq_def]
  split
  · split
    · exact .setState h.settled.installed h.started hq (.inl rfl)
    · exact h
  · split
    · next hstate =>
      exact .setState h.settled.installed h.started hq (.inr (.inr ⟨by simp, h.stop (.inr hstate)⟩))
    · exact h
  · exact h

theorem finishTask_eq (t : Thumber) :
    ∃ signals, finishTask t = { t with signals := signals, currentTask := none } := by
  rw [finishTask.eq_def]
  split
  · exact ⟨_, rfl⟩
  · next hcurrent => exact ⟨t.signals, by rw [← hcurrent]⟩

theorem idleId_releaseResources (hq : t.state ≠ .stopped) :
    (HildonThumbnail.releaseResources playback t).idleId = 0 := by
  rw [HildonThumbnail.releaseResources, if_pos hq]
  cases playback with
  | false => exact (installQuitTimeout_idleId t.removeIdle).trans (removeIdle_idleId t)
  | true =>
    simp only [if_true, thumberSetState]
    split
    · exact (installQuitTimeout_idleId _).trans (removeIdle_idleId _)
    · exact removeIdle_idleId _

theorem Installed.removeSource (h : t.Installed) (hidle : t.idleId = 0) (source : Nat) :
    (t.removeSource source).Installed := by
  refine ⟨fun id => ?_, fun id => ?_, h.idle_lt, h.quit_lt, h.apart⟩
  · have hi := h.idle id
    simp only [Thumber.removeSource, KeyTable.lookup_erase_eq]
    split
    · exact iff_of_false (by simp) (fun hl => hl.2 (hl.1.trans hidle))
    · exact hi
  · simp only [Thumber.removeSource, KeyTable.lookup_erase_eq]
    split
    · simp
    · exact h.quit id

theorem Sound.removeSource (h : t.Sound) (hidle : t.idleId = 0) (source : Nat) : (t.removeSource source).Sound :=
  ⟨⟨h.settled.installed.removeSource hidle source, h.settled.idle_iff, h.settled.quit_stop⟩,
    ⟨h.started.files, h.started.pipe⟩, h.stop, h.quit⟩

theorem Sound.quitTimeoutCb (h : t.Sound) {source : Nat} (hsource : t.sources.lookup source = some .quitTimeoutCb) :
    (t.handle playback (.quit source)).Sound := by
  obtain ⟨hid, hne⟩ := h.settled.installed.quit source hsource
  have hstop := h.settled.quit_stop (hid ▸ hne)
  have hidle : t.idleId = 0 := by
    by_contra hn
    have hworking := h.settled.idle_iff.mp hn
    rcases hstop with hh | hh <;> simp [hworking] at hh
  have hsettled := h.settled
  have hquit : Sound { t with hasQuit := true } :=
    ⟨⟨⟨hsettled.installed.idle, hsettled.installed.quit, hsettled.installed.idle_lt, hsettled.installed.quit_lt,
      hsettled.installed.apart⟩, hsettled.idle_iff, hsettled.quit_stop⟩, ⟨h.started.files, h.started.pipe⟩, h.stop,
      fun _ => h.stop hstop⟩
  exact hquit.removeSource hidle source

/-- With no task left the source goes, and the state with it. -/
theorem Sound.takeTask (h : t.Sound) (hworking : t.state = .working) (hq : t.hasQuit = false)
    (hfiles : t.fileQueue = []) (hcurrent : t.currentTask = none) (source : Nat) :
    (if (takeTask playback t).2 then (takeTask playback t).1
      else (takeTask playback t).1.removeSource source).Sound := by
  have hi := h.settled.installed
  unfold Thumber.takeTask
  split
  · next task tasks htasks =>
    refine ⟨⟨⟨hi.idle, hi.quit, hi.idle_lt, hi.quit_lt, hi.apart⟩, h.settled.idle_iff, h.settled.quit_stop⟩,
      ⟨?_, ?_⟩, ?_, ?_⟩
    · simp [emit]
    · simp [emit]
    · simp [emit, hworking]
    · simp [emit, hq]
  · next htasks =>
    let t₁ : Thumber := { t with pipe := none }
    have hi₁ : t₁.Installed := ⟨hi.idle, hi.quit, hi.idle_lt, hi.quit_lt, hi.apart⟩
    have hw₁ : t₁.Started := ⟨fun _ => hfiles, fun hn => absurd hcurrent hn⟩
    have hstate : t₁.state ≠ .stopped := fun hs => by simp [t₁, hworking] at hs
    have hs₁ : (HildonThumbnail.releaseResources playback t₁).Sound :=
      .releaseResources hi₁ hw₁ hq ⟨htasks, hfiles, hcurrent⟩ hstate
    have hidle : (HildonThumbnail.releaseResources playback t₁).idleId = 0 := idleId_releaseResources hstate
    have hh : { HildonThumbnail.releaseResources playback t₁ with idleId := 0 } =
        HildonThumbnail.releaseResources playback t₁ := by
      rw [← hidle]
    simp only [Bool.false_eq_true, if_false]
    rw [hh]
    exact hs₁.removeSource hidle source

theorem Sound.process (h : t.Sound) (hq : t.hasQuit = false) {source : Nat} (run : PipeRun)
    (hsource : t.sources.lookup source = some .thumberProcessFunc) :
      (t.handle playback (.process source run)).Sound := by
  obtain ⟨hid, hne⟩ := (h.settled.installed.idle source).mp hsource
  have hworking := h.settled.idle_iff.mp (hid ▸ hne)
  have hi := h.settled.installed
  simp only [Thumber.handle]
  cases hfiles : t.fileQueue with
  | nil =>
    rw [thumberProcessFunc_of_no_files playback run hfiles]
    obtain ⟨signals, hfinish⟩ := finishTask_eq t
    have hs : (finishTask t).Sound := by
      rw [hfinish]
      refine ⟨⟨⟨hi.idle, hi.quit, hi.idle_lt, hi.quit_lt, hi.apart⟩, h.settled.idle_iff, h.settled.quit_stop⟩,
        ⟨fun _ => hfiles, fun hn => absurd rfl hn⟩, ?_, ?_⟩
      · simp [hworking]
      · simp [hq]
    refine .takeTask hs ?_ ?_ ?_ ?_ source <;> rw [hfinish]
    · exact hworking
    · exact hq
    · exact hfiles
  | cons uri files =>
    have hcurrent : t.currentTask ≠ none := fun hn => by simp [h.started.files hn] at hfiles
    obtain ⟨pipe, hpipe⟩ := Option.ne_none_iff_exists'.mp (h.started.pipe hcurrent)
    have hh : thumberProcessFunc playback t run = ({ t with fileQueue := files }.emit (run.signal uri), true) := by
      unfold thumberProcessFunc
      simp [hpipe, hfiles]
    rw [hh]
    refine ⟨⟨⟨hi.idle, hi.quit, hi.idle_lt, hi.quit_lt, hi.apart⟩, h.settled.idle_iff, h.settled.quit_stop⟩,
      ⟨fun hn => absurd hn hcurrent, h.started.pipe⟩, ?_, ?_⟩
    · simp [emit, hworking]
    · simp [emit, hq]

theorem Sound.step (h : t.Sound) {e : ThumberEvent} (hstep : Thumber.step playback t e = some t') : t'.Sound := by
  simp only [Thumber.step, Option.ite_none_right_eq_some, Option.some.injEq] at hstep
  obtain ⟨⟨hq, henabled⟩, rfl⟩ := hstep
  cases e with
  | create uri mimeHint => exact h.addTask hq _
  | createMany uris mimeHint => exact h.addTask hq _
  | hint allowedStop allowedPlay => exact h.hint hq allowedStop allowedPlay
  | request reqState => exact h.request hq reqState
  | reply grantedState => exact h.reply hq grantedState
  | process source run => exact h.process hq run (by simpa [Thumber.enabled] using henabled)
  | quit source => exact h.quitTimeoutCb (by simpa [Thumber.enabled] using henabled)

theorem Sound.run (h : t.Sound) {events : List ThumberEvent}
    (hrun : StepRun.run (Thumber.step playback) t events = some t') : t'.Sound := by
  induction events generalizing t with
  | nil => exact Option.some.inj hrun ▸ h
  | cons e events ih =>
    obtain ⟨u, hu, hr⟩ := Option.bind_eq_some_iff.mp hrun
    exact ih (h.step hu) hr

end Steps

theorem sound_thumberStart (standard cropped : Bool) (quitTimeout : Int) :
    (thumberStart (thumberInit standard cropped quitTimeout)).Sound := by
  have hi : (thumberInit standard cropped quitTimeout).Installed := by
    refine ⟨fun id => ?_, fun id => ?_, Nat.zero_lt_one, Nat.zero_lt_one, fun heq => heq⟩
    · simp only [thumberInit, AList.lookup_empty]
      exact iff_of_false (by simp) (fun hl => hl.2 hl.1)
    · simp [thumberInit]
  have hno : (thumberInit standard cropped quitTimeout).NoWork := ⟨rfl, rfl, rfl⟩
  have hnull : ThumberState.stopped ≠ .null := by simp
  exact .setState hi ⟨fun _ => rfl, fun hn => absurd rfl hn⟩ rfl (.inr (.inr ⟨hnull, hno⟩))

end Thumber

/-- With a negative timeout nothing arms the timer on the way to a stop, and the
work is done all the same. -/
theorem thumber_works_until_done (playback standard cropped : Bool) (quitTimeout : Int) (events : List ThumberEvent)
    (t : Thumber)
    (h : StepRun.run (Thumber.step playback) (thumberStart (thumberInit standard cropped quitTimeout)) events =
      some t) :
    ((∃ id, t.sources.lookup id = some .thumberProcessFunc) ↔ t.state = .working) ∧
      (∀ id, t.sources.lookup id = some .quitTimeoutCb → t.state = .stopped ∨ t.state = .pendingStop) ∧
      (t.state = .stopped ∨ t.state = .pendingStop → t.taskQueue = [] ∧ t.fileQueue = [] ∧ t.currentTask = none) ∧
      (t.hasQuit = true → t.taskQueue = [] ∧ t.fileQueue = [] ∧ t.currentTask = none) := by
  have hs := (Thumber.sound_thumberStart standard cropped quitTimeout).run h
  have hi := hs.settled.installed
  refine ⟨?_, fun id hid => ?_, hs.stop, hs.quit⟩
  · rw [← hs.settled.idle_iff]
    constructor
    · rintro ⟨id, hid⟩
      obtain ⟨heq, hne⟩ := (hi.idle id).mp hid
      exact heq ▸ hne
    · exact fun hne => ⟨t.idleId, (hi.idle _).mpr ⟨rfl, hne⟩⟩
  · obtain ⟨heq, hne⟩ := hi.quit id hid
    exact hs.settled.quit_stop (heq ▸ hne)

/-- One file, from the call to the state STOPPED. -/
def oneFileDone : List ThumberEvent :=
  [.create "file:///a.avi" "video/avi", .process 2 .success, .process 2 .success, .process 2 .success]

theorem thumber_works_until_done_once : ∃ t,
    StepRun.run (Thumber.step false) (thumberStart (thumberInit true false 30)) oneFileDone = some t ∧
      t.state = .stopped ∧
      ((∃ id, t.sources.lookup id = some .thumberProcessFunc) ↔ t.state = .working) ∧
      (∀ id, t.sources.lookup id = some .quitTimeoutCb → t.state = .stopped ∨ t.state = .pendingStop) ∧
      (t.state = .stopped ∨ t.state = .pendingStop → t.taskQueue = [] ∧ t.fileQueue = [] ∧ t.currentTask = none) ∧
      (t.hasQuit = true → t.taskQueue = [] ∧ t.fileQueue = [] ∧ t.currentTask = none) :=
  ⟨_, rfl, rfl, thumber_works_until_done false true false 30 oneFileDone _ rfl⟩

end HildonThumbnail
