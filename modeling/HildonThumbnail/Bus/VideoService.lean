import HildonThumbnail.Thumbnailer.Handshake
import HildonThumbnail.Video.ThumberStates

/-! The daemon's worker and the video thumbnailer as its specialised thumbnailer, two
processes on a bus that keeps the order of what one sends to the other: what the daemon
answers for a video is what the pipeline made of it. -/

namespace HildonThumbnail

def ThumberSignal.incoming? : ThumberSignal → Option Incoming
  | .ready uri => some (.ready uri)
  | .error uri code message => some (.error uri code message)
  | .started _ | .finished _ => none

/-- What is told of a run of the pipeline. -/
def PipeRun.incoming (run : PipeRun) (uri : String) : Incoming :=
  match run with
  | .success => .ready uri
  | .failure (some message) => .error uri 1 message
  | .failure none => .error uri 0 "Undefined error"

def PipeRun.told : PipeRun → Option TurnFailure
  | .success => none
  | .failure (some message) => some (.told message)
  | .failure none => some (.told "Undefined error")

@[simp] theorem PipeRun.incoming_errorMsg (run : PipeRun) (uri : String) :
    (run.incoming uri).errorMsg.map TurnFailure.told = run.told := by
  rcases run with _ | _ | _ <;> rfl

@[simp] theorem PipeRun.incoming_signal (run : PipeRun) (uri : String) :
    (run.signal uri).incoming? = some (run.incoming uri) := by
  rcases run with _ | _ | _ <;> rfl

@[simp] theorem PipeRun.incoming_uri (run : PipeRun) (uri : String) : (run.incoming uri).uri = uri := by
  rcases run with _ | _ | _ <;> rfl

namespace Thumber

/-- The run of the pipeline that an event makes. -/
def ran (t : Thumber) : ThumberEvent → List (String × PipeRun)
  | .process _ run =>
    match t.pipe, t.fileQueue with
    | some _, uri :: _ => [(uri, run)]
    | _, _ => []
  | _ => []

/-- The URIs that have been asked for and not been run. -/
def waiting (t : Thumber) : List String := t.fileQueue ++ t.taskQueue.flatMap TaskInfo.files

end Thumber

structure VideoService where
  daemon : Handshake
  calls : List (String × String)
  thumber : Thumber
  inFlight : List ThumberSignal
  ran : List (String × PipeRun)

/-- `thumber` is any event of the other process, the calls of other clients among them. -/
inductive VideoMove where
  | daemon (l : Handshake.Label)
  | takeCall
  | thumber (e : ThumberEvent)
  | dispatch

namespace VideoService

def start (urlss : List String) (standard cropped : Bool) (quitTimeout : Int) : VideoService where
  daemon := Handshake.start urlss
  calls := []
  thumber := thumberStart (thumberInit standard cropped quitTimeout)
  inFlight := []
  ran := []

def onThumber (playback : Bool) (s : VideoService) (e : ThumberEvent) : Option VideoService :=
  (s.thumber.step playback e).map fun t =>
    { s with
      thumber := t
      inFlight := s.inFlight ++ t.signals.drop s.thumber.signals.length
      ran := s.ran ++ s.thumber.ran e }

/-- A signal that nothing is connected to is dropped. -/
def dispatch (mimeType : String) (s : VideoService) : Option VideoService :=
  match s.inFlight with
  | [] => none
  | x :: inFlight =>
    if s.daemon.main ≠ .idle then none
    else
      match x.incoming? with
      | none => some { s with inFlight := inFlight }
      | some y =>
        if s.daemon.connected y then
          (Handshake.step mimeType s.daemon (.deliver y)).map fun d => { s with daemon := d, inFlight := inFlight }
        else some { s with inFlight := inFlight }

def step (playback : Bool) (mimeType : String) (s : VideoService) : VideoMove → Option VideoService
  | .daemon (.deliver _) => none
  | .daemon l =>
    (Handshake.step mimeType s.daemon l).map fun d =>
      { s with daemon := d, calls := s.calls ++ d.created.drop s.daemon.created.length }
  | .takeCall =>
    match s.calls with
    | [] => none
    | (uri, mimeHint) :: calls =>
      (s.onThumber playback (.create uri mimeHint)).map fun t => { t with calls := calls }
  | .thumber e => s.onThumber playback e
  | .dispatch => s.dispatch mimeType

/-- The turns of the worker do not overlap. -/
def Orderly (s : VideoService) : VideoMove → Prop
  | .daemon l => s.daemon.Orderly l
  | _ => True

instance (s : VideoService) : ∀ m, Decidable (Orderly s m)
  | .daemon l => inferInstanceAs (Decidable (s.daemon.Orderly l))
  | .takeCall | .thumber _ | .dispatch => isTrue trivial

/-- No wait is given up, and no other client calls. -/
def Alone : VideoMove → Bool
  | .daemon .wake => false
  | .thumber (.create _ _) | .thumber (.createMany _ _) => false
  | _ => true

end VideoService

namespace Thumber

section Queue
variable {playback : Bool} {t t' : Thumber} {e : ThumberEvent}

theorem waiting_frame (h : t.SameQueues t') : t'.waiting = t.waiting := by
  obtain ⟨_, hqueue, hfiles, _, _, _⟩ := h
  rw [waiting, waiting, hqueue, hfiles]

theorem step_eq (h : Thumber.step playback t e = some t') :
    t.hasQuit = false ∧ t.enabled playback e = true ∧ t' = t.handle playback e := by
  simp only [Thumber.step, Option.ite_none_right_eq_some, Option.some.injEq] at h
  exact ⟨h.1.1, h.1.2, h.2.symm⟩

theorem waiting_create {uri mimeHint : String} (huri : uri ≠ "") :
    (thumberDbusMethodCreate playback t uri mimeHint).waiting = t.waiting ++ [uri] := by
  rw [thumberDbusMethodCreate, waiting_frame (sameQueues_requestResources playback _)]
  simp [taskInfoAddUri_eq, HildonThumbnail.addTask, waiting, wanted, huri, taskInfoNew]

/-- A dispatch of the idle source runs the pipeline on one URI, or none and moves on
from one task to the next. -/
theorem process_cases (playback : Bool) (t : Thumber) (source : Nat) (run : PipeRun) :
    ∃ more, (t.handle playback (.process source run)).signals = t.signals ++ more ∧
      more.filterMap ThumberSignal.incoming? = (t.ran (.process source run)).map (fun r => r.2.incoming r.1) ∧
      (t.ran (.process source run)).map Prod.fst ++ (t.handle playback (.process source run)).waiting =
        t.waiting := by
  have hremove (r : Thumber × Bool) : (if r.2 then r.1 else r.1.removeSource source).signals = r.1.signals ∧
      (if r.2 then r.1 else r.1.removeSource source).waiting = r.1.waiting := by
    split <;> exact ⟨rfl, rfl⟩
  simp only [Thumber.handle, hremove]
  obtain ⟨finished, hfinish, hnone⟩ : ∃ finished, finishTask t =
      { t with signals := t.signals ++ finished, currentTask := none } ∧
      finished.filterMap ThumberSignal.incoming? = [] := by
    rw [finishTask.eq_def]
    split
    · exact ⟨_, rfl, rfl⟩
    · next hcurrent => exact ⟨[], by rw [List.append_nil, ← hcurrent], rfl⟩
  unfold thumberProcessFunc
  split
  · next pipe uri files hpipe hfiles =>
    refine ⟨[run.signal uri], rfl, ?_, ?_⟩
    · simp [Thumber.ran, hpipe, hfiles]
    · simp [Thumber.ran, hpipe, hfiles, waiting, emit]
  · next hnot =>
    have hran : t.ran (.process source run) = [] := by
      rw [Thumber.ran]
      split
      · next pipe uri files hpipe hfiles => exact absurd hfiles (hnot pipe uri files hpipe)
      · rfl
    rw [hran, hfinish]
    dsimp only
    split
    · next task tasks htasks =>
      refine ⟨finished ++ [.started task.id], by simp [emit], ?_, ?_⟩
      · simp [hnone, ThumberSignal.incoming?]
      · simp [waiting, emit, htasks]
    · next htasks =>
      have hsame := sameQueues_releaseResources playback
        { t with signals := t.signals ++ finished, currentTask := none, pipe := none }
      have hwaiting := waiting_frame hsame
      exact ⟨finished, hsame.2.2.2.2.1, by simpa using hnone, hwaiting⟩

/-- Nothing but runs of the pipeline is told, each as it ended. -/
theorem handle_signals (playback : Bool) (t : Thumber) (e : ThumberEvent) :
    ∃ more, (t.handle playback e).signals = t.signals ++ more ∧
      more.filterMap ThumberSignal.incoming? = (t.ran e).map fun r => r.2.incoming r.1 := by
  have hsame {u : Thumber} (h : t.SameQueues u) : ∃ more, u.signals = t.signals ++ more ∧
      more.filterMap ThumberSignal.incoming? = [] := ⟨[], by simp [h.2.2.2.2.1], rfl⟩
  cases e with
  | create uri mimeHint =>
    refine ⟨[], ?_, rfl⟩
    simp [Thumber.handle, thumberDbusMethodCreate, (sameQueues_requestResources playback _).2.2.2.2.1,
      HildonThumbnail.addTask]
  | createMany uris mimeHint =>
    refine ⟨[], ?_, rfl⟩
    simp [Thumber.handle, thumberDbusMethodCreateMany, (sameQueues_requestResources playback _).2.2.2.2.1,
      HildonThumbnail.addTask]
  | hint allowedStop allowedPlay => exact hsame (sameQueues_hint playback t allowedStop allowedPlay)
  | request reqState => exact hsame (sameQueues_request t reqState)
  | reply grantedState => exact hsame (sameQueues_reply t grantedState)
  | quit source => exact hsame (.refl t)
  | process source run =>
    obtain ⟨more, hsignals, hmore, -⟩ := process_cases playback t source run
    exact ⟨more, hsignals, hmore⟩

/-- Apart from new calls, what waits is run in its order. -/
theorem handle_waiting (playback : Bool) (t : Thumber) (e : ThumberEvent)
    (halone : VideoService.Alone (.thumber e) = true) :
    (t.ran e).map Prod.fst ++ (t.handle playback e).waiting = t.waiting := by
  cases e with
  | create uri mimeHint => cases halone
  | createMany uris mimeHint => cases halone
  | hint allowedStop allowedPlay => exact waiting_frame (sameQueues_hint playback t allowedStop allowedPlay)
  | request reqState => exact waiting_frame (sameQueues_request t reqState)
  | reply grantedState => exact waiting_frame (sameQueues_reply t grantedState)
  | quit source => rfl
  | process source run =>
    obtain ⟨-, -, -, hwaiting⟩ := process_cases playback t source run
    exact hwaiting

end Queue
end Thumber

namespace VideoService

/-- What a move does: to the daemon, to the other process or to the bus between them. -/
inductive Step (playback : Bool) (mimeType : String) (s : VideoService) : VideoMove → VideoService → Prop where
  | daemon {l d} (hstep : Handshake.step mimeType s.daemon l = some d) (hl : l.delivery = 0) :
    Step playback mimeType s (.daemon l)
      { s with daemon := d, calls := s.calls ++ d.created.drop s.daemon.created.length }
  | takeCall {uri mimeHint calls t more} (hcalls : s.calls = (uri, mimeHint) :: calls)
    (hquit : s.thumber.hasQuit = false)
      (ht : t = s.thumber.handle playback (.create uri mimeHint)) (hmore : t.signals = s.thumber.signals ++ more)
      (hnone : more.filterMap ThumberSignal.incoming? = []) :
    Step playback mimeType s .takeCall { s with calls := calls, thumber := t, inFlight := s.inFlight ++ more }
  | thumber {e t more} (hquit : s.thumber.hasQuit = false) (henabled : s.thumber.enabled playback e = true)
      (ht : t = s.thumber.handle playback e) (hmore : t.signals = s.thumber.signals ++ more)
      (hran : more.filterMap ThumberSignal.incoming? = (s.thumber.ran e).map fun r => r.2.incoming r.1) :
    Step playback mimeType s (.thumber e)
      { s with thumber := t, inFlight := s.inFlight ++ more, ran := s.ran ++ s.thumber.ran e }
  | pass {x inFlight} (hflight : s.inFlight = x :: inFlight) (hmain : s.daemon.main = .idle)
      (hx : x.incoming? = none) : Step playback mimeType s .dispatch { s with inFlight := inFlight }
  | deliver {x y inFlight d} (hflight : s.inFlight = x :: inFlight) (hmain : s.daemon.main = .idle)
      (hx : x.incoming? = some y) (hconnected : s.daemon.connected y = true)
      (hstep : Handshake.step mimeType s.daemon (.deliver y) = some d) :
    Step playback mimeType s .dispatch { s with daemon := d, inFlight := inFlight }
  | drop {x y inFlight} (hflight : s.inFlight = x :: inFlight) (hmain : s.daemon.main = .idle)
      (hx : x.incoming? = some y) (hconnected : s.daemon.connected y = false) :
    Step playback mimeType s .dispatch { s with inFlight := inFlight }

section Steps
variable {playback : Bool} {mimeType : String} {s s' : VideoService} {m : VideoMove}

theorem onThumber_eq {e : ThumberEvent} (h : s.onThumber playback e = some s') :
    s.thumber.hasQuit = false ∧ s.thumber.enabled playback e = true ∧
      ∃ more, (s.thumber.handle playback e).signals = s.thumber.signals ++ more ∧
        more.filterMap ThumberSignal.incoming? = ((s.thumber.ran e).map fun r => r.2.incoming r.1) ∧
        s' = { s with
          thumber := s.thumber.handle playback e
          inFlight := s.inFlight ++ more
          ran := s.ran ++ s.thumber.ran e } := by
  obtain ⟨t, ht, rfl⟩ := Option.map_eq_some_iff.mp h
  obtain ⟨hquit, henabled, rfl⟩ := Thumber.step_eq ht
  obtain ⟨more, hmore, hran⟩ := Thumber.handle_signals playback s.thumber e
  exact ⟨hquit, henabled, more, hmore, hran, by rw [hmore, List.drop_left]⟩

theorem Step.of_dispatch (h : s.dispatch mimeType = some s') : Step playback mimeType s .dispatch s' := by
  rw [VideoService.dispatch.eq_def] at h
  split at h
  · cases h
  · next x inFlight hflight =>
    obtain ⟨hmain, h⟩ := Option.ite_none_left_eq_some.mp h
    have hmain : s.daemon.main = .idle := not_not.mp hmain
    split at h
    · next hx => exact Option.some.inj h ▸ .pass hflight hmain hx
    · next y hx =>
      split at h
      · next hconnected =>
        obtain ⟨d, hd, rfl⟩ := Option.map_eq_some_iff.mp h
        exact .deliver hflight hmain hx hconnected hd
      · next hconnected =>
        exact Option.some.inj h ▸ .drop hflight hmain hx (Bool.eq_false_iff.mpr hconnected)

theorem Step.of_step (h : step playback mimeType s m = some s') : Step playback mimeType s m s' := by
  rw [VideoService.step.eq_def] at h
  split at h
  · cases h
  · next l hl =>
    obtain ⟨d, hd, rfl⟩ := Option.map_eq_some_iff.mp h
    refine .daemon hd ?_
    cases l with
    | deliver x => exact absurd rfl (hl x)
    | _ => rfl
  · split at h
    · cases h
    · next uri mimeHint calls hcalls =>
      obtain ⟨u, hu, rfl⟩ := Option.map_eq_some_iff.mp h
      obtain ⟨hquit, -, more, hmore, hran, rfl⟩ := onThumber_eq hu
      simpa [Thumber.ran] using Step.takeCall hcalls hquit rfl hmore hran
  · next e =>
    obtain ⟨hquit, henabled, more, hmore, hran, rfl⟩ := onThumber_eq h
    exact .thumber hquit henabled rfl hmore hran
  · exact .of_dispatch h

/-- The daemon's part of a run, and where all that it was told comes from. -/
structure Traced (mimeType : String) (urlss : List String) (s : VideoService) (labels : List Handshake.Label) :
    Prop where
  run : StepRun.run (Handshake.step mimeType) (Handshake.start urlss) labels = some s.daemon
  orderly : StepRun.Guarded (Handshake.step mimeType) Handshake.Orderly (Handshake.start urlss) labels
  delivered : ∀ x, .deliver x ∈ labels → ∃ r ∈ s.ran, r.2.incoming r.1 = x
  inFlight : ∀ x ∈ s.inFlight.filterMap ThumberSignal.incoming?, ∃ r ∈ s.ran, r.2.incoming r.1 = x

theorem Traced.daemonStep {urlss : List String} {labels : List Handshake.Label} {l : Handshake.Label}
    {d : Handshake}
    (h : Traced mimeType urlss s labels) (hstep : Handshake.step mimeType s.daemon l = some d)
    (ho : s.daemon.Orderly l) (hl : ∀ x, l = .deliver x → ∃ r ∈ s.ran, r.2.incoming r.1 = x)
    {calls : List (String × String)} {inFlight : List ThumberSignal} (hflight : inFlight <:+ s.inFlight) :
    Traced mimeType urlss { s with daemon := d, calls := calls, inFlight := inFlight } (labels ++ [l]) where
  run := (StepRun.run_snoc _).mpr ⟨s.daemon, h.run, hstep⟩
  orderly := StepRun.guarded_append.mpr ⟨h.orderly, fun t ht => by
    obtain rfl := Option.some.inj (h.run.symm.trans ht)
    exact ⟨ho, fun _ _ => trivial⟩⟩
  delivered x hx := by
    rcases List.mem_append.mp hx with hx | hx
    · exact h.delivered x hx
    · exact hl x (List.mem_singleton.mp hx).symm
  inFlight x hx := h.inFlight x ((hflight.sublist.filterMap _).subset hx)

theorem Traced.step {urlss : List String} {labels : List Handshake.Label} (h : Traced mimeType urlss s labels)
    (ho : Orderly s m) (hs : Step playback mimeType s m s') : ∃ labels', Traced mimeType urlss s' labels' := by
  cases hs with
  | @daemon l d hstep hl =>
    exact ⟨_, h.daemonStep hstep ho (fun x hx => by rw [hx] at hl; cases hl) (List.suffix_refl _)⟩
  | takeCall hcalls hquit ht hmore hnone =>
    refine ⟨labels, h.run, h.orderly, h.delivered, ?_⟩
    simpa only [List.filterMap_append, hnone, List.append_nil] using h.inFlight
  | thumber hquit henabled ht hmore hran =>
    refine ⟨labels, h.run, h.orderly, fun x hx => ?_, fun x hx => ?_⟩
    · obtain ⟨r, hr, hrx⟩ := h.delivered x hx
      exact ⟨r, List.mem_append_left _ hr, hrx⟩
    · rw [List.filterMap_append, hran] at hx
      rcases List.mem_append.mp hx with hx | hx
      · obtain ⟨r, hr, hrx⟩ := h.inFlight x hx
        exact ⟨r, List.mem_append_left _ hr, hrx⟩
      · obtain ⟨r, hr, hrx⟩ := List.mem_map.mp hx
        exact ⟨r, List.mem_append_right _ hr, hrx⟩
  | pass hflight hmain hx =>
    refine ⟨labels, h.run, h.orderly, h.delivered, fun x hx' => h.inFlight x ?_⟩
    simpa [hflight, hx] using hx'
  | @deliver x y inFlight d hflight hmain hx hconnected hstep =>
    refine ⟨_, h.daemonStep hstep trivial ?_ ⟨[x], hflight.symm⟩⟩
    rintro z ⟨⟩
    exact h.inFlight y (by simp [hflight, hx])
  | drop hflight hmain hx hconnected =>
    refine ⟨labels, h.run, h.orderly, h.delivered, fun x hx' => h.inFlight x ?_⟩
    rw [hflight]
    exact ((List.sublist_cons_self _ _).filterMap _).subset hx'

end Steps

theorem traced_run {playback : Bool} {mimeType : String} {s : VideoService} {urlss : List String}
    {standard cropped : Bool} {quitTimeout : Int} {moves : List VideoMove}
    (hrun : StepRun.run (step playback mimeType) (start urlss standard cropped quitTimeout) moves = some s)
    (hg : StepRun.Guarded (step playback mimeType) Orderly (start urlss standard cropped quitTimeout) moves) :
    ∃ labels, Traced mimeType urlss s labels := by
  refine StepRun.guarded_invariant (P := fun s => ∃ labels, Traced mimeType urlss s labels) ?_ ⟨[], ?_⟩ hg hrun
  · rintro u m v ⟨labels, h⟩ ho hs
    exact h.step ho (.of_step hs)
  · exact ⟨rfl, trivial, nofun, nofun⟩

/-- What has been told in the turn under way, also when it is not stored yet. -/
def turn (d : Handshake) : List Incoming :=
  if d.worker = .init then []
  else d.heard ++ match d.main with
    | .called x | .storing x => [x]
    | _ => []

/-- Nothing that was asked for is lost or told twice: a call is on the bus or with the
pipeline, what was run is on the bus or told, one for each turn. -/
structure Tokens (s : VideoService) : Prop where
  told : s.daemon.emitted.flatMap TurnAnswer.heard ++ turn s.daemon ++
    s.inFlight.filterMap ThumberSignal.incoming? =
    s.ran.map fun r => r.2.incoming r.1
  asked : s.ran.map Prod.fst ++ s.thumber.waiting ++ s.calls.map Prod.fst = s.daemon.created.map Prod.fst
  waited : s.daemon.gaveUp = false
  answer : ∀ a, s.daemon.worker.answer = some a → a.heard = turn s.daemon ∧ a.gaveUp = false
  emitted : ∀ a ∈ s.daemon.emitted, a.heard.length = 1 ∧ a.gaveUp = false
  rung : s.daemon.heard ≠ [] → s.daemon.info.hadCallback = true ∨ s.daemon.main = .locking ∨
    s.daemon.main = .broadcasting ∨ s.daemon.main = .setting

section Tokens
variable {playback : Bool} {mimeType : String} {urlss : List String} {s s' : VideoService} {m : VideoMove}

/-- With one callback heard and no wait given up, the answer is what was heard. -/
theorem answer_eq {a : TurnAnswer} {x : Incoming} (hjust : a.Justified) (hwaited : a.gaveUp = false)
    (hx : a.heard = [x]) : (a.uri, a.failure) = (x.uri, x.errorMsg.map .told) := by
  obtain ⟨huri, hfailure⟩ := hjust
  rw [hx] at huri hfailure
  refine Prod.ext (huri x (List.mem_singleton_self x)).symm ?_
  change a.failure = x.errorMsg.map .told
  split at hfailure
  · rw [hwaited] at hfailure
    cases hfailure
  · next errorMsg hf =>
    obtain ⟨y, hy, hmsg⟩ := hfailure
    obtain rfl : x = y := Option.some.inj hy
    rw [hf, hmsg]
    rfl
  · next hf =>
    have hready : x = .ready a.uri := Option.some.inj hfailure
    rw [hf, hready]
    rfl

theorem answers_eq {answers : List TurnAnswer}
    (h : ∀ a ∈ answers, a.Justified ∧ a.heard.length = 1 ∧ a.gaveUp = false) :
    answers.map (fun a => (a.uri, a.failure)) =
      (answers.flatMap TurnAnswer.heard).map fun x => (x.uri, x.errorMsg.map .told) := by
  induction answers with
  | nil => rfl
  | cons a answers ih =>
    obtain ⟨hjust, hone, hwaited⟩ := h a List.mem_cons_self
    obtain ⟨x, hx⟩ := List.length_eq_one_iff.mp hone
    rw [List.map_cons, List.flatMap_cons, List.map_append, ← ih fun b hb => h b (List.mem_cons_of_mem _ hb), hx,
      answer_eq hjust hwaited hx]
    rfl

theorem Tokens.emitted_eq (h : Tokens s) (hp : Handshake.Progress mimeType urlss s.daemon) :
    s.daemon.emitted.map (fun a => (a.uri, a.failure)) =
      (s.daemon.emitted.flatMap TurnAnswer.heard).map fun x => (x.uri, x.errorMsg.map .told) :=
  answers_eq fun a ha => ⟨hp.emitted a ha, h.emitted a ha⟩

/-- Of the turn under way there is one token, once it has been asked for. -/
theorem Tokens.owed (h : Tokens s) (hp : Handshake.Progress mimeType urlss s.daemon) :
    (turn s.daemon ++ s.inFlight.filterMap ThumberSignal.incoming?).map Incoming.uri ++ s.thumber.waiting ++
      s.calls.map Prod.fst = s.daemon.asked := by
  have hheard : (s.daemon.emitted.flatMap TurnAnswer.heard).map Incoming.uri =
    s.daemon.emitted.map TurnAnswer.uri := by
    simpa [Function.comp_def] using (congrArg (List.map Prod.fst) (h.emitted_eq hp)).symm
  have htold := congrArg (List.map Incoming.uri) h.told
  rw [List.append_assoc, List.map_append, hheard, List.map_map] at htold
  have hran : (Incoming.uri ∘ fun r : String × PipeRun => r.2.incoming r.1) = Prod.fst := by
    funext r
    exact PipeRun.incoming_uri r.2 r.1
  have hcreated : s.daemon.created.map Prod.fst = s.daemon.emitted.map TurnAnswer.uri ++ s.daemon.asked := by
    rw [hp.created, List.map_map]
    exact List.map_id _
  have hasked := h.asked
  rw [hcreated, ← hran, ← htold] at hasked
  simpa only [List.append_assoc, List.append_cancel_left_eq] using hasked

theorem asked_length (d : Handshake) : d.asked.length ≤ 1 := by
  rw [Handshake.asked.eq_def]
  split <;> simp

theorem asked_of_current (d : Handshake) : d.asked <+: d.current := by
  rw [Handshake.asked.eq_def]
  split
  · exact List.nil_prefix
  · exact List.nil_prefix
  · exact List.nil_prefix
  · exact List.nil_prefix
  · next hinit _ _ _ =>
    have hcurrent : d.current = [d.uri] := if_neg hinit
    exact ⟨[], (List.append_nil _).trans hcurrent.symm⟩

theorem turn_init {d : Handshake} (h : d.worker = .init) : turn d = [] := if_pos h

theorem turn_length (h : Tokens s) (hp : Handshake.Progress mimeType urlss s.daemon) :
    (turn s.daemon).length + (s.inFlight.filterMap ThumberSignal.incoming?).length + s.thumber.waiting.length +
      s.calls.length ≤ 1 := by
  have howed := congrArg List.length (h.owed hp)
  have hasked := asked_length s.daemon
  simp only [List.length_append, List.length_map] at howed
  omega

theorem turn_uri (h : Tokens s) (hp : Handshake.Progress mimeType urlss s.daemon) {x : Incoming}
    (hx : x ∈ turn s.daemon) : x.uri = s.daemon.uri := by
  have hmem : x.uri ∈ s.daemon.asked := by
    rw [← h.owed hp]
    simp only [List.map_append, List.mem_append, List.mem_map]
    exact .inl (.inl (.inl ⟨x, hx, rfl⟩))
  rw [Handshake.asked.eq_def] at hmem
  split at hmem
  · cases hmem
  · cases hmem
  · cases hmem
  · cases hmem
  · exact List.mem_singleton.mp hmem

theorem answer_heard {a : TurnAnswer} (h : a.Justified) (hwaited : a.gaveUp = false) : a.heard ≠ [] := by
  obtain ⟨-, hfailure⟩ := h
  intro hnil
  rw [hnil] at hfailure
  split at hfailure
  · rw [hwaited] at hfailure
    cases hfailure
  · obtain ⟨x, hx, -⟩ := hfailure
    cases hx
  · cases hfailure

theorem of_no_answer {d : Handshake} {p : TurnAnswer → Prop} (h : d.worker.answer = none) :
    ∀ a, d.worker.answer = some a → p a := by
  intro a ha
  rw [h] at ha
  cases ha

/-- A section of the daemon that tells, asks and answers nothing. -/
theorem Tokens.frame (h : Tokens s) {d : Handshake} (hemitted : d.emitted = s.daemon.emitted)
    (hturn : turn d = turn s.daemon) (hcreated : d.created = s.daemon.created)
    (hwaited : d.gaveUp = s.daemon.gaveUp)
    (hanswer : ∀ a, d.worker.answer = some a → s.daemon.worker.answer = some a)
    (hrung : d.heard ≠ [] → d.info.hadCallback = true ∨ d.main = .locking ∨ d.main = .broadcasting ∨
      d.main = .setting) :
    Tokens { s with daemon := d, calls := s.calls ++ d.created.drop s.daemon.created.length } where
  told := by
    change d.emitted.flatMap TurnAnswer.heard ++ turn d ++ _ = _
    rw [hemitted, hturn]
    exact h.told
  asked := by
    change s.ran.map Prod.fst ++ s.thumber.waiting ++ (s.calls ++ d.created.drop _).map Prod.fst =
      d.created.map Prod.fst
    rw [hcreated, List.drop_length, List.append_nil]
    exact h.asked
  waited := hwaited.trans h.waited
  answer a ha := hturn ▸ h.answer a (hanswer a ha)
  emitted := hemitted ▸ h.emitted
  rung := hrung

theorem turn_eq {d : Handshake} (h : d.worker ≠ .init) :
    turn d = d.heard ++ match d.main with
      | .called x | .storing x => [x]
      | _ => [] := if_neg h

theorem Tokens.daemonStep (h : Tokens s) (hsound : Handshake.Sound mimeType urlss s.daemon)
    {l : Handshake.Label} {d : Handshake} (hs : Handshake.Step mimeType s.daemon l d) (ho : s.daemon.Orderly l)
    (hwake : l ≠ .wake) (hl : l.delivery = 0) :
    Tokens { s with daemon := d, calls := s.calls ++ d.created.drop s.daemon.created.length } := by
  have hp := hsound.progress
  have hrung := h.rung
  cases hs with
  | init hpc hrest =>
    have hidle : s.daemon.main = .idle := ho hpc
    refine h.frame rfl ?_ rfl h.waited.symm (of_no_answer rfl) (fun hn => absurd rfl hn)
    simp [turn, hpc, hidle]
  | create hpc =>
    have hasked : s.daemon.asked = [] := by rw [Handshake.asked, hpc]
    refine ⟨?_, ?_, h.waited, of_no_answer rfl, h.emitted, hrung⟩
    · have htold := h.told
      rw [turn_eq (by simp [hpc])] at htold ⊢
      exact htold
    · have hh := h.asked
      simp only [List.drop_left, List.map_append, ← List.append_assoc] at hh ⊢
      rw [hh]
  | @message timedOut hpc =>
    have hcallback : s.daemon.info.hadCallback = true := by
      have hexamined := hsound.wakeup.examined timedOut hpc
      cases timedOut with
      | false => exact hexamined
      | true => exact absurd (h.waited.symm.trans hexamined) (by simp)
    have hheard : s.daemon.heard ≠ [] := hsound.stored.heard (.inl hcallback)
    have hturn : turn s.daemon = s.daemon.heard := by
      have hlength := turn_length h hp
      have hone : 0 < s.daemon.heard.length := List.length_pos_iff.mpr hheard
      rw [turn_eq (by simp [hpc])] at hlength ⊢
      split at hlength
      · simp only [List.length_append, List.length_singleton] at hlength
        omega
      · simp only [List.length_append, List.length_singleton] at hlength
        omega
      · exact List.append_nil _
    have hframe : turn { s.daemon with
        worker := .disconnectError ⟨s.daemon.uri, Handshake.failure timedOut s.daemon.info.errorMsg, s.daemon.heard,
          s.daemon.gaveUp⟩ } = turn s.daemon := by
      rw [turn_eq (by simp), turn_eq (by simp [hpc])]
    refine ⟨?_, ?_, h.waited, ?_, h.emitted, hrung⟩
    · exact hframe ▸ h.told
    · simpa using h.asked
    · rintro a ⟨⟩
      exact ⟨hturn.symm.trans hframe.symm, h.waited⟩
  | @report answer hpc =>
    obtain ⟨hheard, hwaited⟩ := h.answer answer (by rw [hpc]; rfl)
    obtain ⟨-, hjust⟩ := hp.answer answer (by rw [hpc]; rfl)
    have hone : answer.heard.length = 1 := by
      have hlength := turn_length h hp
      have hpos := List.length_pos_iff.mpr (answer_heard hjust hwaited)
      rw [← hheard] at hlength
      omega
    refine ⟨?_, ?_, h.waited, of_no_answer rfl, ?_, hrung⟩
    · have htold := h.told
      rw [← hheard] at htold
      change (s.daemon.emitted ++ [answer]).flatMap TurnAnswer.heard ++ [] ++ _ = _
      simpa using htold
    · simpa using h.asked
    · intro a ha
      rcases List.mem_append.mp ha with ha | ha
      · exact h.emitted a ha
      · obtain rfl := List.mem_singleton.mp ha
        exact ⟨hone, hwaited⟩
  | giveUp hpc hfree => exact absurd rfl hwake
  | deliver hpc hconnected => cases hl
  | @other x hpc huri =>
    by_cases hinit : s.daemon.worker = .init
    · refine h.frame rfl ?_ rfl rfl (fun a ha => ha) (fun hn => by simpa [hpc] using hrung hn)
      exact (if_pos hinit).trans (turn_init hinit).symm
    · -- what is told in this turn is told for its URI
      refine absurd (turn_uri h hp (x := x) ?_).symm huri
      rw [turn_eq hinit, hpc]
      exact List.mem_append_right _ (List.mem_singleton_self x)
  | mine hpc huri =>
    refine h.frame rfl ?_ rfl rfl (fun a ha => ha) (fun hn => by simpa [hpc] using hrung hn)
    simp [turn, hpc]
  | store hpc hinfo hcallback =>
    refine h.frame rfl ?_ rfl rfl (fun a ha => ha) (fun _ => .inr (.inl rfl))
    simp [turn, hpc]
  | enter hpc hfree =>
    refine h.frame rfl ?_ rfl rfl (fun a ha => ha) (fun _ => .inr (.inr (.inl rfl)))
    simp [turn, hpc]
  | broadcast hpc =>
    have hnotify : s.daemon.worker.notify.answer = s.daemon.worker.answer := by cases s.daemon.worker <;> rfl
    refine h.frame rfl ?_ rfl rfl (fun a ha => hnotify ▸ ha) (fun _ => .inr (.inr (.inr rfl)))
    cases hw : s.daemon.worker <;> simp [turn, hpc, hw, TurnPc.notify]
  | set hpc =>
    refine h.frame rfl ?_ rfl rfl (fun a ha => ha) (fun _ => .inl rfl)
    simp [turn, hpc]
  | leave hpc =>
    refine h.frame rfl ?_ rfl rfl (fun a ha => ha) (fun hn => by simpa [hpc] using hrung hn)
    simp [turn, hpc]
  | disconnectError hpc | disconnectReady hpc =>
    refine h.frame rfl ?_ rfl rfl ?_ hrung
    · simp [turn, hpc]
    · rintro a ⟨⟩
      rw [hpc]
      rfl
  | connectReady hpc | connectError hpc | lock hpc | pass hpc | sleep hpc | woken hpc | unlock hpc | examine hpc =>
    refine h.frame rfl ?_ rfl rfl (of_no_answer rfl) hrung
    simp [turn, hpc]

theorem connected_of_asked (hsound : Handshake.Sound mimeType urlss s.daemon) (h : Tokens s)
    (hasked : s.daemon.asked ≠ []) (hturn : turn s.daemon = []) (y : Incoming) : s.daemon.connected y = true := by
  have hnot : ∀ a, s.daemon.worker.answer ≠ some a := by
    intro a ha
    obtain ⟨hheard, hwaited⟩ := h.answer a ha
    exact answer_heard (hsound.progress.answer a ha).2 hwaited (hheard.trans hturn)
  cases y with
  | ready uri =>
    refine hsound.connected.ready.mpr ⟨?_, ?_, ?_⟩
    · exact fun hpc => hasked (by rw [Handshake.asked, hpc])
    · exact fun hpc => hasked (by rw [Handshake.asked, hpc])
    · exact fun a hpc => hnot a (by rw [hpc]; rfl)
  | error uri errorCode errorMsg =>
    refine hsound.connected.error.mpr ⟨?_, ?_, ?_, fun a => ⟨?_, ?_⟩⟩
    · exact fun hpc => hasked (by rw [Handshake.asked, hpc])
    · exact fun hpc => hasked (by rw [Handshake.asked, hpc])
    · exact fun hpc => hasked (by rw [Handshake.asked, hpc])
    · exact fun hpc => hnot a (by rw [hpc]; rfl)
    · exact fun hpc => hnot a (by rw [hpc]; rfl)

/-- A signal on the bus is the one token of the turn: it was asked for and nothing has
been told yet. -/
theorem Tokens.flying (h : Tokens s) (hp : Handshake.Progress mimeType urlss s.daemon) {x : ThumberSignal}
    {inFlight : List ThumberSignal} {y : Incoming} (hflight : s.inFlight = x :: inFlight)
    (hx : x.incoming? = some y) : turn s.daemon = [] ∧ s.daemon.asked ≠ [] := by
  constructor
  · have hlength := turn_length h hp
    rw [hflight, List.filterMap_cons_some hx, List.length_cons] at hlength
    exact List.length_eq_zero_iff.mp (by omega)
  · rw [← h.owed hp, hflight, List.filterMap_cons_some hx]
    simp

theorem Tokens.step (h : Tokens s) (hsound : Handshake.Sound mimeType urlss s.daemon) (hnamed : "" ∉ urlss)
    (ho : Orderly s m) (ha : Alone m = true) (hs : Step playback mimeType s m s') : Tokens s' := by
  have hp := hsound.progress
  cases hs with
  | daemon hstep hl =>
    refine h.daemonStep hsound (.of_step hstep) ho ?_ hl
    rintro rfl
    cases ha
  | @takeCall uri mimeHint calls t more hcalls hquit ht hmore hnone =>
    have huri : uri ≠ "" := by
      rintro rfl
      refine hnamed ?_
      have hasked : "" ∈ s.daemon.asked := by
        rw [← h.owed hp, hcalls]
        simp
      rw [← hp.uris]
      exact List.mem_append_left _ (List.mem_append_right _ ((asked_of_current s.daemon).subset hasked))
    refine ⟨?_, ?_, h.waited, h.answer, h.emitted, h.rung⟩
    · simpa only [List.filterMap_append, hnone, List.append_nil] using h.told
    · have hasked := h.asked
      rw [hcalls] at hasked
      have hwaiting : t.waiting = s.thumber.waiting ++ [uri] := ht ▸ Thumber.waiting_create huri
      simpa [hwaiting] using hasked
  | @thumber e t more hquit henabled ht hmore hran =>
    refine ⟨?_, ?_, h.waited, h.answer, h.emitted, h.rung⟩
    · have htold := h.told
      simp only [List.filterMap_append, hran, List.map_append, ← htold, List.append_assoc]
    · have hwaiting := Thumber.handle_waiting playback s.thumber e ha
      have hasked := h.asked
      rw [← hwaiting, ← ht] at hasked
      simpa only [List.map_append, List.append_assoc] using hasked
  | pass hflight hmain hx =>
    refine ⟨?_, h.asked, h.waited, h.answer, h.emitted, h.rung⟩
    have htold := h.told
    rwa [hflight, List.filterMap_cons_none hx] at htold
  | @deliver x y inFlight d hflight hmain hx hconnected hstep =>
    obtain ⟨hturn, hasked⟩ := h.flying hp hflight hx
    have hpc : s.daemon.worker ≠ .init := fun hpc => hasked (by rw [Handshake.asked, hpc])
    obtain ⟨-, hd⟩ := Option.ite_none_right_eq_some.mp hstep
    obtain rfl := Option.some.inj hd
    have hheard : s.daemon.heard = [] := by
      rw [turn_eq hpc] at hturn
      exact (List.append_eq_nil_iff.mp hturn).1
    have hturn' : turn { s.daemon with main := .called y } = [y] := by simp [turn, hpc, hheard]
    refine ⟨?_, h.asked, h.waited, ?_, h.emitted, fun hn => absurd hheard hn⟩
    · have htold := h.told
      rw [hturn, hflight, List.filterMap_cons_some hx] at htold
      rw [hturn']
      simpa using htold
    · intro a ha
      obtain ⟨hanswer, hwaited⟩ := h.answer a ha
      exact absurd (hanswer.trans hturn) (answer_heard (hp.answer a ha).2 hwaited)
  | @drop x y inFlight hflight hmain hx hconnected =>
    obtain ⟨hturn, hasked⟩ := h.flying hp hflight hx
    rw [connected_of_asked hsound h hasked hturn y] at hconnected
    cases hconnected

theorem run_sound {standard cropped : Bool} {quitTimeout : Int} {moves : List VideoMove}
    (hrun : StepRun.run (VideoService.step playback mimeType) (start urlss standard cropped quitTimeout) moves =
      some s)
    (hg : StepRun.Guarded (VideoService.step playback mimeType) Orderly
      (start urlss standard cropped quitTimeout) moves) :
    Handshake.Sound mimeType urlss s.daemon := by
  obtain ⟨labels, h⟩ := traced_run hrun hg
  exact StepRun.guarded_invariant (fun _ _ _ hs ho hstep => hs.step ho (.of_step hstep)) (.start mimeType urlss)
    h.orderly h.run

theorem run_tokens {standard cropped : Bool} {quitTimeout : Int} {moves : List VideoMove} (hnamed : "" ∉ urlss)
    (hrun : StepRun.run (VideoService.step playback mimeType) (start urlss standard cropped quitTimeout) moves =
      some s)
    (hg : StepRun.Guarded (VideoService.step playback mimeType) Orderly
      (start urlss standard cropped quitTimeout) moves)
    (halone : ∀ m ∈ moves, Alone m = true) : Tokens s := by
  induction moves using List.reverseRecOn generalizing s with
  | nil =>
    obtain rfl := Option.some.inj hrun
    exact ⟨rfl, rfl, rfl, nofun, nofun, fun hn => absurd rfl hn⟩
  | append_singleton moves m ih =>
    obtain ⟨u, hu, hs⟩ := StepRun.run_snoc _ |>.mp hrun
    obtain ⟨hbefore, hlast⟩ := StepRun.guarded_append.mp hg
    have hm : Alone m = true := halone m (List.mem_append_right _ (List.mem_singleton_self m))
    exact (ih hu hbefore fun n hn => halone n (List.mem_append_left _ hn)).step (run_sound hu hbefore) hnamed
      (hlast u hu).1 hm (.of_step hs)

end Tokens

section Thumber
variable {playback : Bool} {t : Thumber}

theorem state_requestResources (h : t.state ≠ .null) : (requestResources playback t).state ≠ .null := by
  rw [requestResources]
  split
  · cases playback <;> simp [thumberSetState]
  · exact h

theorem state_releaseResources (h : t.state ≠ .null) : (releaseResources playback t).state ≠ .null := by
  rw [releaseResources]
  split
  · cases playback <;> simp [thumberSetState]
  · exact h

theorem state_setState {state : ThumberState} (h : state ≠ .null) : (thumberSetState t state).state ≠ .null := h

theorem state_handle (h : t.state ≠ .null) (e : ThumberEvent) : (t.handle playback e).state ≠ .null := by
  cases e with
  | create uri mimeHint => exact state_requestResources h
  | createMany uris mimeHint => exact state_requestResources h
  | hint allowedStop allowedPlay =>
    simp only [Thumber.handle, libplaybackStateHintHandler]
    split
    · split
      · exact state_releaseResources h
      · exact h
    · split
      · exact state_requestResources h
      · exact h
    · exact h
  | request reqState =>
    cases reqState <;> simp only [Thumber.handle, libplaybackStateRequestHandler]
    · split
      · exact state_setState (by simp)
      · exact h
    · split
      · exact state_setState (by simp)
      · exact h
    · exact h
  | reply grantedState =>
    cases grantedState <;> simp only [Thumber.handle, libplaybackStateReply]
    · split
      · exact state_setState (by simp)
      · exact h
    · split
      · exact state_setState (by simp)
      · exact h
    · exact h
  | quit source => exact h
  | process source run =>
    have hfinish : (finishTask t).state = t.state := by
      obtain ⟨signals, hfinish⟩ := Thumber.finishTask_eq t
      rw [hfinish]
    have hremove (r : Thumber × Bool) : (if r.2 then r.1 else r.1.removeSource source).state = r.1.state := by
      split <;> rfl
    simp only [Thumber.handle, hremove]
    unfold thumberProcessFunc
    split
    · exact h
    · dsimp only
      split
      · exact fun hn => h (hfinish.symm.trans hn)
      · exact state_releaseResources (fun hn => h (hfinish.symm.trans hn))

end Thumber

/-- The moves of the two processes and the bus, apart from the events from outside. -/
def Internal : VideoMove → Prop
  | .daemon .worker | .daemon .main | .takeCall | .dispatch | .thumber (.process _ _) => True
  | _ => False

section Ends
variable {playback : Bool} {mimeType : String} {urlss : List String} {s s' : VideoService} {m : VideoMove}

theorem Step.thumber_sound (h : s.thumber.Sound ∧ s.thumber.state ≠ .null) (hs : Step playback mimeType s m s') :
    s'.thumber.Sound ∧ s'.thumber.state ≠ .null := by
  cases hs with
  | @takeCall uri mimeHint calls t more hcalls hquit ht hmore hnone =>
    have hstep : Thumber.step playback s.thumber (.create uri mimeHint) = some t := by
      simp [Thumber.step, hquit, Thumber.enabled, ht]
    exact ⟨h.1.step hstep, ht ▸ state_handle h.2 _⟩
  | @thumber e t more hquit henabled ht hmore hran =>
    have hstep : Thumber.step playback s.thumber e = some t := by simp [Thumber.step, hquit, henabled, ht]
    exact ⟨h.1.step hstep, ht ▸ state_handle h.2 _⟩
  | _ => exact h

/-- The other process does not rest on work that it may do. -/
theorem waiting_nil (h : s.thumber.Sound ∧ s.thumber.state ≠ .null) (hquit : s.thumber.hasQuit = false)
    (hallowed : s.thumber.state ≠ .paused)
    (hstuck : ∀ m, Internal m → Orderly s m → step playback mimeType s m = none) : s.thumber.waiting = [] := by
  obtain ⟨hsound, hnull⟩ := h
  have hstop : s.thumber.state = .stopped ∨ s.thumber.state = .pendingStop := by
    cases hstate : s.thumber.state with
    | null => exact absurd hstate hnull
    | paused => exact absurd hstate hallowed
    | stopped => exact .inl rfl
    | pendingStop => exact .inr rfl
    | working =>
      have hidle : s.thumber.idleId ≠ 0 := hsound.settled.idle_iff.mpr hstate
      have hsource := (hsound.settled.installed.idle s.thumber.idleId).mpr ⟨rfl, hidle⟩
      have hnone := hstuck (.thumber (.process s.thumber.idleId .success)) trivial trivial
      simp [VideoService.step, onThumber, Thumber.step, hquit, Thumber.enabled, hsource] at hnone
  obtain ⟨htasks, hfiles, -⟩ := hsound.stop hstop
  rw [Thumber.waiting, htasks, hfiles]
  rfl

theorem calls_nil (hquit : s.thumber.hasQuit = false)
    (hstuck : ∀ m, Internal m → Orderly s m → step playback mimeType s m = none) : s.calls = [] := by
  cases hcalls : s.calls with
  | nil => rfl
  | cons call calls =>
    have hnone := hstuck .takeCall trivial trivial
    simp [VideoService.step, hcalls, onThumber, Thumber.step, hquit, Thumber.enabled] at hnone

theorem inFlight_nil (hmain : s.daemon.main = .idle)
    (hstuck : ∀ m, Internal m → Orderly s m → step playback mimeType s m = none) : s.inFlight = [] := by
  cases hflight : s.inFlight with
  | nil => rfl
  | cons x inFlight =>
    have hnone := hstuck .dispatch trivial trivial
    simp only [VideoService.step, VideoService.dispatch, hflight, hmain, ne_eq, not_true_eq_false, if_false]
      at hnone
    split at hnone
    · cases hnone
    · split at hnone
      · next y hy hconnected =>
        simp [Handshake.step, Handshake.deliverStep, hmain, hconnected] at hnone
      · cases hnone

/-- Nothing that the two processes and the bus can do by themselves is left only when
the worker is through: it does not wait for a callback that never comes. -/
theorem through_of_stuck (h : Tokens s) (hsound : Handshake.Sound mimeType urlss s.daemon)
    (hthumber : s.thumber.Sound ∧ s.thumber.state ≠ .null) (hquit : s.thumber.hasQuit = false)
    (hallowed : s.thumber.state ≠ .paused)
    (hstuck : ∀ m, Internal m → Orderly s m → step playback mimeType s m = none) :
    s.daemon.worker = .init ∧ s.daemon.rest = [] ∧ s.daemon.main = .idle := by
  have hdaemon : ∀ l, l = .worker ∨ l = .main → s.daemon.Orderly l → Handshake.step mimeType s.daemon l = none := by
    rintro l (rfl | rfl) ho
    · exact Option.map_eq_none_iff.mp (hstuck (.daemon .worker) trivial ho)
    · exact Option.map_eq_none_iff.mp (hstuck (.daemon .main) trivial ho)
  rcases Handshake.enabled_or_done mimeType hsound.mutex with hdone | ⟨l, hl, ho, henabled⟩
  · exact hdone
  · cases l with
    | worker => exact absurd (hdaemon .worker (.inl rfl) ho) henabled
    | main => exact absurd (hdaemon .main (.inr rfl) ho) henabled
    | deliver x => cases hl
    | wake =>
      -- the worker waits and the mutex is free, so no callback is under way either
      obtain ⟨hpc, hfree⟩ : s.daemon.worker = .waiting false ∧ s.daemon.holder = none := by
        by_contra hnot
        exact henabled (if_neg hnot)
      have hmain : s.daemon.main = .idle := by
        have hnone : s.daemon.mainStep = none := hdaemon .main (.inr rfl) trivial
        rw [Handshake.mainStep.eq_def] at hnone
        split at hnone
        · assumption
        all_goals simp [hfree] at hnone
      have howed := congrArg List.length (h.owed hsound.progress)
      rw [calls_nil hquit hstuck, waiting_nil hthumber hquit hallowed hstuck, inFlight_nil hmain hstuck,
        Handshake.asked, hpc, turn_eq (by simp [hpc]), hmain] at howed
      have hheard : s.daemon.heard ≠ [] := by
        rintro hnil
        simp [hnil] at howed
      have hsleeping := (hsound.wakeup.asleep hpc).1
      rcases h.rung hheard with hrung | hrung | hrung | hrung
      · exact absurd (hsleeping.symm.trans hrung) (by simp)
      · exact absurd (hmain.symm.trans hrung) (by simp)
      · exact absurd (hmain.symm.trans hrung) (by simp)
      · exact absurd (hmain.symm.trans hrung) (by simp)

theorem incoming_injective {run : PipeRun} {uri : String} {x : Incoming} (h : run.incoming uri = x) :
    uri = x.uri ∧ run.told = x.errorMsg.map .told := by
  subst h
  exact ⟨(PipeRun.incoming_uri run uri).symm, (PipeRun.incoming_errorMsg run uri).symm⟩

theorem Traced.answered {labels : List Handshake.Label} (h : Traced mimeType urlss s labels)
    {a : TurnAnswer} (ha : a ∈ s.daemon.emitted) (hjust : a.Justified) :
    (a.failure = some .timeout ∧ a.gaveUp = true) ∨ ∃ run, (a.uri, run) ∈ s.ran ∧ a.failure = run.told := by
  have hheard := (Handshake.run_delivered h.run).emitted a ha
  obtain ⟨huri, hfailure⟩ := hjust
  have hlast {x : Incoming} (hx : a.heard.getLast? = some x) (hf : a.failure = x.errorMsg.map .told) :
      ∃ run, (a.uri, run) ∈ s.ran ∧ a.failure = run.told := by
    have hmem := List.mem_of_getLast? hx
    obtain ⟨⟨uri, run⟩, hr, hrx⟩ := h.delivered x (hheard x hmem)
    obtain ⟨hu, htold⟩ := incoming_injective hrx
    have hau : a.uri = uri := (huri x hmem).symm.trans hu.symm
    exact ⟨run, hau ▸ hr, hf.trans htold.symm⟩
  split at hfailure
  · next hf => exact .inl ⟨hf, hfailure⟩
  · next errorMsg hf =>
    obtain ⟨x, hx, hmsg⟩ := hfailure
    exact .inr (hlast hx (by rw [hf, hmsg]; rfl))
  · next hf => exact .inr (hlast hfailure hf)

theorem Tokens.answers (h : Tokens s) (hp : Handshake.Progress mimeType urlss s.daemon) :
    s.daemon.emitted.map (fun a => (a.uri, a.failure)) <+: s.ran.map fun r => (r.1, r.2.told) := by
  rw [h.emitted_eq hp]
  have htold := congrArg (List.map fun x : Incoming => (x.uri, x.errorMsg.map TurnFailure.told)) h.told
  rw [List.append_assoc, List.map_append, List.map_map] at htold
  refine ⟨_, htold.trans (List.map_congr_left fun r _ => ?_)⟩
  simp

end Ends

/-- Whatever the interleaving, the timeouts, the other clients and the events of the
playback library, each answer is a timeout or tells how a run of the pipeline on that URI
ended. With no wait given up and no other client, the answers are those of the runs of
the pipeline, one for each URI and in their order, and the two processes come to rest
only when all are answered. -/
theorem video_service (playback standard cropped : Bool) (quitTimeout : Int) (mimeType : String)
    (urlss : List String) (moves : List VideoMove) (s : VideoService)
    (hrun : StepRun.run (step playback mimeType) (start urlss standard cropped quitTimeout) moves = some s)
    (horderly : StepRun.Guarded (step playback mimeType) Orderly (start urlss standard cropped quitTimeout) moves) :
    (∀ a ∈ s.daemon.emitted, (a.failure = some .timeout ∧ a.gaveUp = true) ∨
      ∃ run, (a.uri, run) ∈ s.ran ∧ a.failure = run.told) ∧
    ("" ∉ urlss → (∀ m ∈ moves, Alone m = true) →
      s.ran.map Prod.fst <+: urlss ∧
      s.daemon.emitted.map (fun a => (a.uri, a.failure)) <+: s.ran.map (fun r => (r.1, r.2.told)) ∧
      (s.thumber.hasQuit = false → s.thumber.state ≠ .paused →
        (∀ m, Internal m → Orderly s m → step playback mimeType s m = none) →
        s.ran.map Prod.fst = urlss ∧
          s.daemon.emitted.map (fun a => (a.uri, a.failure)) = s.ran.map fun r => (r.1, r.2.told))) := by
  obtain ⟨labels, htraced⟩ := traced_run hrun horderly
  have hsound := run_sound hrun horderly
  have hp := hsound.progress
  refine ⟨fun a ha => htraced.answered ha (hp.emitted a ha), fun hnamed halone => ?_⟩
  have htokens := run_tokens hnamed hrun horderly halone
  have hcreated : s.ran.map Prod.fst ++ s.thumber.waiting ++ s.calls.map Prod.fst =
      s.daemon.emitted.map TurnAnswer.uri ++ s.daemon.asked := by
    have hasked := htokens.asked
    rw [hp.created, List.map_map] at hasked
    exact hasked.trans (List.map_id _)
  refine ⟨?_, htokens.answers hp, fun hquit hallowed hstuck => ?_⟩
  · obtain ⟨more, hmore⟩ := asked_of_current s.daemon
    refine ⟨s.thumber.waiting ++ s.calls.map Prod.fst ++ more ++ s.daemon.rest, ?_⟩
    rw [← hp.uris, ← hmore]
    simp only [← List.append_assoc, hcreated]
  · have hthumber : s.thumber.Sound ∧ s.thumber.state ≠ .null :=
      StepRun.run_invariant (P := fun u : VideoService => u.thumber.Sound ∧ u.thumber.state ≠ .null)
        (fun _ _ _ hu hstep => (Step.of_step hstep).thumber_sound hu)
        ⟨Thumber.sound_thumberStart standard cropped quitTimeout, by
          simp [start, thumberStart, thumberSetState]⟩ hrun
    obtain ⟨hpc, hrest, -⟩ := through_of_stuck htokens hsound hthumber hquit hallowed hstuck
    have huris := hp.uris
    simp only [Handshake.current, hpc, hrest, if_true, List.append_nil] at huris
    rw [waiting_nil hthumber hquit hallowed hstuck, calls_nil hquit hstuck, Handshake.asked, hpc] at hcreated
    simp only [List.map_nil, List.append_nil] at hcreated
    refine ⟨hcreated.trans huris, (htokens.answers hp).eq_of_length ?_⟩
    have hlength := congrArg List.length hcreated
    simp only [List.length_map] at hlength ⊢
    exact hlength.symm

def oneVideo : List VideoMove :=
  List.replicate 4 (.daemon .worker) ++
    [.takeCall, .daemon .worker, .thumber (.process 2 .success), .daemon .worker,
      .thumber (.process 2 (.failure (some "no frame"))), .dispatch, .dispatch] ++
    List.replicate 6 (.daemon .main) ++ List.replicate 7 (.daemon .worker)

theorem video_service_one : ∃ s,
    StepRun.run (step false "video/avi") (start ["file:///a.avi"] true false 30) oneVideo = some s ∧
      s.daemon.emitted.map (fun a => (a.uri, a.failure)) = [("file:///a.avi", some (.told "no frame"))] ∧
      s.daemon.emitted.map (fun a => (a.uri, a.failure)) <+: s.ran.map fun r => (r.1, r.2.told) :=
  ⟨_, rfl, rfl,
    ((video_service false true false 30 "video/avi" ["file:///a.avi"] oneVideo _ rfl (by decide)).2 (by decide)
      (by decide)).2.1⟩

end VideoService
end HildonThumbnail
