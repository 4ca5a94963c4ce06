import HildonThumbnail.Lib.Run

/-! The wait of the big-queue worker for Tracker (`do_the_work`) interleaved,
statement by statement, with `tracker_index_state_changed`
(daemon/thumbnailer.c, HAVE_OSSO). -/

namespace HildonThumbnail

/-- Where the worker is: at the test of the flag, then before each statement of
the block. `blocked` is inside `g_cond_wait`, `woken` too, without the mutex yet. -/
inductive WaitPc
  | testing
  | locking
  | marking
  | waiting
  | blocked
  | woken
  | unlocking
deriving DecidableEq

inductive TrackerPc
  | entered (state : String)
  | locking
  | testing
  | broadcasting
  | clearing
  | unlocking
  | lowering
  | raising
deriving DecidableEq

inductive CmutexOwner
  | worker
  | handler
deriving DecidableEq

/-- `waiting` and `mustWait` are the flags; `handler` is the invocation in
progress. The large pool has one thread and signals come one at a time. -/
structure TrackerWait where
  waiting : Bool
  mustWait : Bool
  cmutex : Option CmutexOwner
  worker : WaitPc
  handler : Option TrackerPc
deriving DecidableEq

inductive TrackerLabel
  | worker
  | wakeup
  | signal (state : String)
  | handler

namespace TrackerWait

def init : TrackerWait := ⟨false, false, none, .testing, none⟩

def lock (s : TrackerWait) (owner : CmutexOwner) : Option TrackerWait :=
  if s.cmutex = none then some { s with cmutex := some owner } else none

def unlock (s : TrackerWait) : TrackerWait := { s with cmutex := none }

def workerStep (s : TrackerWait) : Option TrackerWait :=
  match s.worker with
  | .testing => some { s with worker := if s.mustWait then .locking else .testing }
  | .locking => (s.lock .worker).map fun s => { s with worker := .marking }
  | .marking => some { s with waiting := true, worker := .waiting }
  | .waiting => some { s.unlock with worker := .blocked }
  | .blocked => none
  | .woken => (s.lock .worker).map fun s => { s with worker := .unlocking }
  | .unlocking => some { s.unlock with worker := .testing }

/-- A broadcast, or the wakeup without one that `g_cond_wait` allows. -/
def wake (s : TrackerWait) : TrackerWait :=
  { s with worker := if s.worker = .blocked then .woken else s.worker }

def handlerStep (s : TrackerWait) : Option TrackerWait :=
  match s.handler with
  | none => none
  | some (.entered state) => some { s with handler := some (if state = "Idle" then .locking else .raising) }
  | some .locking => (s.lock .handler).map fun s => { s with handler := some .testing }
  | some .testing => some { s with handler := some (if s.waiting then .broadcasting else .unlocking) }
  | some .broadcasting => some { s.wake with handler := some .clearing }
  | some .clearing => some { s with waiting := false, handler := some .unlocking }
  | some .unlocking => some { s.unlock with handler := some .lowering }
  | some .lowering => some { s with mustWait := false, handler := none }
  | some .raising => some { s with mustWait := true, handler := none }

def step (s : TrackerWait) : TrackerLabel → Option TrackerWait
  | .worker => s.workerStep
  | .wakeup => if s.worker = .blocked then some s.wake else none
  | .signal state => if s.handler = none then some { s with handler := some (.entered state) } else none
  | .handler => s.handlerStep

/-- The worker is blocked, nothing makes it wait and nothing is under way that
would wake it. -/
def Stuck (s : TrackerWait) : Prop := s.worker = .blocked ∧ s.mustWait = false ∧ s.handler = none

instance (s : TrackerWait) : Decidable s.Stuck := inferInstanceAs (Decidable (_ ∧ _ ∧ _))

/-- From the test that found the flag set to the end of the wait. -/
def GoingToWait (s : TrackerWait) : Prop :=
  s.worker = .locking ∨ s.worker = .marking ∨ s.worker = .waiting ∨ s.worker = .blocked

/-- The handler does not lower the flag while the worker relies on it. -/
def LowersInTime (s : TrackerWait) : TrackerLabel → Prop
  | .handler => s.handler = some .lowering → ¬ s.GoingToWait
  | .worker | .wakeup | .signal _ => True

instance (s : TrackerWait) : Decidable s.GoingToWait := inferInstanceAs (Decidable (_ ∨ _))

instance (s : TrackerWait) : ∀ a, Decidable (s.LowersInTime a)
  | .handler => inferInstanceAs (Decidable (_ → _))
  | .worker | .wakeup | .signal _ => isTrue trivial

def FlagHolds (s : TrackerWait) : Prop := s.GoingToWait → s.mustWait = true

/-- Who has the mutex, told from where the two are. -/
structure Owned (s : TrackerWait) : Prop where
  worker : s.cmutex = some .worker ↔ s.worker = .marking ∨ s.worker = .waiting ∨ s.worker = .unlocking
  handler : s.cmutex = some .handler ↔ s.handler = some .testing ∨ s.handler = some .broadcasting ∨
    s.handler = some .clearing ∨ s.handler = some .unlocking

theorem lock_eq_some {s t : TrackerWait} {owner : CmutexOwner} :
    s.lock owner = some t ↔ s.cmutex = none ∧ { s with cmutex := some owner } = t := by
  simp [lock]

theorem workerStep_cases {s t : TrackerWait} (h : s.workerStep = some t) :
    s.worker = .testing ∧ t = { s with worker := if s.mustWait then .locking else .testing } ∨
    s.worker = .locking ∧ s.cmutex = none ∧ t = { s with cmutex := some .worker, worker := .marking } ∨
    s.worker = .marking ∧ t = { s with waiting := true, worker := .waiting } ∨
    s.worker = .waiting ∧ t = { s with cmutex := none, worker := .blocked } ∨
    s.worker = .woken ∧ s.cmutex = none ∧ t = { s with cmutex := some .worker, worker := .unlocking } ∨
    s.worker = .unlocking ∧ t = { s with cmutex := none, worker := .testing } := by
  rw [workerStep] at h
  split at h
  · next hw => exact .inl ⟨hw, (Option.some.inj h).symm⟩
  · next hw =>
    obtain ⟨u, hu, rfl⟩ := Option.map_eq_some_iff.mp h
    obtain ⟨hfree, rfl⟩ := lock_eq_some.mp hu
    exact .inr (.inl ⟨hw, hfree, rfl⟩)
  · next hw => exact .inr (.inr (.inl ⟨hw, (Option.some.inj h).symm⟩))
  · next hw => exact .inr (.inr (.inr (.inl ⟨hw, (Option.some.inj h).symm⟩)))
  · cases h
  · next hw =>
    obtain ⟨u, hu, rfl⟩ := Option.map_eq_some_iff.mp h
    obtain ⟨hfree, rfl⟩ := lock_eq_some.mp hu
    exact .inr (.inr (.inr (.inr (.inl ⟨hw, hfree, rfl⟩))))
  · next hw => exact .inr (.inr (.inr (.inr (.inr ⟨hw, (Option.some.inj h).symm⟩))))

theorem handlerStep_cases {s t : TrackerWait} (h : s.handlerStep = some t) :
    (∃ state, s.handler = some (.entered state) ∧
      t = { s with handler := some (if state = "Idle" then .locking else .raising) }) ∨
    s.handler = some .locking ∧ s.cmutex = none ∧ t = { s with cmutex := some .handler, handler := some .testing } ∨
    s.handler = some .testing ∧ t = { s with handler := some (if s.waiting then .broadcasting else .unlocking) } ∨
    s.handler = some .broadcasting ∧ t = { s.wake with handler := some .clearing } ∨
    s.handler = some .clearing ∧ t = { s with waiting := false, handler := some .unlocking } ∨
    s.handler = some .unlocking ∧ t = { s with cmutex := none, handler := some .lowering } ∨
    s.handler = some .lowering ∧ t = { s with mustWait := false, handler := none } ∨
    s.handler = some .raising ∧ t = { s with mustWait := true, handler := none } := by
  rw [handlerStep] at h
  split at h
  · cases h
  · next state hh => exact .inl ⟨state, hh, (Option.some.inj h).symm⟩
  · next hh =>
    obtain ⟨u, hu, rfl⟩ := Option.map_eq_some_iff.mp h
    obtain ⟨hfree, rfl⟩ := lock_eq_some.mp hu
    exact .inr (.inl ⟨hh, hfree, rfl⟩)
  · next hh => exact .inr (.inr (.inl ⟨hh, (Option.some.inj h).symm⟩))
  · next hh => exact .inr (.inr (.inr (.inl ⟨hh, (Option.some.inj h).symm⟩)))
  · next hh => exact .inr (.inr (.inr (.inr (.inl ⟨hh, (Option.some.inj h).symm⟩))))
  · next hh => exact .inr (.inr (.inr (.inr (.inr (.inl ⟨hh, (Option.some.inj h).symm⟩)))))
  · next hh => exact .inr (.inr (.inr (.inr (.inr (.inr (.inl ⟨hh, (Option.some.inj h).symm⟩))))))
  · next hh => exact .inr (.inr (.inr (.inr (.inr (.inr (.inr ⟨hh, (Option.some.inj h).symm⟩))))))

theorem workerStep_spec {s t : TrackerWait} (h : s.workerStep = some t) :
    t.mustWait = s.mustWait ∧ (t.GoingToWait → s.GoingToWait ∨ s.mustWait = true) := by
  rcases workerStep_cases h with ⟨_, rfl⟩ | ⟨hw, _, rfl⟩ | ⟨hw, rfl⟩ | ⟨hw, rfl⟩ | ⟨_, _, rfl⟩ | ⟨_, rfl⟩
  · refine ⟨rfl, fun hgoing => .inr ?_⟩
    by_contra hm
    simp [GoingToWait, hm] at hgoing
  · exact ⟨rfl, fun _ => .inl (.inl hw)⟩
  · exact ⟨rfl, fun _ => .inl (.inr (.inl hw))⟩
  · exact ⟨rfl, fun _ => .inl (.inr (.inr (.inl hw)))⟩
  · exact ⟨rfl, fun hgoing => by simp [GoingToWait] at hgoing⟩
  · exact ⟨rfl, fun hgoing => by simp [GoingToWait] at hgoing⟩

theorem goingToWait_wake {s : TrackerWait} (h : s.wake.GoingToWait) : s.GoingToWait := by
  by_cases hb : s.worker = .blocked
  · simp [GoingToWait, wake, hb] at h
  · simpa [GoingToWait, wake, hb] using h

theorem handlerStep_spec {s t : TrackerWait} (h : s.handlerStep = some t) :
    (t.GoingToWait → s.GoingToWait) ∧ (s.mustWait = true → s.handler ≠ some .lowering → t.mustWait = true) := by
  rcases handlerStep_cases h with ⟨_, _, rfl⟩ | ⟨_, _, rfl⟩ | ⟨_, rfl⟩ | ⟨_, rfl⟩ | ⟨_, rfl⟩ |
    ⟨_, rfl⟩ | ⟨hh, rfl⟩ |
    ⟨_, rfl⟩
  · exact ⟨id, fun hm _ => hm⟩
  · exact ⟨id, fun hm _ => hm⟩
  · exact ⟨id, fun hm _ => hm⟩
  · exact ⟨goingToWait_wake, fun hm _ => hm⟩
  · exact ⟨id, fun hm _ => hm⟩
  · exact ⟨id, fun hm _ => hm⟩
  · exact ⟨id, fun _ hne => absurd hh hne⟩
  · exact ⟨id, fun _ _ => rfl⟩

theorem flagHolds_step {s t : TrackerWait} {a : TrackerLabel} (hs : s.FlagHolds) (hg : s.LowersInTime a)
    (h : s.step a = some t) : t.FlagHolds := by
  intro hgoing
  cases a with
  | worker =>
    obtain ⟨hm, hcase⟩ := workerStep_spec h
    rw [hm]
    exact (hcase hgoing).elim hs id
  | wakeup =>
    obtain ⟨_, h⟩ := Option.ite_none_right_eq_some.mp h
    obtain rfl := Option.some.inj h
    exact hs (goingToWait_wake hgoing)
  | signal state =>
    obtain ⟨_, h⟩ := Option.ite_none_right_eq_some.mp h
    obtain rfl := Option.some.inj h
    exact hs hgoing
  | handler =>
    obtain ⟨hback, hkeep⟩ := handlerStep_spec h
    exact hkeep (hs (hback hgoing)) fun hlow => hg hlow (hback hgoing)

theorem owned_workerStep {s t : TrackerWait} (hs : s.Owned) (h : s.workerStep = some t) : t.Owned := by
  obtain ⟨hworker, hhandler⟩ := hs
  rcases workerStep_cases h with ⟨hw, rfl⟩ | ⟨_, hfree, rfl⟩ | ⟨hw, rfl⟩ | ⟨hw, rfl⟩ | ⟨_, hfree, rfl⟩ | ⟨hw, rfl⟩
  · refine ⟨?_, hhandler⟩
    cases s.mustWait <;> simpa [hw] using hworker
  · exact ⟨by simp, by simpa [hfree] using hhandler⟩
  · exact ⟨by simpa [hw] using hworker, hhandler⟩
  · have howner : s.cmutex = some .worker := hworker.mpr (.inr (.inl hw))
    exact ⟨by simp, by simpa [howner] using hhandler⟩
  · exact ⟨by simp, by simpa [hfree] using hhandler⟩
  · have howner : s.cmutex = some .worker := hworker.mpr (.inr (.inr hw))
    exact ⟨by simp, by simpa [howner] using hhandler⟩

theorem owned_wake {s : TrackerWait} (hs : s.Owned) : s.wake.Owned := by
  refine ⟨?_, hs.handler⟩
  by_cases hb : s.worker = .blocked
  · simpa [wake, hb] using hs.worker
  · simpa [wake, hb] using hs.worker

theorem owned_handlerStep {s t : TrackerWait} (hs : s.Owned) (h : s.handlerStep = some t) : t.Owned := by
  obtain ⟨hworker, hhandler⟩ := hs
  rcases handlerStep_cases h with ⟨state, hh, rfl⟩ | ⟨_, hfree, rfl⟩ | ⟨hh, rfl⟩ | ⟨hh, rfl⟩ |
    ⟨hh, rfl⟩ | ⟨hh, rfl⟩ |
    ⟨hh, rfl⟩ | ⟨hh, rfl⟩
  · refine ⟨hworker, ?_⟩
    by_cases hidle : state = "Idle" <;> simpa [hh, hidle] using hhandler
  · exact ⟨by simpa [hfree] using hworker, by simp⟩
  · refine ⟨hworker, ?_⟩
    cases s.waiting <;> simpa [hh] using hhandler
  · exact ⟨(owned_wake ⟨hworker, hhandler⟩).worker, by simpa [wake, hh] using hhandler⟩
  · exact ⟨hworker, by simpa [hh] using hhandler⟩
  · have howner : s.cmutex = some .handler := hhandler.mpr (.inr (.inr (.inr hh)))
    exact ⟨by simpa [howner] using hworker, by simp⟩
  · exact ⟨hworker, by simpa [hh] using hhandler⟩
  · exact ⟨hworker, by simpa [hh] using hhandler⟩

theorem owned_step {s t : TrackerWait} {a : TrackerLabel} (hs : s.Owned) (h : s.step a = some t) : t.Owned := by
  cases a with
  | worker => exact owned_workerStep hs h
  | wakeup =>
    obtain ⟨_, h⟩ := Option.ite_none_right_eq_some.mp h
    exact Option.some.inj h ▸ owned_wake hs
  | signal state =>
    obtain ⟨hnone, h⟩ := Option.ite_none_right_eq_some.mp h
    obtain rfl := Option.some.inj h
    exact ⟨hs.worker, by simpa [hnone] using hs.handler⟩
  | handler => exact owned_handlerStep hs h

theorem owned_run {s : TrackerWait} {labels : List TrackerLabel} (h : StepRun.run step init labels = some s) :
    s.Owned := by
  have hinit : init.Owned := ⟨by decide, by decide⟩
  refine StepRun.run_relation (R := fun s t => s.Owned → t.Owned) (fun _ hs => hs) ?_ ?_ h hinit
  · intro s t u hst htu hs
    exact htu (hst hs)
  · intro s a t hstep hs
    exact owned_step hs hstep

/-- Alone, a worker that goes to wait gets stuck once nothing makes it wait. -/
theorem stuck_of_goingToWait {s : TrackerWait} (hs : s.Owned) (hm : s.mustWait = false) (hh : s.handler = none)
    (hgoing : s.GoingToWait) :
    ∃ n t, StepRun.run step s (List.replicate n .worker) = some t ∧ t.Stuck := by
  have hblocked (u : TrackerWait) (hu : u.worker = .blocked ∧ u.mustWait = false ∧ u.handler = none) :
      ∃ n t, StepRun.run step u (List.replicate n .worker) = some t ∧ t.Stuck := ⟨0, u, rfl, hu⟩
  have hnext (u v : TrackerWait) (hstep : u.workerStep = some v)
      (hv : ∃ n t, StepRun.run step v (List.replicate n .worker) = some t ∧ t.Stuck) :
      ∃ n t, StepRun.run step u (List.replicate n .worker) = some t ∧ t.Stuck := by
    obtain ⟨n, t, hrun, ht⟩ := hv
    refine ⟨n + 1, t, ?_, ht⟩
    rw [List.replicate_succ, StepRun.run_cons, step, hstep, Option.bind_some, hrun]
  have hwaiting (u : TrackerWait) (hu : u.worker = .waiting ∧ u.mustWait = false ∧ u.handler = none) :=
    hnext u { u.unlock with worker := .blocked } (by rw [workerStep, hu.1]) (hblocked _ ⟨rfl, hu.2⟩)
  have hmarking (u : TrackerWait) (hu : u.worker = .marking ∧ u.mustWait = false ∧ u.handler = none) :=
    hnext u { u with waiting := true, worker := .waiting } (by rw [workerStep, hu.1]) (hwaiting _ ⟨rfl, hu.2⟩)
  rcases hgoing with hw | hw | hw | hw
  · have hfree : s.cmutex = none := by
      cases hc : s.cmutex with
      | none => rfl
      | some owner =>
        cases owner with
        | worker => simpa [hw] using hs.worker.mp hc
        | handler => simpa [hh] using hs.handler.mp hc
    refine hnext s { s with cmutex := some .worker, worker := .marking } ?_ (hmarking _ ⟨rfl, hm, hh⟩)
    simp [workerStep, hw, lock, hfree]
  · exact hmarking s ⟨hw, hm, hh⟩
  · exact hwaiting s ⟨hw, hm, hh⟩
  · exact hblocked s ⟨hw, hm, hh⟩

/-- Where the flag is lowered too early, the worker can get stuck. -/
theorem stuck_of_lowered {s : TrackerWait} {labels : List TrackerLabel}
    (h : StepRun.run step init labels = some s) (hlow : s.handler = some .lowering) (hgoing : s.GoingToWait) :
    ∃ n t, StepRun.run step init (labels ++ .handler :: List.replicate n .worker) = some t ∧ t.Stuck := by
  let u : TrackerWait := { s with mustWait := false, handler := none }
  have hstep : s.step .handler = some u := by rw [step, handlerStep, hlow]
  have hu : u.Owned := owned_step (owned_run h) hstep
  obtain ⟨n, t, hrun, ht⟩ := stuck_of_goingToWait hu rfl rfl hgoing
  refine ⟨n, t, ?_, ht⟩
  rw [StepRun.run_append, h, Option.bind_some, StepRun.run_cons, hstep, Option.bind_some, hrun]

end TrackerWait

/-- The big-queue worker is never stuck in a run that lowers the flag in time
only. -/
theorem bigThread_not_stuck (labels : List TrackerLabel) (s : TrackerWait)
    (h : StepRun.run TrackerWait.step TrackerWait.init labels = some s)
    (hg : StepRun.Guarded TrackerWait.step TrackerWait.LowersInTime TrackerWait.init labels) : ¬ s.Stuck := by
  have hinit : TrackerWait.init.FlagHolds := fun hgoing => by
    simp [TrackerWait.GoingToWait, TrackerWait.init] at hgoing
  have hs : s.FlagHolds := by
    apply StepRun.guarded_invariant _ hinit hg h
    intro s a t hs ha hstep
    exact TrackerWait.flagHolds_step hs ha hstep
  rintro ⟨hblocked, hfalse, _⟩
  have htrue := hs (.inr (.inr (.inr hblocked)))
  rw [hfalse] at htrue
  cases htrue

def idleAfterWait : List TrackerLabel :=
  [.signal "Indexing", .handler, .handler, .worker, .worker, .worker, .worker, .signal "Idle", .handler, .handler,
    .handler, .handler, .handler, .handler, .handler]

theorem bigThread_not_stuck_idle : ∃ s, StepRun.run TrackerWait.step TrackerWait.init idleAfterWait = some s ∧
    s.worker = .woken ∧ ¬ s.Stuck := by
  refine ⟨⟨false, false, none, .woken, none⟩, by decide, rfl, ?_⟩
  exact bigThread_not_stuck idleAfterWait _ (by decide) (by decide)

/-- The flag is lowered between the worker's test and its wait. -/
def idleBeforeWait : List TrackerLabel :=
  [.signal "Indexing", .handler, .handler, .worker, .signal "Idle", .handler, .handler, .handler,
    .handler, .handler, .worker, .worker, .worker]

theorem bigThread_stuck : ¬ ∀ (labels : List TrackerLabel) (s : TrackerWait),
    StepRun.run TrackerWait.step TrackerWait.init labels = some s → ¬ s.Stuck := by
  intro h
  exact h idleBeforeWait ⟨true, false, none, .blocked, none⟩ (by decide) (by decide)

end HildonThumbnail
