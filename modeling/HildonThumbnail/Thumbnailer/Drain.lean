import Mathlib.Algebra.BigOperators.Group.Finset.Basic
import HildonThumbnail.Thumbnailer.TaskSignals

/-! What the workers owe: from every state of the daemon they alone bring each
pushed task to its Finished, within the threads of the pools. -/

namespace HildonThumbnail

/-- The sections of `do_the_work` that the worker of the task has still to go through. -/
def PoolTask.sections (env : WorkEnv) (e : PoolTask) : Nat :=
  let body := if e.task.unqueued then [] else workBody env e.task
  match e.pc with
  | .pushed => body.length + 3
  | .started => body.length + 2
  | .working rest => rest.length + 1
  | .done => 0

theorem sections_doTheWorkStep {env : WorkEnv} {e r : PoolTask} {out : List Signal}
    (h : doTheWorkStep env e = some (r, out)) : r.sections env + 1 = e.sections env := by
  obtain ⟨task, pool, pc⟩ := e
  cases pc with
  | pushed => cases h; rfl
  | started => cases h; rfl
  | working rest =>
    cases rest with
    | nil => cases h; rfl
    | cons x rest => cases h; rfl
  | done => simp [doTheWorkStep] at h

theorem doTheWorkStep_isSome (env : WorkEnv) {e : PoolTask} (h : e.pc ≠ .done) : (doTheWorkStep env e).isSome := by
  obtain ⟨task, pool, pc⟩ := e
  cases pc with
  | pushed => rfl
  | started => rfl
  | working rest => cases rest <;> rfl
  | done => exact absurd rfl h

/-- How many threads of a pool the task holds. -/
def PoolTask.threads (pool : Pool) (e : PoolTask) : Nat := if e.pool = pool && e.pc.running then 1 else 0

/-- Only the section that starts a task takes a thread. -/
theorem threads_doTheWorkStep {env : WorkEnv} {e r : PoolTask} {out : List Signal}
    (h : doTheWorkStep env e = some (r, out)) (pool : Pool) :
    r.threads pool ≤ e.threads pool ∨ (e.pc = .pushed ∧ e.pool = pool ∧ r.threads pool ≤ e.threads pool + 1) := by
  obtain ⟨task, q, pc⟩ := e
  by_cases hq : q = pool
  · cases pc with
    | pushed =>
      cases h
      exact .inr ⟨rfl, hq, by simp [PoolTask.threads, hq, WorkerPc.running]⟩
    | started =>
      cases h
      exact .inl le_rfl
    | working rest =>
      cases rest with
      | nil =>
        cases h
        exact .inl (by simp [PoolTask.threads, WorkerPc.running])
      | cons x rest =>
        cases h
        exact .inl le_rfl
    | done => simp [doTheWorkStep] at h
  · have hpool : r.pool = q := by
      cases pc with
      | pushed => cases h; rfl
      | started => cases h; rfl
      | working rest => cases rest <;> cases h <;> rfl
      | done => simp [doTheWorkStep] at h
    have hnone : r.threads pool = 0 := by simp [PoolTask.threads, hpool, hq]
    exact .inl (hnone ▸ Nat.zero_le _)

namespace Thumbnailer

def sections (env : Nat → WorkEnv) (s : Thumbnailer) : Nat :=
  ∑ t ∈ Finset.range s.pushed, (s.memory.lookup t).elim 0 (PoolTask.sections (env t))

/-- The tasks of a pool that have a thread. -/
def running (s : Thumbnailer) (pool : Pool) : Nat := s.memory.tally (PoolTask.threads pool)

theorem hasThread_pushed (s : Thumbnailer) {e : PoolTask} (h : e.pc = .pushed) :
    s.hasThread e = true ↔ s.running e.pool < e.pool.maxThreads := by
  simp only [hasThread, h, ne_eq, not_true_eq_false, decide_false, Bool.false_or, decide_eq_true_eq]
  rfl

section Worker
variable {env : Nat → WorkEnv} {s s' : Thumbnailer} {t : Nat}

theorem worker_pushed (h : s.worker env t = some s') : s'.pushed = s.pushed := by
  obtain ⟨_, _, _, _, _, rfl⟩ := worker_eq_some h
  rfl

theorem lt_pushed (h : s.Listed) {e : PoolTask} (he : s.memory.lookup t = some e) : t < s.pushed := by
  by_contra hle
  rw [h.unborn t (Nat.le_of_not_lt hle)] at he
  cases he

/-- A worker does one section of those that are owed. -/
theorem sections_worker (hl : s.Listed) (h : s.worker env t = some s') :
    s'.Listed ∧ s'.sections env + 1 = s.sections env := by
  refine ⟨listed_worker hl h, ?_⟩
  obtain ⟨e, r, out, he, hr, rfl⟩ := worker_eq_some h
  have hmem : t ∈ Finset.range s.pushed := Finset.mem_range.mpr (lt_pushed hl he)
  have hrest : ∑ u ∈ (Finset.range s.pushed).erase t,
      ((s.memory.insert t r).lookup u).elim 0 (PoolTask.sections (env u)) =
        ∑ u ∈ (Finset.range s.pushed).erase t, (s.memory.lookup u).elim 0 (PoolTask.sections (env u)) := by
    refine Finset.sum_congr rfl fun u hu => ?_
    rw [AList.lookup_insert_ne (Finset.ne_of_mem_erase hu)]
  have hone := sections_doTheWorkStep hr
  simp only [sections]
  rw [← Finset.add_sum_erase _ _ hmem, ← Finset.add_sum_erase _ _ hmem, hrest, AList.lookup_insert, he,
    Option.elim_some, Option.elim_some]
  omega

/-- No worker can go on exactly when every task is done: a pool without a
running task has a thread for a pushed one. -/
theorem worker_stuck_iff : (∀ t, s.worker env t = none) ↔ ∀ t e, s.memory.lookup t = some e → e.pc = .done := by
  have hworker : ∀ t e, s.memory.lookup t = some e → e.pc ≠ .done → s.hasThread e = true →
      s.worker env t ≠ none := by
    intro t e he hpc hthread
    obtain ⟨r, hr⟩ := Option.isSome_iff_exists.mp (doTheWorkStep_isSome (env t) hpc)
    simp [worker, he, hthread, hr]
  constructor
  · intro hstuck
    have hidle : ∀ t e, s.memory.lookup t = some e → e.pc = .pushed ∨ e.pc = .done := by
      intro t e he
      by_contra hpc
      obtain ⟨hpushed, hdone⟩ := not_or.mp hpc
      exact hworker t e he hdone (by simp [hasThread, hpushed]) (hstuck t)
    intro t e he
    refine (hidle t e he).resolve_left fun hpushed => ?_
    have hnone : s.running e.pool = 0 := by
      refine KeyTable.tally_eq_zero_iff.mpr fun u o ho => ?_
      rcases hidle u o ho with hpc | hpc <;> simp [PoolTask.threads, hpc, WorkerPc.running]
    have hthread : s.hasThread e = true := by
      rw [s.hasThread_pushed hpushed, hnone]
      cases e.pool <;> simp [Pool.maxThreads]
    exact hworker t e he (by simp [hpushed]) hthread (hstuck t)
  · intro hdone t
    cases he : s.memory.lookup t with
    | none => simp [worker, he]
    | some e =>
      have hpc := hdone t e he
      simp [worker, he, doTheWorkStep, hpc]

theorem sections_eq_zero_iff (hl : s.Listed) :
    s.sections env = 0 ↔ ∀ t e, s.memory.lookup t = some e → e.pc = .done := by
  have hzero (u : Nat) (e : PoolTask) : e.sections (env u) = 0 ↔ e.pc = .done := by
    cases hpc : e.pc <;> simp [PoolTask.sections, hpc]
  rw [sections, Finset.sum_eq_zero_iff]
  constructor
  · intro h t e he
    have hsum := h t (Finset.mem_range.mpr (lt_pushed hl he))
    rw [he] at hsum
    exact (hzero t e).mp hsum
  · intro h t _
    cases he : s.memory.lookup t with
    | none => rfl
    | some e => exact (hzero t e).mpr (h t e he)

end Worker

section Threads
variable {env : Nat → WorkEnv} {s s' : Thumbnailer}

/-- No pool has more running tasks than threads. -/
def WithinThreads (s : Thumbnailer) : Prop := ∀ pool, s.running pool ≤ pool.maxThreads

theorem running_foreachTask (s : Thumbnailer) (f : WorkTask → WorkTask) (pool : Pool) :
    (s.foreachTask f).running pool = s.running pool := by
  refine KeyTable.tally_mapValues (f := PoolTask.threads pool) _ s.memory fun t e => ?_
  by_cases ht : t ∈ s.tasks <;> simp [ht, PoolTask.threads]

theorem withinThreads_worker (h : s.WithinThreads) {t : Nat} (hs : s.worker env t = some s') :
    s'.WithinThreads := by
  have hthread : ∀ e, s.memory.lookup t = some e → s.hasThread e = true := by
    intro e he
    by_contra hno
    simp [worker, he, hno] at hs
  obtain ⟨e, r, out, he, hr, rfl⟩ := worker_eq_some hs
  intro pool
  have hcount := KeyTable.tally_insert_of_lookup (f := PoolTask.threads pool) he r
  have hbound := h pool
  rw [running] at hbound ⊢
  dsimp only
  rcases threads_doTheWorkStep hr pool with hle | ⟨hpushed, rfl, hle⟩
  · omega
  · have hfree := (s.hasThread_pushed hpushed).mp (hthread e he)
    rw [running] at hfree
    omega

theorem withinThreads_step (hl : s.Listed) (h : s.WithinThreads) {a : Action} (hs : s.step env a = some s') :
    s'.WithinThreads := by
  cases a with
  | queue context urls mimeHints handle =>
    obtain ⟨_, hs⟩ := Option.ite_none_right_eq_some.mp hs
    obtain rfl := Option.some.inj hs
    cases urls with
    | none => exact h
    | some urls =>
      intro pool
      have hborn : (s.foreachTask (markUnqueued handle)).memory.lookup s.pushed = none :=
        (listed_foreachTask hl _).unborn s.pushed le_rfl
      have hmarked := running_foreachTask s (markUnqueued handle) pool
      have hbound := h pool
      rw [running] at hmarked
      rw [running]
      simp only [thumbnailerQueue]
      rw [KeyTable.tally_insert_new hborn, hmarked]
      simpa [PoolTask.threads, WorkerPc.running] using hbound
  | methodReturn =>
    obtain ⟨r, _, rfl⟩ := Option.map_eq_some_iff.mp hs
    exact h
  | unqueue handle =>
    obtain ⟨_, hs⟩ := Option.ite_none_right_eq_some.mp hs
    obtain rfl := Option.some.inj hs
    exact fun pool => (running_foreachTask s _ pool).trans_le (h pool)
  | crashOut =>
    obtain ⟨_, hs⟩ := Option.ite_none_right_eq_some.mp hs
    obtain rfl := Option.some.inj hs
    exact fun pool => (running_foreachTask s _ pool).trans_le (h pool)
  | worker t => exact withinThreads_worker h hs

theorem withinThreads_run {actions : List Action}
    (hrun : StepRun.run (step env) thumbnailerInit actions = some s) : s.WithinThreads := by
  have hinit : thumbnailerInit.Listed ∧ thumbnailerInit.WithinThreads := by
    refine ⟨listed_init, fun pool => ?_⟩
    rw [running, thumbnailerInit, KeyTable.tally_empty]
    exact Nat.zero_le _
  have hstep : ∀ (s : Thumbnailer) (a : Action) (t : Thumbnailer), s.Listed ∧ s.WithinThreads →
    s.step env a = some t →
      t.Listed ∧ t.WithinThreads :=
    fun s a t hs h => ⟨listed_step s a t hs.1 h, withinThreads_step hs.1 hs.2 h⟩
  exact (StepRun.run_invariant hstep hinit hrun).2

end Threads

/-- Every pushed task is in memory. -/
def Born (s : Thumbnailer) : Prop := ∀ t < s.pushed, ∃ e, s.memory.lookup t = some e

section Born
variable {env : Nat → WorkEnv} {s s' : Thumbnailer}

theorem born_foreachTask (h : s.Born) (f : WorkTask → WorkTask) : (s.foreachTask f).Born := by
  intro t ht
  obtain ⟨e, he⟩ := h t ht
  rw [lookup_foreachTask, he]
  exact ⟨_, rfl⟩

theorem born_worker (h : s.Born) {u : Nat} (hs : s.worker env u = some s') : s'.Born := by
  obtain ⟨e, r, out, he, hr, rfl⟩ := worker_eq_some hs
  intro t ht
  dsimp only
  rw [KeyTable.lookup_insert_eq]
  split
  · exact ⟨r, rfl⟩
  · exact h t ht

theorem born_step (h : s.Born) {a : Action} (hs : s.step env a = some s') : s'.Born := by
  cases a with
  | queue context urls mimeHints handle =>
    obtain ⟨_, hs⟩ := Option.ite_none_right_eq_some.mp hs
    obtain rfl := Option.some.inj hs
    cases urls with
    | none => exact h
    | some urls =>
      intro t ht
      simp only [thumbnailerQueue, KeyTable.lookup_insert_eq]
      split
      · exact ⟨_, rfl⟩
      · next hne =>
        have hlt : t < s.pushed + 1 := ht
        exact born_foreachTask h (markUnqueued handle) t (by omega : t < s.pushed)
  | methodReturn =>
    obtain ⟨r, _, rfl⟩ := Option.map_eq_some_iff.mp hs
    exact h
  | unqueue handle =>
    obtain ⟨_, hs⟩ := Option.ite_none_right_eq_some.mp hs
    obtain rfl := Option.some.inj hs
    exact born_foreachTask h (markUnqueued handle)
  | crashOut =>
    obtain ⟨_, hs⟩ := Option.ite_none_right_eq_some.mp hs
    obtain rfl := Option.some.inj hs
    exact born_foreachTask h crashQueued
  | worker u => exact born_worker h hs

theorem born_run {actions : List Action}
    (hrun : StepRun.run (step env) thumbnailerInit actions = some s) : s.Born :=
  StepRun.run_invariant (fun _ _ _ h hs => born_step h hs) (fun t ht => absurd ht (Nat.not_lt_zero t)) hrun

end Born

theorem run_workers (env : Nat → WorkEnv) (s : Thumbnailer) (schedule : List Nat) :
    StepRun.run (step env) s (schedule.map .worker) = StepRun.run (worker env) s schedule :=
  StepRun.run_map (step env) Action.worker s schedule

end Thumbnailer

section Drained
variable {env : Nat → WorkEnv} {actions : List Action} {s s' : Thumbnailer}

theorem count_crashOut_workers (actions : List Action) (schedule : List Nat) :
    (actions ++ schedule.map Action.worker).count .crashOut = actions.count .crashOut := by
  have hnone : (schedule.map Action.worker).count .crashOut = 0 := by
    refine List.count_eq_zero.mpr fun hmem => ?_
    obtain ⟨t, _, ht⟩ := List.mem_map.mp hmem
    cases ht
  rw [List.count_append, hnone, Nat.add_zero]

theorem finished_of_done {t : Nat} {e : PoolTask}
    (hlife : e.Life (env t) (Cancelled env actions t e.task.num) (.crashOut ∈ actions) (s.emissions t))
    (hdone : e.pc = .done) : (s.emissions t).count (.finished e.task.num) = 1 := by
  have hremaining : e.remaining (env t) = [] := by simp [PoolTask.remaining, hdone]
  have hqueued := hlife.queued
  have hunqueued := hlife.unqueued
  rw [hremaining, List.append_nil] at hqueued hunqueued
  cases hu : e.task.unqueued with
  | true =>
    rw [(hunqueued hu).count_eq]
    simp
  | false =>
    have hbody : (workBody (env t) e.task).count (.finished e.task.num) = 0 :=
      List.count_eq_zero_of_not_mem fun hmem => workBody_isResult (env t) e.task _ hmem
    rw [hqueued hu]
    simp [List.count_append, hbody]

/-- One call, whose worker has done nothing yet. -/
def oneQueued : List Action := [.queue 0 (some ["file:///a.png"]) none 0, .methodReturn]

end Drained

end HildonThumbnail
