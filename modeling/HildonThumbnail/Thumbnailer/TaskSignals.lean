import Mathlib.Data.List.Induction
import HildonThumbnail.Thumbnailer.TaskLife
import HildonThumbnail.Thumbnailer.WorkSignals

/-! The signals of every pushed task over a run of the thumbnailer. -/

namespace HildonThumbnail

variable {env : Nat → WorkEnv} {actions : List Action} {s : Thumbnailer}

def LifeAfter (env : Nat → WorkEnv) (actions : List Action) (s : Thumbnailer) (t : Nat) : Prop :=
  match s.memory.lookup t with
  | none => s.emissions t = [] ∧ ∀ num, ¬ Cancelled env actions t num
  | some e => e.Life (env t) (Cancelled env actions t e.task.num) (.crashOut ∈ actions) (s.emissions t)

theorem crashOut_once {a : Action} (h : (actions ++ [a]).count .crashOut ≤ 1) (hmem : .crashOut ∈ actions) :
    a ≠ .crashOut := by
  rintro rfl
  have hpos := List.count_pos_iff.mpr hmem
  rw [List.count_append, List.count_singleton_self] at h
  omega

theorem life_pushed {env : WorkEnv} {cancelled crashed : Prop} {e : PoolTask} (hpc : e.pc = .pushed)
    (hq : e.task.unqueued = false) (hc : ¬ cancelled) : e.Life env cancelled crashed [] where
  unqueued_iff := by simp [hq, hc]
  crashed_of_dead hd := absurd hd (by simp [dead_of_queued hq])
  queued _ := by simp [PoolTask.remaining, hpc, hq, dead_of_queued hq]
  unqueued hu := absurd hu (by simp [hq])

theorem lifeAfter_snoc {s' : Thumbnailer} {a : Action} {t : Nat} (hl : s.Listed)
    (hrun : StepRun.run (Thumbnailer.step env) thumbnailerInit actions = some s)
    (hstep : s.step env a = some s') (hcrash : .crashOut ∈ actions → a ≠ .crashOut)
    (h : LifeAfter env actions s t) : LifeAfter env (actions ++ [a]) s' t := by
  obtain ⟨out, hchange, hout⟩ := change_step hl hstep t
  have hmem : (.crashOut ∈ actions ++ [a]) = (.crashOut ∈ actions ∨ a = .crashOut) := by
    simp [eq_comm]
  have hcancelled (num : UInt32) : Cancelled env (actions ++ [a]) t num =
      (Cancelled env actions t num ∨ s.Cancels a t num) := propext (cancelled_snoc hrun)
  rw [LifeAfter] at h ⊢
  cases he : s.memory.lookup t with
  | none =>
    have hfree (num : UInt32) : ¬ s.Cancels a t num := by
      rintro ⟨ht, _⟩
      obtain ⟨e, hsome, _⟩ := (hl.mem_iff t).mp ht
      simp [he] at hsome
    simp only [he] at h
    have hnone (num : UInt32) : ¬ Cancelled env (actions ++ [a]) t num := by
      rw [hcancelled]
      exact not_or.mpr ⟨h.2 num, hfree num⟩
    rw [he] at hchange
    rw [h.1, List.nil_append] at hout
    generalize s'.memory.lookup t = entry at hchange
    cases hchange with
    | kept => exact ⟨hout, hnone⟩
    | pushed e hpc hq =>
      rw [hout]
      exact life_pushed hpc hq (hnone _)
  | some e =>
    simp only [he] at h
    rw [he] at hchange
    cases he' : s'.memory.lookup t with
    | none => rw [he'] at hchange; cases hchange
    | some e' =>
      rw [he'] at hchange
      obtain ⟨hnum, hlife⟩ := life_change h hcrash hchange
      dsimp only
      rw [hmem, hcancelled, hnum, hout]
      exact hlife

theorem lifeAfter_run (hrun : StepRun.run (Thumbnailer.step env) thumbnailerInit actions = some s)
    (hcrash : actions.count .crashOut ≤ 1) : s.Listed ∧ ∀ t, LifeAfter env actions s t := by
  induction actions using List.reverseRecOn generalizing s with
  | nil =>
    obtain rfl := Option.some.inj hrun
    refine ⟨listed_init, fun t => ⟨rfl, ?_⟩⟩
    rintro num ⟨before, a, after, u, happ, _⟩
    simp at happ
  | append_singleton actions a ih =>
    obtain ⟨u, hu, hstep⟩ := (StepRun.run_snoc _).mp hrun
    have hle : actions.count .crashOut ≤ 1 := by
      rw [List.count_append] at hcrash
      omega
    obtain ⟨hl, hlife⟩ := ih hu hle
    exact ⟨listed_step u a s hl hstep, fun t => lifeAfter_snoc hl hu hstep (crashOut_once hcrash) (hlife t)⟩

/-- When its worker is done, a task has emitted Finished once; between its
start and that it has emitted nothing if it was cancelled while it was listed,
and all its results otherwise. -/
theorem thumbnailer_signals (env : Nat → WorkEnv) {actions : List Action} {s : Thumbnailer} {t : Nat}
    {e : PoolTask} (hrun : StepRun.run (Thumbnailer.step env) thumbnailerInit actions = some s)
    (hcrash : actions.count .crashOut ≤ 1) (he : s.memory.lookup t = some e) (hdone : e.pc = .done) :
    (s.emissions t).count (.finished e.task.num) = 1 ∧
      (Cancelled env actions t e.task.num →
        ∀ x ∈ s.emissions t, x = .started e.task.num ∨ x = .finished e.task.num) ∧
      (¬ Cancelled env actions t e.task.num → s.emissions t =
        .started e.task.num :: (workBody (env t) e.task ++ [.finished e.task.num])) := by
  have hlife := (lifeAfter_run hrun hcrash).2 t
  simp only [LifeAfter, he] at hlife
  have hremaining : e.remaining (env t) = [] := by simp [PoolTask.remaining, hdone]
  have hqueued := hlife.queued
  have hunqueued := hlife.unqueued
  rw [hremaining, List.append_nil] at hqueued hunqueued
  cases hu : e.task.unqueued with
  | true =>
    have hperm := hunqueued hu
    refine ⟨?_, fun _ x hx => ?_, fun hc => absurd (hlife.unqueued_iff.mp hu) hc⟩
    · rw [hperm.count_eq]
      simp
    · simpa using hperm.mem_iff.mp hx
  | false =>
    have heq := hqueued hu
    have hc : ¬ Cancelled env actions t e.task.num := by
      rw [← hlife.unqueued_iff, hu]
      simp
    refine ⟨?_, fun h => absurd h hc, fun _ => heq⟩
    have hbody : (workBody (env t) e.task).count (.finished e.task.num) = 0 :=
      List.count_eq_zero_of_not_mem fun hmem => workBody_isResult (env t) e.task _ hmem
    rw [heq]
    simp [List.count_append, hbody]

/-- A call named the handle at any time before the worker removed the task,
be it before the push, or the task was listed at a crash-out. -/
def NamedBeforeRemoval (env : Nat → WorkEnv) (actions : List Action) (t : Nat) (num : UInt32) : Prop :=
  ∃ before a after s, actions = before ++ a :: after ∧
    StepRun.run (Thumbnailer.step env) thumbnailerInit before = some s ∧
    (∀ e, s.memory.lookup t = some e → e.pc.listed = true) ∧
    (a.names = some num ∨ a = .crashOut ∧ t ∈ s.tasks)

def unqueueFirst : List Action :=
  [.unqueue 1, .queue 0 (some ["file:///a.png"]) none 0, .methodReturn, .worker 0, .worker 0, .worker 0, .worker 0]

theorem unqueueFirst_error : ∃ s e,
    StepRun.run (Thumbnailer.step fun _ => missingFileEnv) thumbnailerInit unqueueFirst = some s ∧
      s.memory.lookup 0 = some e ∧ e.pc = .done ∧ e.task.num = 1 ∧
      s.emissions 0 = [.started 1, .error 1 ["file:///a.png"] 1 "No such file", .finished 1] :=
  ⟨_, _, rfl, rfl, rfl, rfl, rfl⟩

theorem thumbnailer_named_unissued : ¬ ∀ (env : Nat → WorkEnv) (actions : List Action) (s : Thumbnailer)
    (t : Nat) (e : PoolTask), StepRun.run (Thumbnailer.step env) thumbnailerInit actions = some s →
    actions.count .crashOut ≤ 1 → s.memory.lookup t = some e → e.pc = .done →
      (s.emissions t).count (.finished e.task.num) = 1 ∧
      (NamedBeforeRemoval env actions t e.task.num →
        ∀ x ∈ s.emissions t, x = .started e.task.num ∨ x = .finished e.task.num) ∧
      (¬ NamedBeforeRemoval env actions t e.task.num → s.emissions t =
        .started e.task.num :: (workBody (env t) e.task ++ [.finished e.task.num])) := by
  intro h
  obtain ⟨s, e, hrun, he, hdone, hnum, hout⟩ := unqueueFirst_error
  have hnamed : NamedBeforeRemoval (fun _ => missingFileEnv) unqueueFirst 0 e.task.num := by
    rw [hnum]
    exact ⟨[], .unqueue 1, _, thumbnailerInit, rfl, rfl, (by simp [thumbnailerInit]), .inl rfl⟩
  have hquiet := (h _ _ s 0 e hrun (by decide) he hdone).2.1 hnamed
  rw [hout, hnum] at hquiet
  exact absurd hquiet (by decide)

theorem thumbnailer_signals_unqueueFirst : ∃ (s : Thumbnailer) (e : PoolTask),
    s.memory.lookup 0 = some e ∧ (s.emissions 0).count (.finished e.task.num) = 1 ∧
      (Cancelled (fun _ => missingFileEnv) unqueueFirst 0 e.task.num →
        ∀ x ∈ s.emissions 0, x = .started e.task.num ∨ x = .finished e.task.num) ∧
      (¬ Cancelled (fun _ => missingFileEnv) unqueueFirst 0 e.task.num → s.emissions 0 =
        .started e.task.num :: (workBody missingFileEnv e.task ++ [.finished e.task.num])) := by
  obtain ⟨s, e, hrun, he, hdone, _⟩ := unqueueFirst_error
  exact ⟨s, e, he, thumbnailer_signals _ hrun (by decide) he hdone⟩

end HildonThumbnail
