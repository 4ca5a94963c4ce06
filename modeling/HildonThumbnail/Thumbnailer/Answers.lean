import HildonThumbnail.Daemon.CreateContract
import HildonThumbnail.Gdkpixbuf.Ready
import HildonThumbnail.Thumbnailer.Drain

/-! From a Queue call to what is announced for it: the task of the call keeps
its URLs and its handle, and its worker announces them. -/

namespace HildonThumbnail

/-- The URLs and hints of a Queue call that pushes a task. -/
def Action.push? : Action → Option (List String × Option (List String))
  | .queue _ (some urls) mimeHints _ => some (urls, mimeHints)
  | .queue _ none _ _ | .methodReturn | .unqueue _ | .crashOut | .worker _ => none

def pushes (actions : List Action) : List (List String × Option (List String)) := actions.filterMap Action.push?

theorem pushes_snoc (actions : List Action) (a : Action) :
    pushes (actions ++ [a]) = pushes actions ++ a.push?.toList := by
  cases h : a.push? <;> simp [pushes, List.filterMap_append, h]

/-- What no call and no worker changes of a task. -/
def WorkTask.order (task : WorkTask) : (List String × Option (List String)) × UInt32 :=
  ((task.urls, task.mimeTypes), task.num)

theorem order_markUnqueued (handle : UInt32) (task : WorkTask) : (markUnqueued handle task).order = task.order := by
  rw [markUnqueued]
  split <;> rfl

namespace Thumbnailer

/-- The tasks in memory are those of the pushes, numbered from one on. -/
structure Enrolled (pushes : List (List String × Option (List String))) (s : Thumbnailer) : Prop where
  pushed : s.pushed = pushes.length
  num : s.num = UInt32.ofNat s.pushed
  task : ∀ t e, s.memory.lookup t = some e →
    ∃ push, pushes[t]? = some push ∧ e.task.order = (push, UInt32.ofNat (t + 1))

section Steps
variable {env : Nat → WorkEnv} {s s' : Thumbnailer} {done : List (List String × Option (List String))}

theorem enrolled_foreachTask (h : s.Enrolled done) {f : WorkTask → WorkTask}
    (hf : ∀ task, (f task).order = task.order) :
    (s.foreachTask f).Enrolled done where
  pushed := h.pushed
  num := h.num
  task t e he := by
    rw [lookup_foreachTask] at he
    obtain ⟨o, ho, rfl⟩ := Option.map_eq_some_iff.mp he
    obtain ⟨push, hpush, horder⟩ := h.task t o ho
    refine ⟨push, hpush, ?_⟩
    split
    · exact (hf o.task).trans horder
    · exact horder

theorem enrolled_push (h : s.Enrolled done) (context : Nat) (urls : List String) (mimeHints : Option (List String))
    (handle : UInt32) :
    (thumbnailerQueue s context (some urls) mimeHints handle).Enrolled (done ++ [(urls, mimeHints)]) where
  pushed := by simp [thumbnailerQueue, h.pushed]
  num := by
    have hnum := h.num
    simp only [thumbnailerQueue]
    rw [hnum, UInt32.ofNat_add]
    rfl
  task t e he := by
    have hmarked := enrolled_foreachTask h (order_markUnqueued handle)
    simp only [thumbnailerQueue, KeyTable.lookup_insert_eq] at he
    split at he
    · next ht =>
      obtain rfl := Option.some.inj he
      refine ⟨(urls, mimeHints), by simp [ht, h.pushed], ?_⟩
      rw [ht, UInt32.ofNat_add, ← h.num]
      rfl
    · obtain ⟨push, hpush, horder⟩ := hmarked.task t e he
      refine ⟨push, ?_, horder⟩
      rw [List.getElem?_append_left (List.getElem?_eq_some_iff.mp hpush).1, hpush]

theorem enrolled_worker (h : s.Enrolled done) {u : Nat} (hs : s.worker env u = some s') : s'.Enrolled done := by
  obtain ⟨e, r, out, he, hr, rfl⟩ := worker_eq_some hs
  refine ⟨h.pushed, h.num, fun t e' he' => ?_⟩
  rw [KeyTable.lookup_insert_eq] at he'
  split at he'
  · next ht =>
    obtain rfl := Option.some.inj he'
    obtain ⟨push, hpush, horder⟩ := h.task u e he
    rw [← (remaining_doTheWorkStep hr).1] at horder
    exact ⟨push, ht ▸ hpush, ht ▸ horder⟩
  · exact h.task t e' he'

theorem enrolled_step (h : s.Enrolled done) {a : Action} (hs : s.step env a = some s') :
    s'.Enrolled (done ++ a.push?.toList) := by
  cases a with
  | queue context urls mimeHints handle =>
    obtain ⟨_, hs⟩ := Option.ite_none_right_eq_some.mp hs
    obtain rfl := Option.some.inj hs
    cases urls with
    | none =>
      rw [Action.push?, Option.toList_none, List.append_nil]
      exact ⟨h.pushed, h.num, h.task⟩
    | some urls => exact enrolled_push h context urls mimeHints handle
  | methodReturn =>
    obtain ⟨r, _, rfl⟩ := Option.map_eq_some_iff.mp hs
    rw [Action.push?, Option.toList_none, List.append_nil]
    exact ⟨h.pushed, h.num, h.task⟩
  | unqueue handle =>
    obtain ⟨_, hs⟩ := Option.ite_none_right_eq_some.mp hs
    obtain rfl := Option.some.inj hs
    rw [Action.push?, Option.toList_none, List.append_nil]
    exact enrolled_foreachTask h (order_markUnqueued handle)
  | crashOut =>
    obtain ⟨_, hs⟩ := Option.ite_none_right_eq_some.mp hs
    obtain rfl := Option.some.inj hs
    rw [Action.push?, Option.toList_none, List.append_nil]
    have hcrashed := enrolled_foreachTask h (f := crashQueued) fun _ => rfl
    exact ⟨hcrashed.pushed, hcrashed.num, hcrashed.task⟩
  | worker u =>
    rw [Action.push?, Option.toList_none, List.append_nil]
    exact enrolled_worker h hs

theorem enrolled_run {actions : List Action} (hrun : StepRun.run (step env) thumbnailerInit actions = some s) :
    s.Enrolled (pushes actions) := by
  induction actions using List.reverseRecOn generalizing s with
  | nil =>
    obtain rfl := Option.some.inj hrun
    exact ⟨rfl, rfl, fun t e he => nomatch he⟩
  | append_singleton actions a ih =>
    obtain ⟨u, hu, hstep⟩ := (StepRun.run_snoc _).mp hrun
    rw [pushes_snoc]
    exact enrolled_step (ih hu) hstep

end Steps

end Thumbnailer

section Answers
variable {env : WorkEnv} {e : PoolTask} {cancelled crashed : Prop} {emitted : List Signal}

theorem announced_congr (env : WorkEnv) {task task' : WorkTask} (h : task.order = task'.order) :
    announced env task = announced env task' := by
  obtain ⟨urls, mimeTypes, num, unqueued, dead, hdead⟩ := task
  obtain ⟨urls', mimeTypes', num', unqueued', dead', hdead'⟩ := task'
  obtain ⟨hpush, _⟩ := Prod.mk.inj h
  obtain ⟨rfl, rfl⟩ := Prod.mk.inj hpush
  rfl

theorem uris_of_life (hlife : e.Life env cancelled crashed emitted) (hcancelled : cancelled) :
    emitted.flatMap Signal.uris = [] := by
  have hperm := hlife.unqueued (hlife.unqueued_iff.mpr hcancelled)
  have hnone : (emitted ++ e.remaining env).flatMap Signal.uris = [] :=
    List.Perm.eq_nil (hperm.flatMap_right Signal.uris)
  rw [List.flatMap_append] at hnone
  exact (List.append_eq_nil_iff.mp hnone).1

theorem perm_of_life (hcreate : ∀ module uris mimeType, uris.Nodup →
    (env.create module uris mimeType).Contract uris)
    (hnodup : (announced env e.task).Nodup) (hlife : e.Life env cancelled crashed emitted) (hkept : ¬ cancelled) :
    ((emitted ++ e.remaining env).flatMap Signal.uris).Perm (announced env e.task) := by
  have hqueued : e.task.unqueued = false := by
    cases hu : e.task.unqueued with
    | false => rfl
    | true => exact absurd (hlife.unqueued_iff.mp hu) hkept
  have hbody := workBody_perm env e.task fun g hg module =>
    hcreate module g.uris g.mimeType (nodup_of_mem_groups env e.task hnodup hg)
  rw [hlife.queued hqueued, List.flatMap_cons, List.flatMap_append]
  simpa [Signal.uris] using hbody

end Answers

/-- The task of the t-th push never has announced a URL more often than the call submitted it, in
whatever state the daemon is; it has announced none when it was cancelled, and each as often as it
was submitted when its worker is done. The plugins are relied on for lists without a repeated URI,
and no URL is submitted twice. -/
theorem thumbnailer_answers (env : Nat → WorkEnv)
    (hcreate : ∀ t module uris mimeType, uris.Nodup → ((env t).create module uris mimeType).Contract uris)
    {actions : List Action} {s : Thumbnailer}
    (hrun : StepRun.run (Thumbnailer.step env) thumbnailerInit actions = some s)
    (hcrash : actions.count .crashOut ≤ 1) {t : Nat} {urls : List String} {mimeHints : Option (List String)}
    (hpush : (pushes actions)[t]? = some (urls, mimeHints))
    (hnodup : (announced (env t) (.new urls mimeHints (UInt32.ofNat (t + 1)))).Nodup) :
    ∃ e, s.memory.lookup t = some e ∧ e.task.num = UInt32.ofNat (t + 1) ∧
      (∀ u, ((s.emissions t).flatMap Signal.uris).count u ≤
        (announced (env t) (.new urls mimeHints (UInt32.ofNat (t + 1)))).count u) ∧
      (Cancelled env actions t e.task.num → (s.emissions t).flatMap Signal.uris = []) ∧
      (e.pc = .done → ¬ Cancelled env actions t e.task.num →
        ((s.emissions t).flatMap Signal.uris).Perm
          (announced (env t) (.new urls mimeHints (UInt32.ofNat (t + 1))))) := by
  have henrolled := Thumbnailer.enrolled_run hrun
  have hlt : t < s.pushed := henrolled.pushed ▸ (List.getElem?_eq_some_iff.mp hpush).1
  obtain ⟨e, he⟩ := Thumbnailer.born_run hrun t hlt
  obtain ⟨push, hpush', horder⟩ := henrolled.task t e he
  obtain rfl := Option.some.inj (hpush'.symm.trans hpush)
  have hlife := (lifeAfter_run hrun hcrash).2 t
  simp only [LifeAfter, he] at hlife
  have hannounced : announced (env t) (.new urls mimeHints (UInt32.ofNat (t + 1))) = announced (env t) e.task :=
    announced_congr (env t) horder.symm
  rw [hannounced] at hnodup ⊢
  refine ⟨e, he, congrArg Prod.snd horder, fun u => ?_, uris_of_life hlife, fun hdone hkept => ?_⟩
  · by_cases hc : Cancelled env actions t e.task.num
    · simp [uris_of_life hlife hc]
    · have hperm := perm_of_life (hcreate t) hnodup hlife hc
      rw [← hperm.count_eq, List.flatMap_append, List.count_append]
      exact Nat.le_add_right _ _
  · have hperm := perm_of_life (hcreate t) hnodup hlife hkept
    rwa [show e.remaining (env t) = [] by simp [PoolTask.remaining, hdone], List.append_nil] at hperm

/-- One photo, for which the gdk-pixbuf plugin makes a thumbnail. -/
def pluginEnv : WorkEnv := (Gdkpixbuf.sampleEnv true).work sampleWorkEnv ∅

def onePhoto : List Action :=
  [.queue 0 (some ["file:///a.png"]) none 0, .methodReturn, .worker 0, .worker 0, .worker 0, .worker 0]

theorem pluginEnv_contract (module : GModule) (uris : List String) (mimeType : String) (hnodup : uris.Nodup) :
    (pluginEnv.create module uris mimeType).Contract uris := by
  let remote : Gdkpixbuf.GifFiles := ⟨fun _ => none, id, fun _ => none⟩
  have hscans (uri : String) (i : Nat) (_ : uris[i]? = some uri) : remote.isAnimated 0 i = some false := rfl
  exact Gdkpixbuf.gdkpixbuf_contract hscans hnodup

theorem thumbnailer_answers_onePhoto :
    ∃ s, StepRun.run (Thumbnailer.step fun _ => pluginEnv) thumbnailerInit onePhoto = some s ∧
      s.emissions 0 = [.started 1, .ready ["file:///a.png"], .finished 1] ∧
      ∃ e, s.memory.lookup 0 = some e ∧ e.task.num = 1 ∧
        (∀ u, ((s.emissions 0).flatMap Signal.uris).count u ≤
          (announced pluginEnv (.new ["file:///a.png"] none 1)).count u) ∧
        (Cancelled (fun _ => pluginEnv) onePhoto 0 e.task.num → (s.emissions 0).flatMap Signal.uris = []) ∧
        (e.pc = .done → ¬ Cancelled (fun _ => pluginEnv) onePhoto 0 e.task.num →
          ((s.emissions 0).flatMap Signal.uris).Perm (announced pluginEnv (.new ["file:///a.png"] none 1))) := by
  have hrun : ∃ s, StepRun.run (Thumbnailer.step fun _ => pluginEnv) thumbnailerInit onePhoto = some s ∧
      s.emissions 0 = [.started 1, .ready ["file:///a.png"], .finished 1] := ⟨_, rfl, rfl⟩
  obtain ⟨s, hrun, hout⟩ := hrun
  exact ⟨s, hrun, hout, thumbnailer_answers (fun _ => pluginEnv) (fun _ => pluginEnv_contract) hrun (by decide) rfl
    (List.nodup_singleton _)⟩

end HildonThumbnail
