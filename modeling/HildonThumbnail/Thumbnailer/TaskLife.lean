import HildonThumbnail.Thumbnailer.TaskList

/-! What every pushed task has emitted when its worker is done, for any
interleaving of calls, one crash-out and worker sections. -/

namespace HildonThumbnail

/-- The signals the worker of a task still has to emit, by the flags as they are. -/
def PoolTask.remaining (env : WorkEnv) (e : PoolTask) : List Signal :=
  let body := if e.task.unqueued then [] else workBody env e.task
  let last := if e.task.dead then [] else [.finished e.task.num]
  match e.pc with
  | .pushed => .started e.task.num :: (body ++ last)
  | .started => body ++ last
  | .working rest => rest ++ last
  | .done => []

/-- The action reaches the task in the list and asks for no work on it. -/
def Thumbnailer.Cancels (s : Thumbnailer) (a : Action) (t : Nat) (num : UInt32) : Prop :=
  t ∈ s.tasks ∧ (a.names = some num ∨ a = .crashOut)

/-- Between its push and its removal by the worker the task was named by a
call or met a crash-out. -/
def Cancelled (env : Nat → WorkEnv) (actions : List Action) (t : Nat) (num : UInt32) : Prop :=
  ∃ before a after s, actions = before ++ a :: after ∧
    StepRun.run (Thumbnailer.step env) thumbnailerInit before = some s ∧ s.Cancels a t num

theorem cancelled_snoc {env : Nat → WorkEnv} {actions : List Action} {s : Thumbnailer} {a : Action} {t : Nat}
    {num : UInt32} (hrun : StepRun.run (Thumbnailer.step env) thumbnailerInit actions = some s) :
    Cancelled env (actions ++ [a]) t num ↔ Cancelled env actions t num ∨ s.Cancels a t num := by
  constructor
  · rintro ⟨before, b, after, u, happ, hu, hc⟩
    rcases List.eq_nil_or_concat after with rfl | ⟨after, c, rfl⟩
    · obtain ⟨rfl, hb⟩ := List.append_inj' happ rfl
      obtain rfl := List.singleton_inj.mp hb
      rw [hrun] at hu
      obtain rfl := Option.some.inj hu
      exact .inr hc
    · rw [List.concat_eq_append, ← List.cons_append, ← List.append_assoc] at happ
      exact .inl ⟨before, b, after, u, (List.append_inj' happ rfl).1, hu, hc⟩
  · rintro (⟨before, b, after, u, rfl, hu, hc⟩ | hc)
    · exact ⟨before, b, after ++ [a], u, by simp, hu, hc⟩
    · exact ⟨actions, a, [], s, rfl, hrun, hc⟩

/-- What one action does to one task, and what the task emits in it. -/
inductive TaskChange (env : WorkEnv) (cancels : UInt32 → Prop) (a : Action) :
    Option PoolTask → Option PoolTask → List Signal → Prop
  | kept (entry : Option PoolTask) (h : ∀ e ∈ entry, ¬ cancels e.task.num) :
      TaskChange env cancels a entry entry []
  | pushed (e : PoolTask) (hpc : e.pc = .pushed) (hqueued : e.task.unqueued = false) :
      TaskChange env cancels a none (some e) []
  | named (e : PoolTask) (handle : UInt32) (hl : e.pc.listed = true)
      (hc : cancels e.task.num ↔ e.task.num = handle) :
      TaskChange env cancels a (some e) (some { e with task := markUnqueued handle e.task }) []
  | crashed (e : PoolTask) (hl : e.pc.listed = true) (ha : a = .crashOut) (hc : cancels e.task.num) :
      TaskChange env cancels a (some e) (some { e with task := crashQueued e.task })
        [.finished e.task.num]
  | worked (e r : PoolTask) (out : List Signal) (h : doTheWorkStep env e = some (r, out))
      (hc : ¬ cancels e.task.num) : TaskChange env cancels a (some e) (some r) out

section Emissions
variable {s s' : Thumbnailer} (t : Nat)

theorem emissions_append {messages : List Message} (h : s'.sent = s.sent ++ messages) :
    s'.emissions t = s.emissions t ++ messages.filterMap (Message.emission t) := by
  rw [Thumbnailer.emissions, h, List.filterMap_append]
  rfl

theorem emissions_reply {m : Message} (h : s'.sent = s.sent ++ [m]) (hm : m.emission t = none) :
    s'.emissions t = s.emissions t ++ [] := by
  rw [emissions_append t h, List.filterMap_cons_none hm, List.filterMap_nil]

theorem emission_worker (u : Nat) (out : List Signal) :
    (out.map (.signal u)).filterMap (Message.emission t) = if u = t then out else [] := by
  by_cases hu : u = t
  · induction out with
    | nil => simp
    | cons x out ih => simpa [Message.emission, hu] using ih
  · simp [List.filterMap_map, Function.comp_def, Message.emission, hu]

theorem emission_foreach (num? : Nat → Option UInt32) {tasks : List Nat} (hnd : tasks.Nodup) (t : Nat) :
    (tasks.filterMap fun u => (num? u).map fun num => Message.signal u (.finished num)).filterMap
        (Message.emission t) =
      if t ∈ tasks then ((num? t).map Signal.finished).toList else [] := by
  induction tasks with
  | nil => rfl
  | cons u tasks ih =>
    obtain ⟨hu, hnd⟩ := List.nodup_cons.mp hnd
    have ih := ih hnd
    by_cases ht : t = u
    · subst ht
      rw [if_neg hu] at ih
      cases hn : num? t <;> simp [hn, Message.emission, ih]
    · have hne : u ≠ t := Ne.symm ht
      cases hn : num? u <;> simp [hn, Message.emission, ih, ht, hne]

end Emissions

theorem change_worker {env : Nat → WorkEnv} {s s' : Thumbnailer} {u : Nat}
    (hs : s.worker env u = some s') (t : Nat) :
    ∃ out, TaskChange (env t) (s.Cancels (.worker u) t) (.worker u) (s.memory.lookup t)
        (s'.memory.lookup t) out ∧ s'.emissions t = s.emissions t ++ out := by
  have hno (num : UInt32) : ¬ s.Cancels (.worker u) t num := by simp [Thumbnailer.Cancels, Action.names]
  obtain ⟨e, r, out, he, hr, hs'⟩ := worker_eq_some hs
  have hout : s'.emissions t = s.emissions t ++ _ := emissions_append t (congrArg Thumbnailer.sent hs')
  rw [emission_worker] at hout
  have hmem : s'.memory.lookup t = (s.memory.insert u r).lookup t :=
    congrArg (fun x : Thumbnailer => x.memory.lookup t) hs'
  by_cases ht : u = t
  · subst ht
    rw [if_pos rfl] at hout
    refine ⟨out, ?_, hout⟩
    rw [hmem, AList.lookup_insert, he]
    exact .worked e r out hr (hno _)
  · rw [if_neg ht] at hout
    refine ⟨[], ?_, hout⟩
    rw [hmem, AList.lookup_insert_ne (Ne.symm ht)]
    exact .kept _ fun e _ => hno _

section Step
variable {env : Nat → WorkEnv} {s s' : Thumbnailer} (h : s.Listed)
include h

theorem change_named (a : Action) (handle : UInt32) (ha : a.names = some handle) (hne : a ≠ .crashOut) (t : Nat) :
    TaskChange (env t) (s.Cancels a t) a (s.memory.lookup t)
      ((s.foreachTask (markUnqueued handle)).memory.lookup t) [] := by
  have hiff (num : UInt32) : s.Cancels a t num ↔ t ∈ s.tasks ∧ num = handle := by
    simp [Thumbnailer.Cancels, ha, hne, eq_comm]
  rw [lookup_foreachTask]
  by_cases ht : t ∈ s.tasks
  · obtain ⟨e, he, hl⟩ := (h.mem_iff t).mp ht
    rw [he]
    simp only [Option.map_some, ht, if_true]
    exact .named e handle hl (by simp [hiff, ht])
  · simp only [ht, if_false, Option.map_id']
    exact .kept _ fun e _ => by simp [hiff, ht]

theorem change_crashOut (t : Nat) :
    ∃ out, TaskChange (env t) (s.Cancels .crashOut t) .crashOut (s.memory.lookup t)
        ((thumbnailerCrashOut s).memory.lookup t) out ∧
      (thumbnailerCrashOut s).emissions t = s.emissions t ++ out := by
  have hout : (thumbnailerCrashOut s).emissions t = s.emissions t ++ _ := emissions_append t rfl
  rw [emission_foreach s.num? h.nodup] at hout
  have hmem : (thumbnailerCrashOut s).memory.lookup t = (s.foreachTask crashQueued).memory.lookup t := rfl
  rw [lookup_foreachTask] at hmem
  by_cases ht : t ∈ s.tasks
  · obtain ⟨e, he, hl⟩ := (h.mem_iff t).mp ht
    simp only [he, Option.map_some, ht, if_true] at hmem
    simp only [ht, if_true, Thumbnailer.num?, he, Option.map_some, Option.toList_some] at hout
    refine ⟨_, ?_, hout⟩
    rw [hmem, he]
    exact .crashed e hl rfl ⟨ht, .inr rfl⟩
  · simp only [ht, if_false, Option.map_id'] at hmem
    rw [if_neg ht] at hout
    refine ⟨_, ?_, hout⟩
    rw [hmem]
    exact .kept _ fun e _ hc => ht hc.1

theorem change_queue {context : Nat} {urls mimeHints : Option (List String)} {handle : UInt32} (t : Nat) :
    TaskChange (env t) (s.Cancels (.queue context urls mimeHints handle) t)
      (.queue context urls mimeHints handle) (s.memory.lookup t)
      ((thumbnailerQueue s context urls mimeHints handle).memory.lookup t) [] := by
  cases urls with
  | none => exact .kept _ fun e _ => by simp [Thumbnailer.Cancels, Action.names]
  | some urls =>
    simp only [thumbnailerQueue, KeyTable.lookup_insert_eq]
    by_cases ht : t = s.pushed
    · subst ht
      rw [if_pos rfl, h.unborn _ le_rfl]
      exact .pushed _ rfl rfl
    · rw [if_neg ht]
      exact change_named h _ handle rfl (by simp) t

/-- One action changes each task in one of the five ways. -/
theorem change_step {a : Action} (hs : s.step env a = some s') (t : Nat) :
    ∃ out, TaskChange (env t) (s.Cancels a t) a (s.memory.lookup t) (s'.memory.lookup t) out ∧
      s'.emissions t = s.emissions t ++ out := by
  cases a with
  | queue context urls mimeHints handle =>
    obtain ⟨_, hs⟩ := Option.ite_none_right_eq_some.mp hs
    obtain rfl := Option.some.inj hs
    refine ⟨[], change_queue h t, ?_⟩
    cases urls with
    | none => exact emissions_reply t rfl rfl
    | some urls => exact (List.append_nil _).symm
  | methodReturn =>
    obtain ⟨r, _, rfl⟩ := Option.map_eq_some_iff.mp hs
    exact ⟨[], .kept _ fun e _ => by simp [Thumbnailer.Cancels, Action.names], emissions_reply t rfl rfl⟩
  | unqueue handle =>
    obtain ⟨_, hs⟩ := Option.ite_none_right_eq_some.mp hs
    obtain rfl := Option.some.inj hs
    exact ⟨[], change_named h _ handle rfl (by simp) t, (List.append_nil _).symm⟩
  | crashOut =>
    obtain ⟨_, hs⟩ := Option.ite_none_right_eq_some.mp hs
    obtain rfl := Option.some.inj hs
    exact change_crashOut h t
  | worker u => exact change_worker hs t

end Step

theorem remaining_doTheWorkStep {env : WorkEnv} {e r : PoolTask} {out : List Signal}
    (h : doTheWorkStep env e = some (r, out)) :
    r.task = e.task ∧ e.remaining env = out ++ r.remaining env := by
  obtain ⟨task, pool, pc⟩ := e
  cases pc with
  | pushed => cases h; exact ⟨rfl, rfl⟩
  | started => cases h; exact ⟨rfl, rfl⟩
  | working rest =>
    cases rest with
    | nil => cases h; exact ⟨rfl, (List.append_nil _).symm⟩
    | cons x rest => cases h; exact ⟨rfl, rfl⟩
  | done => simp [doTheWorkStep] at h

/-- The flags of a task and what it emits over its life, by whether it was
cancelled and whether there was a crash-out. -/
structure PoolTask.Life (env : WorkEnv) (cancelled crashed : Prop) (e : PoolTask)
    (emitted : List Signal) : Prop where
  unqueued_iff : e.task.unqueued = true ↔ cancelled
  crashed_of_dead : e.task.dead = true → crashed
  queued : e.task.unqueued = false → emitted ++ e.remaining env =
    .started e.task.num :: (workBody env e.task ++ [.finished e.task.num])
  unqueued : e.task.unqueued = true →
    (emitted ++ e.remaining env).Perm [.started e.task.num, .finished e.task.num]

section Life
variable {env : WorkEnv} {cancelled crashed : Prop} {e : PoolTask} {emitted : List Signal}

/-- Unqueued while listed, the worker leaves out the body and nothing else. -/
theorem life_unqueue (h : e.Life env cancelled crashed emitted) (hl : e.pc.listed = true)
    (hq : e.task.unqueued = false) : emitted = if e.pc = .pushed then [] else [.started e.task.num] := by
  have hlife := h.queued hq
  have hdead := dead_of_queued hq
  cases hpc : e.pc with
  | pushed =>
    simp only [PoolTask.remaining, hpc, hq, hdead, Bool.false_eq_true, if_false] at hlife
    simpa using hlife
  | started =>
    simp only [PoolTask.remaining, hpc, hq, hdead, Bool.false_eq_true, if_false] at hlife
    simpa using List.append_cancel_right (hlife.trans (List.singleton_append ..).symm)
  | working rest => simp [WorkerPc.listed, hpc] at hl
  | done => simp [WorkerPc.listed, hpc] at hl

theorem markUnqueued_self (task : WorkTask) : (markUnqueued task.num task).unqueued = true := by
  simp [markUnqueued]

theorem markUnqueued_num (handle : UInt32) (task : WorkTask) : (markUnqueued handle task).num = task.num := by
  rw [markUnqueued]
  split <;> rfl

theorem markUnqueued_dead (handle : UInt32) (task : WorkTask) : (markUnqueued handle task).dead = task.dead := by
  rw [markUnqueued]
  split <;> rfl

theorem markUnqueued_of_unqueued {handle : UInt32} {task : WorkTask} (h : task.unqueued = true) :
    markUnqueued handle task = task := by
  rw [markUnqueued]
  split
  · cases task
    simp_all
  · rfl

theorem remaining_unqueued (env : WorkEnv) {e : PoolTask} (hl : e.pc.listed = true) (hu : e.task.unqueued = true) :
    e.remaining env = (if e.pc = .pushed then [.started e.task.num] else []) ++
      if e.task.dead then [] else [.finished e.task.num] := by
  cases hpc : e.pc with
  | pushed => simp [PoolTask.remaining, hpc, hu]
  | started => simp [PoolTask.remaining, hpc, hu]
  | working rest => simp [WorkerPc.listed, hpc] at hl
  | done => simp [WorkerPc.listed, hpc] at hl

theorem life_marked (h : e.Life env cancelled crashed emitted) (hl : e.pc.listed = true) :
    (emitted ++ ({ e with task := markUnqueued e.task.num e.task }).remaining env).Perm
      [.started e.task.num, .finished e.task.num] := by
  cases hq : e.task.unqueued with
  | true =>
    rw [markUnqueued_of_unqueued hq]
    exact h.unqueued hq
  | false =>
    have hemitted := life_unqueue h hl hq
    have hremaining := remaining_unqueued env
      (e := { e with task := markUnqueued e.task.num e.task }) hl (markUnqueued_self e.task)
    simp only [markUnqueued_num, markUnqueued_dead, dead_of_queued hq, Bool.false_eq_true, if_false] at hremaining
    rw [hemitted, hremaining]
    by_cases hpc : e.pc = .pushed <;> simp [hpc]

theorem life_crashed (h : e.Life env cancelled crashed emitted) (hl : e.pc.listed = true)
    (hd : e.task.dead = false) :
    (emitted ++ [Signal.finished e.task.num] ++ ({ e with task := crashQueued e.task }).remaining env).Perm
      [.started e.task.num, .finished e.task.num] := by
  have hmarked := life_marked h hl
  have hbefore := remaining_unqueued env
    (e := { e with task := markUnqueued e.task.num e.task }) hl (markUnqueued_self e.task)
  have hafter := remaining_unqueued env (e := { e with task := crashQueued e.task }) hl rfl
  simp only [markUnqueued_num, markUnqueued_dead, hd, Bool.false_eq_true, if_false] at hbefore
  simp only [crashQueued, if_true, List.append_nil] at hafter
  rw [hbefore] at hmarked
  change (_ ++ ({ e with task := crashQueued e.task }).remaining env).Perm _
  rw [crashQueued, hafter, List.append_assoc]
  exact (List.perm_append_comm.append_left emitted).trans hmarked

/-- One action keeps the life of a task on course; a second crash-out would
announce a dead task again. -/
theorem life_change {cancels : UInt32 → Prop} {a : Action} {e' : PoolTask} {out : List Signal}
    (h : e.Life env cancelled crashed emitted) (hcrash : crashed → a ≠ .crashOut)
    (hc : TaskChange env cancels a (some e) (some e') out) :
    e'.task.num = e.task.num ∧
      e'.Life env (cancelled ∨ cancels e.task.num) (crashed ∨ a = .crashOut) (emitted ++ out) := by
  cases hc with
  | kept _ hno =>
    have hno := hno e rfl
    refine ⟨rfl, ?_, fun hd => .inl (h.crashed_of_dead hd), ?_, ?_⟩
    · rw [h.unqueued_iff]
      simp [hno]
    · rw [List.append_nil]
      exact h.queued
    · rw [List.append_nil]
      exact h.unqueued
  | named _ handle hl hc =>
    refine ⟨markUnqueued_num handle e.task, ?_⟩
    rw [List.append_nil]
    by_cases hnum : e.task.num = handle
    · subst hnum
      refine ⟨?_, fun hd => ?_, fun hq => ?_, fun _ => ?_⟩
      · simp [markUnqueued_self, hc]
      · rw [markUnqueued_dead] at hd
        exact .inl (h.crashed_of_dead hd)
      · simp [markUnqueued_self] at hq
      · dsimp only
        rw [markUnqueued_num]
        exact life_marked h hl
    · have hsame : markUnqueued handle e.task = e.task := if_neg hnum
      rw [hsame]
      exact ⟨by rw [h.unqueued_iff]; simp [hc, hnum], fun hd => .inl (h.crashed_of_dead hd), h.queued, h.unqueued⟩
  | crashed _ hl ha hc =>
    have hd : e.task.dead = false := by
      cases hd : e.task.dead with
      | false => rfl
      | true => exact absurd ha (hcrash (h.crashed_of_dead hd))
    refine ⟨rfl, by simp [crashQueued, hc], fun _ => .inr ha, fun hq => ?_, fun _ => life_crashed h hl hd⟩
    simp [crashQueued] at hq
  | worked _ _ _ hstep hno =>
    obtain ⟨htask, hremaining⟩ := remaining_doTheWorkStep hstep
    refine ⟨by rw [htask], ?_, fun hd => ?_, fun hq => ?_, fun hu => ?_⟩
    · rw [htask, h.unqueued_iff]
      simp [hno]
    · rw [htask] at hd
      exact .inl (h.crashed_of_dead hd)
    · rw [htask] at hq ⊢
      rw [List.append_assoc, ← hremaining]
      exact h.queued hq
    · rw [htask] at hu ⊢
      rw [List.append_assoc, ← hremaining]
      exact h.unqueued hu

end Life

end HildonThumbnail
