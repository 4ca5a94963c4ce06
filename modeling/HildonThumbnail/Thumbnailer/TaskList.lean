import HildonThumbnail.Thumbnailer.Tasks

/-! `priv->tasks` holds the pushed tasks that no worker has removed. -/

namespace HildonThumbnail

def WorkerPc.listed : WorkerPc → Bool
  | .pushed | .started => true
  | .working _ | .done => false

/-- The list holds the tasks that are pushed and not removed, each once. -/
structure Thumbnailer.Listed (s : Thumbnailer) : Prop where
  nodup : s.tasks.Nodup
  mem_iff : ∀ t, t ∈ s.tasks ↔ ∃ e, s.memory.lookup t = some e ∧ e.pc.listed = true
  unborn : ∀ t, s.pushed ≤ t → s.memory.lookup t = none

theorem lookup_foreachTask (s : Thumbnailer) (f : WorkTask → WorkTask) (t : Nat) :
    (s.foreachTask f).memory.lookup t =
      (s.memory.lookup t).map fun e => if t ∈ s.tasks then { e with task := f e.task } else e :=
  KeyTable.lookup_mapValues _ s.memory t

theorem listed_foreachTask {s : Thumbnailer} (h : s.Listed) (f : WorkTask → WorkTask) :
    (s.foreachTask f).Listed where
  nodup := h.nodup
  mem_iff t := by
    rw [lookup_foreachTask]
    apply (h.mem_iff t).trans
    constructor
    · rintro ⟨e, he, hl⟩
      refine ⟨_, by rw [he]; rfl, ?_⟩
      split <;> exact hl
    · rintro ⟨e', he', hl⟩
      obtain ⟨e, he, rfl⟩ := Option.map_eq_some_iff.mp he'
      refine ⟨e, he, ?_⟩
      split at hl <;> exact hl
  unborn t ht := by rw [lookup_foreachTask, h.unborn t ht]; rfl

theorem listed_thumbnailerQueue {s : Thumbnailer} (h : s.Listed) (context : Nat)
    (urls mimeHints : Option (List String)) (handle : UInt32) :
    (thumbnailerQueue s context urls mimeHints handle).Listed := by
  cases urls with
  | none => exact ⟨h.nodup, h.mem_iff, h.unborn⟩
  | some urls =>
    have hm := listed_foreachTask h (markUnqueued handle)
    have hnew : s.pushed ∉ s.tasks := by
      intro hmem
      obtain ⟨e, he, _⟩ := (h.mem_iff _).mp hmem
      simp [h.unborn s.pushed le_rfl] at he
    refine ⟨List.nodup_cons.mpr ⟨hnew, h.nodup⟩, fun t => ?_, fun t ht => ?_⟩
    · simp only [thumbnailerQueue, List.mem_cons, KeyTable.lookup_insert_eq]
      by_cases ht : t = s.pushed
      · simp [ht, WorkerPc.listed]
      · simp only [ht, false_or, if_false]
        exact hm.mem_iff t
    · have hlt : s.pushed + 1 ≤ t := ht
      have hne : t ≠ s.pushed := by omega
      simp only [thumbnailerQueue, KeyTable.lookup_insert_eq, hne, if_false]
      exact hm.unborn t (by omega : s.pushed ≤ t)

theorem worker_eq_some {env : Nat → WorkEnv} {s s' : Thumbnailer} {t : Nat}
    (h : s.worker env t = some s') :
    ∃ e r out, s.memory.lookup t = some e ∧ doTheWorkStep (env t) e = some (r, out) ∧
      s' = { s with
        tasks := if e.pc = .started then s.tasks.erase t else s.tasks
        memory := s.memory.insert t r
        sent := s.sent ++ out.map (.signal t) } := by
  rw [Thumbnailer.worker] at h
  cases he : s.memory.lookup t with
  | none => simp [he] at h
  | some e =>
    simp only [he] at h
    split at h
    · obtain ⟨⟨r, out⟩, hr, rfl⟩ := Option.map_eq_some_iff.mp h
      exact ⟨e, r, out, rfl, hr, rfl⟩
    · simp at h

theorem doTheWorkStep_listed {env : WorkEnv} {e r : PoolTask} {out : List Signal}
    (h : doTheWorkStep env e = some (r, out)) : r.pc.listed = true ↔ e.pc = .pushed := by
  rw [doTheWorkStep] at h
  split at h <;> simp only [Option.some.injEq, Prod.mk.injEq, reduceCtorEq] at h <;>
    obtain ⟨rfl, _⟩ := h <;> simp_all [WorkerPc.listed]

theorem listed_worker {env : Nat → WorkEnv} {s s' : Thumbnailer} {t : Nat} (h : s.Listed)
    (hs : s.worker env t = some s') : s'.Listed := by
  obtain ⟨e, r, out, he, hr, rfl⟩ := worker_eq_some hs
  have hlisted := doTheWorkStep_listed hr
  refine ⟨?_, fun u => ?_, fun u hu => ?_⟩
  · dsimp only
    split
    · exact h.nodup.erase t
    · exact h.nodup
  · dsimp only
    rw [KeyTable.lookup_insert_eq]
    by_cases hu : u = t
    · subst hu
      have hmem := h.mem_iff u
      rw [he] at hmem
      rw [if_pos rfl]
      by_cases hpc : e.pc = .started
      · rw [if_pos hpc]
        simp [h.nodup.mem_erase_iff, hlisted, hpc]
      · rw [if_neg hpc, hmem]
        have : e.pc.listed = true ↔ e.pc = .pushed := by
          cases hc : e.pc <;> simp_all [WorkerPc.listed]
        simp [hlisted, this]
    · rw [if_neg hu, ← h.mem_iff u]
      split
      · exact List.mem_erase_of_ne hu
      · rfl
  · dsimp only
    rw [KeyTable.lookup_insert_eq, if_neg, h.unborn u hu]
    rintro rfl
    simp [h.unborn u hu] at he

theorem listed_step {env : Nat → WorkEnv} (s : Thumbnailer) (a : Action) (s' : Thumbnailer)
    (h : s.Listed) (hs : s.step env a = some s') : s'.Listed := by
  cases a with
  | queue context urls mimeHints handle =>
    obtain ⟨_, hs⟩ := Option.ite_none_right_eq_some.mp hs
    obtain rfl := Option.some.inj hs
    exact listed_thumbnailerQueue h context urls mimeHints handle
  | methodReturn =>
    obtain ⟨r, _, rfl⟩ := Option.map_eq_some_iff.mp hs
    exact ⟨h.nodup, h.mem_iff, h.unborn⟩
  | unqueue handle =>
    obtain ⟨_, hs⟩ := Option.ite_none_right_eq_some.mp hs
    obtain rfl := Option.some.inj hs
    exact listed_foreachTask h _
  | crashOut =>
    obtain ⟨_, hs⟩ := Option.ite_none_right_eq_some.mp hs
    obtain rfl := Option.some.inj hs
    have hm := listed_foreachTask h crashQueued
    exact ⟨hm.nodup, hm.mem_iff, hm.unborn⟩
  | worker t => exact listed_worker h hs

theorem listed_init : thumbnailerInit.Listed :=
  ⟨List.nodup_nil, fun t => by simp [thumbnailerInit], fun _ _ => rfl⟩

end HildonThumbnail
