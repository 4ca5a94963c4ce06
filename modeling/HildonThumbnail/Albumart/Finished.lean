import HildonThumbnail.Albumart.Tasks

/-! Which callers of the album art service's Queue get a Finished signal for the
handle they wait for. -/

namespace HildonThumbnail
namespace Albumart

def alive (s : Albumart) (handle : UInt32) : Nat :=
  s.memory.tally fun e => if e.pc = .done then 0 else [e.num].count handle

/-- Every handle given away is finished, that of a live task, or `skipped`. -/
structure Accounts (s : Albumart) (skipped : List UInt32) : Prop where
  fresh : ∀ t, s.pushed ≤ t → s.memory.lookup t = none
  count : ∀ handle, s.finished.count handle + s.alive handle + skipped.count handle = s.returned.count handle

section Steps
variable {env : Nat → AlbumartWorkEnv} {s s' : Albumart} {skipped : List UInt32}

theorem albumartQueue_eq_none {artistOrTitle album kind : String} :
    albumartQueue (some artistOrTitle) (some album) (some kind) = none ↔ artistOrTitle = "" ∧ album = "" := by
  by_cases ha : artistOrTitle = "" <;> by_cases hb : album = "" <;> simp [albumartQueue, ha, hb]

theorem markUnqueued_fields (handle : UInt32) (e : AlbumartPoolTask) :
    (markUnqueued handle e).num = e.num ∧ (markUnqueued handle e).pc = e.pc := by
  rw [markUnqueued]
  split <;> exact ⟨rfl, rfl⟩

theorem alive_foreachTask (s : Albumart) (handle handle' : UInt32) :
    (s.foreachTask (markUnqueued handle)).alive handle' = s.alive handle' := by
  rw [alive, alive, foreachTask]
  dsimp only
  refine KeyTable.tally_mapValues _ s.memory fun t e => ?_
  split
  · rw [(markUnqueued_fields handle e).1, (markUnqueued_fields handle e).2]
  · rfl

theorem lookup_foreachTask_none {f : AlbumartPoolTask → AlbumartPoolTask} {t : Nat} :
    (s.foreachTask f).memory.lookup t = none ↔ s.memory.lookup t = none := by
  rw [Albumart.foreachTask, KeyTable.lookup_mapValues, Option.map_eq_none_iff]

theorem Accounts.unqueue (h : s.Accounts skipped) (handle : UInt32) : (s.unqueue handle).Accounts skipped where
  fresh t ht := lookup_foreachTask_none.mpr (h.fresh t ht)
  count handle' := by
    have hcount := h.count handle'
    have halive := alive_foreachTask s handle handle'
    change s.finished.count handle' + (s.foreachTask (markUnqueued handle)).alive handle' + _ =
      s.returned.count handle'
    omega

theorem Accounts.methodReturn (h : s.Accounts skipped) {context : Nat} {num : UInt32}
    (hr : s.returning = some (context, num)) :
    Accounts { s with returning := none, sent := s.sent ++ [.methodReturn context num] } skipped := by
  refine ⟨h.fresh, fun handle => ?_⟩
  have hcount := h.count handle
  simpa [finished, returned, alive, hr, List.filterMap_cons, AlbumartMessage.finishes,
    AlbumartMessage.returns] using hcount

theorem Accounts.queue (h : s.Accounts skipped) (hr : s.returning = none) (context : Nat)
    (artistOrTitle album kind : String) (handle : UInt32) :
    (s.queue context artistOrTitle album kind handle).Accounts
      (skipped ++ if artistOrTitle = "" ∧ album = "" then [s.num + 1] else []) := by
  rw [Albumart.queue]
  cases htask : albumartQueue (some artistOrTitle) (some album) (some kind) with
  | none =>
    rw [if_pos (albumartQueue_eq_none.mp htask)]
    refine ⟨h.fresh, fun handle' => ?_⟩
    have hcount := h.count handle'
    simp only [finished, returned, alive, hr] at hcount ⊢
    simp only [List.filterMap_append, List.count_append, List.filterMap_cons, List.filterMap_nil,
      AlbumartMessage.finishes, AlbumartMessage.returns] at hcount ⊢
    simp only [List.count_nil, Option.map_none, Option.toList_none] at hcount ⊢
    omega
  | some task =>
    have hnamed : ¬ (artistOrTitle = "" ∧ album = "") := fun hh => by
      rw [albumartQueue_eq_none.mpr hh] at htask
      cases htask
    rw [if_neg hnamed, List.append_nil]
    have hfresh : (s.foreachTask (markUnqueued handle)).memory.lookup s.pushed = none :=
      lookup_foreachTask_none.mpr (h.fresh s.pushed le_rfl)
    refine ⟨fun t ht => ?_, fun handle' => ?_⟩
    · have hlt : s.pushed + 1 ≤ t := ht
      change ((s.foreachTask (markUnqueued handle)).memory.insert s.pushed _).lookup t = none
      rw [KeyTable.lookup_insert_eq, if_neg (by omega)]
      exact lookup_foreachTask_none.mpr (h.fresh t (by omega))
    · have hcount := h.count handle'
      have hmarked := alive_foreachTask s handle handle'
      simp only [alive] at hmarked hcount
      simp only [finished, returned, alive, hr, push] at hcount ⊢
      rw [KeyTable.tally_insert_new hfresh, hmarked]
      simp only [Option.map_some, Option.toList_some, Option.map_none, Option.toList_none, List.count_append]
        at hcount ⊢
      simp only [Albumart.foreachTask, reduceCtorEq, if_false] at hcount ⊢
      simp at hcount ⊢
      omega

theorem doTheWorkStep_alive {env : AlbumartWorkEnv} {e r : AlbumartPoolTask} {out : List AlbumartSignal}
    (h : doTheWorkStep env e = some (r, out)) (handle : UInt32) :
    (out.filterMap AlbumartSignal.finishes).count handle +
      (if r.pc = .done then 0 else [r.num].count handle) = if e.pc = .done then 0 else [e.num].count handle := by
  unfold doTheWorkStep at h
  split at h
  · next hpc =>
    obtain ⟨rfl, rfl⟩ := Prod.mk.inj (Option.some.inj h)
    simp [hpc, List.filterMap_cons, AlbumartSignal.finishes]
  · next hpc =>
    obtain ⟨rfl, rfl⟩ := Prod.mk.inj (Option.some.inj h)
    simp [hpc, AlbumartSignal.finishes]
  · next message rest hpc =>
    obtain ⟨rfl, rfl⟩ := Prod.mk.inj (Option.some.inj h)
    simp [hpc, List.filterMap_cons, AlbumartSignal.finishes]
  · next rest hpc =>
    obtain ⟨rfl, rfl⟩ := Prod.mk.inj (Option.some.inj h)
    simp [hpc, List.filterMap_cons, AlbumartSignal.finishes]
  · next hpc =>
    obtain ⟨rfl, rfl⟩ := Prod.mk.inj (Option.some.inj h)
    simp [hpc, AlbumartSignal.finishes]
  · cases h

theorem finished_signals (s : Albumart) (out : List AlbumartSignal) :
    (finished { s with sent := s.sent ++ out.map .signal }) =
      s.finished ++ out.filterMap AlbumartSignal.finishes := by
  simp only [finished, List.filterMap_append, List.filterMap_map]
  rfl

theorem returned_signals (s : Albumart) (out : List AlbumartSignal) :
    (returned { s with sent := s.sent ++ out.map .signal }) = s.returned := by
  have hnone : (out.map AlbumartMessage.signal).filterMap AlbumartMessage.returns = [] := by
    simp [AlbumartMessage.returns]
  simp only [returned, List.filterMap_append, hnone, List.append_nil]

theorem Accounts.worker (h : s.Accounts skipped) {t : Nat} (hs : s.worker env t = some s') :
    s'.Accounts skipped := by
  rw [Albumart.worker] at hs
  cases hl : s.memory.lookup t with
  | none => simp [hl] at hs
  | some e =>
    simp only [hl, Option.ite_none_right_eq_some, Option.map_eq_some_iff] at hs
    obtain ⟨_, ⟨r, out⟩, hstep, rfl⟩ := hs
    refine ⟨fun t' ht' => ?_, fun handle => ?_⟩
    · have hnone := h.fresh t' ht'
      have hne : t' ≠ t := by
        rintro rfl
        rw [hl] at hnone
        cases hnone
      rw [KeyTable.lookup_insert_eq, if_neg hne]
      exact hnone
    · have hcount := h.count handle
      have halive := doTheWorkStep_alive hstep handle
      have htally := KeyTable.tally_insert_of_lookup (f := fun e : AlbumartPoolTask =>
        if e.pc = .done then 0 else [e.num].count handle) hl r
      have hfinished := congrArg (List.count handle) (finished_signals s out)
      have hreturned := congrArg (List.count handle) (returned_signals s out)
      rw [List.count_append] at hfinished
      change List.count handle (finished { s with sent := s.sent ++ out.map .signal }) +
        KeyTable.tally (fun e => if e.pc = .done then 0 else [e.num].count handle) (s.memory.insert t r) + _ =
          List.count handle (returned { s with sent := s.sent ++ out.map .signal })
      rw [alive] at hcount
      omega

theorem Accounts.step (h : s.Accounts skipped) {a : AlbumartAction} (hs : s.step env a = some s') :
    s'.Accounts (skipped ++ if a.nameless then [s.num + 1] else []) := by
  cases a with
  | queue context artistOrTitle album kind handle =>
    obtain ⟨hr, hs⟩ := Option.ite_none_right_eq_some.mp hs
    obtain rfl := Option.some.inj hs
    have hh := h.queue hr context artistOrTitle album kind handle
    simpa [AlbumartAction.nameless] using hh
  | methodReturn =>
    obtain ⟨⟨context, num⟩, hr, rfl⟩ := Option.map_eq_some_iff.mp hs
    simpa [AlbumartAction.nameless] using h.methodReturn hr
  | unqueue handle =>
    obtain ⟨_, hs⟩ := Option.ite_none_right_eq_some.mp hs
    obtain rfl := Option.some.inj hs
    simpa [AlbumartAction.nameless] using h.unqueue handle
  | worker t => simpa [AlbumartAction.nameless] using h.worker hs

theorem accounts_run {actions : List AlbumartAction} (h : s.Accounts skipped)
    (hrun : StepRun.run (Albumart.step env) s actions = some s') :
    ∃ more, s'.Accounts (skipped ++ more) ∧ (more = [] ↔ ∀ a ∈ actions, a.nameless = false) := by
  induction actions generalizing s skipped with
  | nil => exact ⟨[], by simpa using Option.some.inj hrun ▸ h, by simp⟩
  | cons a actions ih =>
    obtain ⟨u, hu, hr⟩ := Option.bind_eq_some_iff.mp hrun
    obtain ⟨more, hmore, hiff⟩ := ih (h.step hu) hr
    refine ⟨_ ++ more, by rwa [List.append_assoc] at hmore, ?_⟩
    rw [List.append_eq_nil_iff, hiff, List.forall_mem_cons]
    cases a.nameless <;> simp

theorem alive_of_drained (hd : s.Drained) (handle : UInt32) : s.alive handle = 0 :=
  KeyTable.tally_eq_zero_iff.mpr fun t e ht => if_pos (hd t e ht)

end Steps

/-- A handle that is given away without a task is never finished. -/
theorem albumart_finished_iff (env : Nat → AlbumartWorkEnv) {actions : List AlbumartAction} {s : Albumart}
    (hrun : StepRun.run (step env) albumartInit actions = some s) (hd : s.Drained) :
    (∀ handle, s.finished.count handle = s.returned.count handle) ↔ ∀ a ∈ actions, a.nameless = false := by
  have hinit : albumartInit.Accounts [] := ⟨fun _ _ => rfl, fun _ => rfl⟩
  obtain ⟨more, hmore, hiff⟩ := accounts_run hinit hrun
  rw [← hiff]
  constructor
  · intro hh
    refine List.eq_nil_iff_forall_not_mem.mpr fun handle hm => ?_
    have hcount := hmore.count handle
    have hpos := List.count_pos_iff.mpr hm
    have heq := hh handle
    simp only [List.nil_append] at hcount
    omega
  · rintro rfl handle
    have hcount := hmore.count handle
    have halive := alive_of_drained hd handle
    simp only [List.append_nil, List.count_nil] at hcount
    omega

def someAlbumartEnv : AlbumartWorkEnv := ⟨⟨"/home/user/.cache", id, id⟩, fun _ => false, [some "no art", none]⟩

def fetchedRun : List AlbumartAction :=
  [.queue 7 "artist" "album" "album" 0, .worker 0, .methodReturn, .worker 0, .worker 0, .worker 0, .worker 0]

theorem albumart_finished_iff_fetched : ∃ s, StepRun.run (step fun _ => someAlbumartEnv) albumartInit fetchedRun =
    some s ∧ ∀ handle, s.finished.count handle = s.returned.count handle := by
  have hruns : ∃ s, StepRun.run (step fun _ => someAlbumartEnv) albumartInit fetchedRun = some s ∧
      ∀ e ∈ s.memory.entries, e.2.pc = .done := ⟨_, rfl, by decide⟩
  obtain ⟨s, hrun, hdone⟩ := hruns
  have hd : s.Drained := fun t e ht => hdone ⟨t, e⟩ (AList.mem_lookup_iff.mp ht)
  exact ⟨s, hrun, (albumart_finished_iff (fun _ => someAlbumartEnv) hrun hd).mpr (by decide)⟩

theorem albumart_nameless_unfinished : ¬ ∀ (env : Nat → AlbumartWorkEnv) (actions : List AlbumartAction)
    (s : Albumart), StepRun.run (step env) albumartInit actions = some s → s.Drained →
      ∀ handle, s.finished.count handle = s.returned.count handle := by
  intro h
  have hh := h (fun _ => someAlbumartEnv) [.queue 7 "" "" "album" 0] _ rfl (fun t e ht => nomatch ht) 1
  exact absurd hh (by decide)

end Albumart
end HildonThumbnail
