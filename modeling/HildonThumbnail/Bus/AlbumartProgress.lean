import Mathlib.Data.Prod.Lex
import HildonThumbnail.Bus.AlbumartSystem

/-! The album art service and its program come to rest: what is left to do without a further call of the
program comes to an end, unless a join goes round. -/

namespace HildonThumbnail

/-- The sections before the providers are asked, and those from there on. -/
def AlbumartPoolTask.stages (e : AlbumartPoolTask) : Nat :=
  match e.pc with
  | .pushed => 2
  | .started => 1
  | .fetching _ => 0
  | .done => 0

def AlbumartPoolTask.asks (e : AlbumartPoolTask) : Nat :=
  match e.pc with
  | .pushed => 0
  | .started => 0
  | .fetching rest => rest.length + 1
  | .done => 0

namespace Albumart

/-- The handles are given away one after another from 1 on. -/
structure Numbered (d : Albumart) : Prop where
  num : d.num = UInt32.ofNat d.returned.length
  returned : ∀ num ∈ d.returned, ∃ i < d.returned.length, num = UInt32.ofNat (i + 1)

section
variable {env : Nat → AlbumartWorkEnv} {d d' : Albumart} {skipped : List UInt32} {a : AlbumartAction}

theorem num_step (hs : d.step env a = some d') : d'.num = d.num + UInt32.ofNat a.context.toList.length := by
  cases a with
  | queue context artistOrTitle album kind handle =>
    obtain ⟨_, hs⟩ := Option.ite_none_right_eq_some.mp hs
    obtain rfl := Option.some.inj hs
    rw [Albumart.queue]
    cases albumartQueue (some artistOrTitle) (some album) (some kind) <;> rfl
  | methodReturn =>
    obtain ⟨_, _, rfl⟩ := Option.map_eq_some_iff.mp hs
    exact (UInt32.add_zero _).symm
  | unqueue handle =>
    obtain ⟨_, hs⟩ := Option.ite_none_right_eq_some.mp hs
    obtain rfl := Option.some.inj hs
    exact (UInt32.add_zero _).symm
  | worker t =>
    rw [Albumart.step, Albumart.worker] at hs
    cases he : d.memory.lookup t with
    | none => simp [he] at hs
    | some e =>
      simp only [he, Option.ite_none_right_eq_some, Option.map_eq_some_iff] at hs
      obtain ⟨_, _, _, rfl⟩ := hs
      exact (UInt32.add_zero _).symm

theorem Numbered.step (h : d.Numbered) {new : List AlbumartMessage} (he : d.Emits d' a new)
    (hs : d.step env a = some d') : d'.Numbered := by
  have hnum := num_step hs
  refine ⟨?_, fun num hmem => ?_⟩
  · rw [hnum, he.returned, List.length_append, List.length_map, h.num, UInt32.ofNat_add]
  · rw [he.returned, List.mem_append] at hmem
    rw [he.returned, List.length_append, List.length_map]
    rcases hmem with hmem | hmem
    · obtain ⟨i, hi, heq⟩ := h.returned num hmem
      exact ⟨i, by omega, heq⟩
    · obtain ⟨r, hr, rfl⟩ := List.mem_map.mp hmem
      have hpos := List.length_pos_of_mem hr
      refine ⟨d.returned.length, by omega, ?_⟩
      rw [h.num, UInt32.ofNat_add]
      rfl

/-- While there are handles left the next one is a new one. -/
theorem Numbered.fresh (h : d.Numbered) (hleft : d.returned.length + 1 < 2 ^ 32) : d.num + 1 ∉ d.returned := by
  intro hmem
  obtain ⟨i, hi, heq⟩ := h.returned _ hmem
  have hnext : d.num + 1 = UInt32.ofNat (d.returned.length + 1) := by
    rw [h.num, UInt32.ofNat_add]
    rfl
  rw [hnext] at heq
  have heq := congrArg UInt32.toNat heq
  rw [UInt32.toNat_ofNat_of_lt' (show i + 1 < 2 ^ 32 by omega), UInt32.toNat_ofNat_of_lt' hleft] at heq
  omega

theorem doTheWorkStep_less {env : AlbumartWorkEnv} {e r : AlbumartPoolTask} {out : List AlbumartSignal}
    (h : doTheWorkStep env e = some (r, out)) :
    r.stages < e.stages ∨ r.stages = e.stages ∧ r.asks < e.asks := by
  rw [doTheWorkStep.eq_def] at h
  split at h <;> simp only [Option.some.injEq, Prod.mk.injEq, reduceCtorEq] at h <;> obtain ⟨rfl, rfl⟩ := h <;>
    next hpc => simp [AlbumartPoolTask.stages, AlbumartPoolTask.asks, hpc]

theorem doTheWorkStep_isSome (env : AlbumartWorkEnv) {e : AlbumartPoolTask} (h : e.pc ≠ .done) :
    (doTheWorkStep env e).isSome := by
  rw [doTheWorkStep.eq_def]
  split
  · rfl
  · rfl
  · rfl
  · rfl
  · rfl
  · next hpc => exact absurd hpc h

/-- The one thread is free for a task that waits, or a task has it and goes on. -/
theorem drained_of_stuck (h : ∀ t, d.worker env t = none) : d.Drained := by
  have hthread (t : Nat) (e : AlbumartPoolTask) (he : d.memory.lookup t = some e) (hpc : e.pc ≠ .done) :
      d.hasThread e = false := by
    obtain ⟨r, hr⟩ := Option.isSome_iff_exists.mp (doTheWorkStep_isSome (env t) hpc)
    have hstep := h t
    simpa [worker, he, hr] using hstep
  have hidle (t : Nat) (e : AlbumartPoolTask) (he : d.memory.lookup t = some e) :
      e.pc = .pushed ∨ e.pc = .done := by
    by_contra hpc
    obtain ⟨hpushed, hdone⟩ := not_or.mp hpc
    have hnone := hthread t e he hdone
    simp [hasThread, hpushed] at hnone
  intro t e he
  by_contra hpc
  have hfree : d.memory.tally (fun o => if o.pc = .pushed ∨ o.pc = .done then 0 else 1) = 0 :=
    KeyTable.tally_eq_zero_iff.mpr fun u o ho => if_pos (hidle u o ho)
  have hnone := hthread t e he hpc
  simp [hasThread, hfree] at hnone

end

end Albumart

namespace AlbumartSystem

/-- A move that is made without a further call of the program. -/
inductive Continues : AlbumartMove → Prop
  | takeCall : Continues .takeCall
  | methodReturn : Continues .methodReturn
  | worker (t : Nat) : Continues (.worker t)
  | deliver : Continues .deliver
  | goOn : Continues .goOn

def Goes (env : Nat → AlbumartWorkEnv) (s s' : AlbumartSystem) : Prop :=
  ∃ m, Continues m ∧ s.Orderly m ∧ s.step env m = some s'

/-- The calls with the reply under way, the sections of the worker, the messages and the callbacks that are left. -/
def left (s : AlbumartSystem) : Nat ×ₗ Nat ×ₗ Nat ×ₗ Nat ×ₗ Nat :=
  toLex (2 * s.calls.length + s.daemon.returning.toList.length,
    toLex (s.daemon.memory.tally AlbumartPoolTask.stages, toLex (s.daemon.memory.tally AlbumartPoolTask.asks,
      toLex (s.daemon.sent.length - s.delivered, s.client.running.length))))

/-- What every state has that an orderly run leads to, while there are handles left and nothing is joined. -/
structure Sound (s : AlbumartSystem) : Prop where
  connected : ∃ skipped, s.Connected skipped
  numbered : s.daemon.Numbered
  handles : s.daemon.returned.length + s.calls.length < 2 ^ 32
  joinless : ∀ frame ∈ s.client.running, frame.joined = none

section
variable {env : Nat → AlbumartWorkEnv} {s s' : AlbumartSystem}

theorem goOn_joinless {c c' : AlbumartClient} (hjoins : ∀ frame ∈ c.running, frame.joined = none)
    (hs : c.goOn = some c') : ∃ handle rest, c.running = .finished handle :: rest ∧
      c' = { c with tasks := c.tasks.erase handle, running := rest } := by
  rw [AlbumartClient.goOn] at hs
  cases hrunning : c.running with
  | nil =>
    rw [hrunning] at hs
    cases hs
  | cons frame rest =>
    rw [hrunning] at hs
    cases frame with
    | finished handle => exact ⟨handle, rest, rfl, (Option.some.inj hs).symm⟩
    | waiting r found => cases hjoins (.waiting r found) (hrunning ▸ List.mem_cons_self)
    | draining r => cases hjoins (.draining r) (hrunning ▸ List.mem_cons_self)

theorem length_toList_le {α : Type} (o : Option α) : o.toList.length ≤ 1 := by
  cases o with
  | none => exact Nat.zero_le 1
  | some a => exact le_rfl

/-- Each move leaves less of the first thing that it changes. -/
theorem goes_left (h : s.Sound) (hgoes : Goes env s s') : s'.left < s.left := by
  obtain ⟨m, hm, _, hs⟩ := hgoes
  cases hm with
  | takeCall =>
    have hs : s.takeCall env = some s' := hs
    rw [takeCall] at hs
    cases hcalls : s.calls with
    | nil => simp [hcalls] at hs
    | cons call calls =>
      rw [hcalls] at hs
      refine Prod.Lex.toLex_lt_toLex.mpr (.inl ?_)
      rw [hcalls, List.length_cons]
      cases call <;> obtain ⟨d, _, rfl⟩ := Option.map_eq_some_iff.mp hs <;>
        have hone := length_toList_le d.returning <;> dsimp only <;> omega
  | methodReturn =>
    obtain ⟨d, hd, rfl⟩ := Option.map_eq_some_iff.mp hs
    obtain ⟨r, hreturning, rfl⟩ := Option.map_eq_some_iff.mp hd
    refine Prod.Lex.toLex_lt_toLex.mpr (.inl ?_)
    simp [hreturning]
  | worker t =>
    obtain ⟨d, hd, rfl⟩ := Option.map_eq_some_iff.mp hs
    rw [Albumart.step, Albumart.worker] at hd
    cases he : s.daemon.memory.lookup t with
    | none => simp [he] at hd
    | some e =>
      simp only [he, Option.ite_none_right_eq_some, Option.map_eq_some_iff] at hd
      obtain ⟨_, ⟨r, out⟩, hstep, rfl⟩ := hd
      have hstages := KeyTable.tally_insert_of_lookup (f := AlbumartPoolTask.stages) he r
      have hasks := KeyTable.tally_insert_of_lookup (f := AlbumartPoolTask.asks) he r
      refine Prod.Lex.toLex_lt_toLex.mpr (.inr ⟨rfl, Prod.Lex.toLex_lt_toLex.mpr ?_⟩)
      rcases Albumart.doTheWorkStep_less hstep with hless | ⟨hsame, hless⟩
      · refine .inl ?_
        dsimp only
        omega
      · refine .inr ⟨?_, Prod.Lex.toLex_lt_toLex.mpr (.inl ?_)⟩ <;> dsimp only <;> omega
  | deliver =>
    have hs : s.deliver = some s' := hs
    rw [deliver] at hs
    cases hm : s.daemon.sent[s.delivered]? with
    | none => simp [hm] at hs
    | some m =>
      have hlt : s.delivered < s.daemon.sent.length := (List.getElem?_eq_some_iff.mp hm).1
      simp only [hm] at hs
      obtain ⟨c, _, rfl⟩ := Option.map_eq_some_iff.mp hs
      refine Prod.Lex.toLex_lt_toLex.mpr (.inr ⟨rfl, Prod.Lex.toLex_lt_toLex.mpr (.inr ⟨rfl, ?_⟩)⟩)
      refine Prod.Lex.toLex_lt_toLex.mpr (.inr ⟨rfl, Prod.Lex.toLex_lt_toLex.mpr (.inl ?_)⟩)
      dsimp only
      omega
  | goOn =>
    obtain ⟨c, hc, rfl⟩ := Option.map_eq_some_iff.mp hs
    obtain ⟨skipped, hconnected⟩ := h.connected
    rw [hconnected.keyed.step_eq] at hc
    obtain ⟨handle, rest, hrunning, rfl⟩ := goOn_joinless h.joinless hc
    refine Prod.Lex.toLex_lt_toLex.mpr (.inr ⟨rfl, Prod.Lex.toLex_lt_toLex.mpr (.inr ⟨rfl, ?_⟩)⟩)
    refine Prod.Lex.toLex_lt_toLex.mpr (.inr ⟨rfl, Prod.Lex.toLex_lt_toLex.mpr (.inr ⟨rfl, ?_⟩)⟩)
    dsimp only
    rw [hrunning, List.length_cons]
    omega

theorem Sound.daemonStep (h : s.Sound) {a : AlbumartAction} {d : Albumart} (ho : s.daemon.Orderly a)
    (hs : s.daemon.step env a = some d) :
    d.Numbered ∧ d.returned.length = s.daemon.returned.length + a.context.toList.length := by
  obtain ⟨skipped, hconnected⟩ := h.connected
  obtain ⟨⟨new, he⟩, _⟩ := hconnected.daemon.step ho hs
  refine ⟨h.numbered.step he hs, ?_⟩
  rw [he.returned, List.length_append, List.length_map]

theorem receive_running {c c' : AlbumartClient} (hkeyed : c.Keyed) {m : AlbumartMessage}
    (hs : receive c m = some c')
    (hjoins : ∀ frame ∈ c.running, frame.joined = none) : ∀ frame ∈ c'.running, frame.joined = none := by
  cases m with
  | signal x =>
    cases x with
    | started num | error num code message | ready artist album kind path => exact Option.some.inj hs ▸ hjoins
    | finished num =>
      rw [receive, hkeyed.step_eq] at hs
      obtain rfl := Option.some.inj hs
      rw [AlbumartClient.onTaskFinished]
      cases c.tasks.lookup num with
      | none => exact hjoins
      | some r => exact List.forall_mem_cons.mpr ⟨rfl, hjoins⟩
  | methodReturn r num =>
    by_cases hr : r ∈ c.queueCalls
    · rw [receive, if_pos hr, hkeyed.step_eq] at hs
      obtain rfl := Option.some.inj ((if_pos hr).symm.trans hs)
      exact hjoins
    · rw [receive, if_neg hr] at hs
      exact Option.some.inj hs ▸ hjoins

theorem goes_sound (h : s.Sound) (hgoes : Goes env s s') : s'.Sound := by
  obtain ⟨m, hm, ho, hs⟩ := hgoes
  have hconnected' := connected_step s m s' h.connected ho hs
  obtain ⟨skipped, hconnected⟩ := h.connected
  have hhandles := h.handles
  cases hm with
  | takeCall =>
    have hs : s.takeCall env = some s' := hs
    rw [takeCall] at hs
    cases hcalls : s.calls with
    | nil => simp [hcalls] at hs
    | cons call calls =>
      rw [hcalls] at hs
      rw [hcalls, List.length_cons] at hhandles
      cases call with
      | queue r artistOrTitle album kind =>
        obtain ⟨d, hd, rfl⟩ := Option.map_eq_some_iff.mp hs
        obtain ⟨hnumbered, hlength⟩ := h.daemonStep (ho r artistOrTitle album kind calls hcalls) hd
        refine ⟨hconnected', hnumbered, ?_, h.joinless⟩
        have hone : (AlbumartAction.queue r artistOrTitle album kind 0).context.toList.length = 1 := rfl
        dsimp only
        omega
      | unqueue handle =>
        obtain ⟨d, hd, rfl⟩ := Option.map_eq_some_iff.mp hs
        obtain ⟨hnumbered, hlength⟩ := h.daemonStep (show s.daemon.Orderly (.unqueue handle) from trivial) hd
        refine ⟨hconnected', hnumbered, ?_, h.joinless⟩
        have hnone : (AlbumartAction.unqueue handle).context.toList.length = 0 := rfl
        dsimp only
        omega
  | methodReturn =>
    obtain ⟨d, hd, rfl⟩ := Option.map_eq_some_iff.mp hs
    obtain ⟨hnumbered, hlength⟩ := h.daemonStep (show s.daemon.Orderly .methodReturn from trivial) hd
    exact ⟨hconnected', hnumbered, hlength ▸ hhandles, h.joinless⟩
  | worker t =>
    obtain ⟨d, hd, rfl⟩ := Option.map_eq_some_iff.mp hs
    obtain ⟨hnumbered, hlength⟩ := h.daemonStep (show s.daemon.Orderly (.worker t) from ho) hd
    exact ⟨hconnected', hnumbered, hlength ▸ hhandles, h.joinless⟩
  | deliver =>
    have hs : s.deliver = some s' := hs
    rw [deliver] at hs
    cases hm : s.daemon.sent[s.delivered]? with
    | none => simp [hm] at hs
    | some m =>
      simp only [hm] at hs
      obtain ⟨c, hc, rfl⟩ := Option.map_eq_some_iff.mp hs
      exact ⟨hconnected', h.numbered, hhandles, receive_running hconnected.keyed hc h.joinless⟩
  | goOn =>
    obtain ⟨c, hc, rfl⟩ := Option.map_eq_some_iff.mp hs
    rw [hconnected.keyed.step_eq] at hc
    obtain ⟨handle, rest, hrunning, rfl⟩ := goOn_joinless h.joinless hc
    refine ⟨hconnected', h.numbered, hhandles, fun frame hframe => h.joinless frame ?_⟩
    rw [hrunning]
    exact List.mem_cons_of_mem _ hframe

theorem receive_isSome {c : AlbumartClient} (hkeyed : c.Keyed) (m : AlbumartMessage) : (receive c m).isSome := by
  cases m with
  | signal x =>
    cases x with
    | started | error | ready => rfl
    | finished num =>
      rw [receive, hkeyed.step_eq]
      rfl
  | methodReturn r num =>
    rw [receive, hkeyed.step_eq, AlbumartClient.on]
    split <;> rfl

/-- Where no move is left that goes on, nothing is under way. -/
theorem quiet_of_stuck (h : s.Sound) (hstuck : ∀ s', ¬ Goes env s s') : s.Quiet := by
  obtain ⟨skipped, hconnected⟩ := h.connected
  have hnone : ∀ {m}, Continues m → s.Orderly m → s.step env m = none := by
    intro m hm ho
    by_contra hsome
    obtain ⟨s', hs'⟩ := Option.ne_none_iff_exists'.mp hsome
    exact hstuck s' ⟨m, hm, ho, hs'⟩
  have hreturning : s.daemon.returning = none := by
    have hstep := hnone .methodReturn trivial
    simpa [step, onDaemon, Albumart.step] using hstep
  have hcalls : s.calls = [] := by
    cases hcalls : s.calls with
    | nil => rfl
    | cons call calls =>
      have hhandles := h.handles
      rw [hcalls, List.length_cons] at hhandles
      have hfresh : s.daemon.num + 1 ∉ s.daemon.returned := h.numbered.fresh (by omega)
      have hstep := hnone .takeCall fun _ _ _ _ _ _ => hfresh
      cases call <;> simp [step, takeCall, hcalls, Albumart.step, hreturning] at hstep
  have hworkers (t : Nat) : s.daemon.worker env t = none := by
    have hstep := hnone (.worker t) fun e r _ _ => by simp [hreturning]
    simpa [step, onDaemon, Albumart.step] using hstep
  have hmessages : s.delivered = s.daemon.sent.length := by
    refine le_antisymm hconnected.bound (Nat.le_of_not_lt fun hlt => ?_)
    have hstep := hnone .deliver trivial
    obtain ⟨c, hc⟩ := Option.isSome_iff_exists.mp (receive_isSome hconnected.keyed s.daemon.sent[s.delivered])
    simp [step, deliver, List.getElem?_eq_getElem hlt, hc] at hstep
  refine ⟨hcalls, hreturning, Albumart.drained_of_stuck hworkers, hmessages, fun handle hmem => ?_⟩
  cases hrunning : s.client.running with
  | nil =>
    rw [hrunning] at hmem
    cases hmem
  | cons frame rest =>
    have hjoins := h.joinless frame (hrunning ▸ List.mem_cons_self)
    have hstep := hnone .goOn trivial
    cases frame with
    | finished handle =>
      simp [step, onClient, hconnected.keyed.step_eq, AlbumartClient.on, AlbumartClient.goOn, hrunning] at hstep
    | waiting | draining => cases hjoins

theorem daemon_cases {m : AlbumartMove} (ho : s.Orderly m) (hs : s.step env m = some s') :
    s'.daemon = s.daemon ∨ ∃ a, s.daemon.Orderly a ∧ s.daemon.step env a = some s'.daemon := by
  cases m with
  | queue | queueThumbnail | join | goOn | unqueueError =>
    obtain ⟨c, _, rfl⟩ := Option.map_eq_some_iff.mp hs
    exact .inl rfl
  | unqueue r =>
    have hs : s.unqueue r = some s' := hs
    rw [unqueue] at hs
    obtain ⟨p, _, hs⟩ := Option.bind_eq_some_iff.mp hs
    obtain ⟨c, _, rfl⟩ := Option.map_eq_some_iff.mp hs
    exact .inl rfl
  | takeCall =>
    have hs : s.takeCall env = some s' := hs
    rw [takeCall] at hs
    cases hcalls : s.calls with
    | nil => simp [hcalls] at hs
    | cons call calls =>
      rw [hcalls] at hs
      cases call with
      | queue r artistOrTitle album kind =>
        obtain ⟨d, hd, rfl⟩ := Option.map_eq_some_iff.mp hs
        exact .inr ⟨_, ho r artistOrTitle album kind calls hcalls, hd⟩
      | unqueue handle =>
        obtain ⟨d, hd, rfl⟩ := Option.map_eq_some_iff.mp hs
        exact .inr ⟨.unqueue handle, trivial, hd⟩
  | methodReturn =>
    obtain ⟨d, hd, rfl⟩ := Option.map_eq_some_iff.mp hs
    exact .inr ⟨.methodReturn, trivial, hd⟩
  | worker t =>
    obtain ⟨d, hd, rfl⟩ := Option.map_eq_some_iff.mp hs
    exact .inr ⟨.worker t, ho, hd⟩
  | deliver =>
    have hs : s.deliver = some s' := hs
    rw [deliver] at hs
    cases hm : s.daemon.sent[s.delivered]? with
    | none => simp [hm] at hs
    | some m =>
      simp only [hm] at hs
      obtain ⟨c, _, rfl⟩ := Option.map_eq_some_iff.mp hs
      exact .inl rfl
  | callError => cases ho

theorem numbered_step (s : AlbumartSystem) (m : AlbumartMove) (s' : AlbumartSystem)
    (h : (∃ skipped, s.Connected skipped) ∧ s.daemon.Numbered) (ho : s.Orderly m) (hs : s.step env m = some s') :
    (∃ skipped, s'.Connected skipped) ∧ s'.daemon.Numbered := by
  obtain ⟨⟨skipped, hconnected⟩, hnumbered⟩ := h
  refine ⟨connected_step s m s' ⟨skipped, hconnected⟩ ho hs, ?_⟩
  rcases daemon_cases ho hs with hsame | ⟨a, ha, hd⟩
  · rw [hsame]
    exact hnumbered
  · obtain ⟨⟨new, he⟩, _⟩ := hconnected.daemon.step ha hd
    exact hnumbered.step he hd

theorem numbered_init : init.daemon.Numbered := ⟨rfl, fun num hmem => by cases hmem⟩

end

end AlbumartSystem

end HildonThumbnail
