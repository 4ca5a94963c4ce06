import HildonThumbnail.Lib.Run
import HildonThumbnail.Lib.SortedQueue
import Mathlib.Data.List.Infix
import Mathlib.Algebra.Order.Ring.Int
import Mathlib.Algebra.Ring.Nat

/-! The order in which a pool hands out its tasks (`pool_sort_compare` and the
pushes of daemon/thumbnailer.c and daemon/albumart.c). The handles come from
one static counter and wrap, so what is proved of the pool is proved for
pending tasks within half the range of a handle of each other. -/

namespace HildonThumbnail

open StepRun

variable {τ : Type*}

/-- `issue` counts the handles given out up to this one, for the statements only. -/
structure PooledTask (τ : Type*) where
  num : UInt32
  issue : Nat
  task : τ

def poolSortCompare (taskA taskB : PooledTask τ) : Int32 := (taskB.num - taskA.num).toInt32

/-- `num` is the static counter of handles, `issued` how many of them were given out. -/
structure WorkPool (τ : Type*) where
  num : UInt32
  issued : Nat
  queue : List (PooledTask τ)
  taken : List τ

/-- A handle goes to a task of this pool, or to a task of the other pool or to
a request that is answered at once. -/
inductive PoolEvent (τ : Type*)
  | issue
  | push (task : τ)
  | take

def WorkPool.start (num : UInt32) : WorkPool τ := ⟨num, 0, [], []⟩

def WorkPool.step (s : WorkPool τ) : PoolEvent τ → Option (WorkPool τ)
  | .issue => some { s with num := s.num + 1, issued := s.issued + 1 }
  | .push task => some { s with
      num := s.num + 1
      issued := s.issued + 1
      queue := SortedQueue.push poolSortCompare ⟨s.num + 1, s.issued + 1, task⟩ s.queue }
  | .take => (SortedQueue.pop s.queue).map fun (t, rest) => { s with queue := rest, taken := s.taken ++ [t.task] }

/-- What a pool is for. -/
structure TaskStack (τ : Type*) where
  pending : List τ
  taken : List τ

def TaskStack.step : TaskStack τ → PoolEvent τ → Option (TaskStack τ)
  | s, .issue => some s
  | s, .push task => some { s with pending := task :: s.pending }
  | ⟨[], _⟩, .take => none
  | ⟨task :: rest, taken⟩, .take => some ⟨rest, taken ++ [task]⟩

def WorkPool.stack (s : WorkPool τ) : TaskStack τ := ⟨(s.queue.map (·.task)).reverse, s.taken⟩

def WorkPool.Spanned (s : WorkPool τ) : Prop := ∀ a ∈ s.queue, ∀ b ∈ s.queue, b.issue < a.issue + 2 ^ 31

/-- From the head to the tail the pending tasks stand in the order of issue. -/
structure WorkPool.Ordered (base : UInt32) (s : WorkPool τ) : Prop where
  counter : s.num = base + UInt32.ofNat s.issued
  handle : ∀ t ∈ s.queue, t.num = base + UInt32.ofNat t.issue
  issued : ∀ t ∈ s.queue, t.issue ≤ s.issued
  increasing : s.queue.Pairwise fun a b => a.issue < b.issue

/-- Inside the window the wrapped difference of two handles is the difference
of their places in the order of issue. -/
theorem toInt_poolSortCompare {base : UInt32} {a b : PooledTask τ} (ha : a.num = base + UInt32.ofNat a.issue)
    (hb : b.num = base + UInt32.ofNat b.issue) (hab : a.issue < b.issue + 2 ^ 31)
    (hba : b.issue < a.issue + 2 ^ 31) :
    (poolSortCompare a b).toInt = (b.issue : Int) - a.issue := by
  rw [poolSortCompare, ← Int32.toInt_toBitVec, UInt32.toBitVec_toInt32, BitVec.toInt_eq_toNat_bmod,
    UInt32.toNat_toBitVec, UInt32.toNat_sub, ha, hb]
  simp only [UInt32.toNat_add, UInt32.toNat_ofNat']
  rw [Int.bmod_def]
  omega

theorem poolSortCompare_pos {base : UInt32} {a b : PooledTask τ} (ha : a.num = base + UInt32.ofNat a.issue)
    (hb : b.num = base + UInt32.ofNat b.issue) (hlt : a.issue < b.issue) (hspan : b.issue < a.issue + 2 ^ 31) :
    0 < poolSortCompare a b := by
  have hdiff := toInt_poolSortCompare ha hb (by omega) hspan
  rw [Int32.lt_iff_toInt_lt, Int32.toInt_zero, hdiff]
  omega

theorem poolSortCompare_neg {base : UInt32} {a b : PooledTask τ} (ha : a.num = base + UInt32.ofNat a.issue)
    (hb : b.num = base + UInt32.ofNat b.issue) (hlt : b.issue < a.issue) (hspan : a.issue < b.issue + 2 ^ 31) :
    poolSortCompare a b < 0 := by
  have hdiff := toInt_poolSortCompare ha hb hspan (by omega)
  rw [Int32.lt_iff_toInt_lt, Int32.toInt_zero, hdiff]
  omega

namespace WorkPool

variable {base : UInt32} {s t : WorkPool τ} {task : τ}

theorem ordered_start (num : UInt32) : (start num : WorkPool τ).Ordered num where
  counter := by simp [start]
  handle := by simp [start]
  issued := by simp [start]
  increasing := by simp [start]

theorem Ordered.counter_succ (hs : s.Ordered base) : s.num + 1 = base + UInt32.ofNat (s.issued + 1) := by
  rw [hs.counter, UInt32.ofNat_add, UInt32.add_assoc]
  rfl

theorem Ordered.step_push (hs : s.Ordered base) (hstep : s.step (.push task) = some t) (hspan : t.Spanned) :
    t = ⟨s.num + 1, s.issued + 1, s.queue ++ [⟨s.num + 1, s.issued + 1, task⟩], s.taken⟩ := by
  obtain rfl := Option.some.inj hstep
  have hperm := List.perm_insertWhere
    (fun b => !decide (-poolSortCompare b ⟨s.num + 1, s.issued + 1, task⟩ < 0))
      ⟨s.num + 1, s.issued + 1, task⟩ s.queue
  have hqueue : SortedQueue.push poolSortCompare ⟨s.num + 1, s.issued + 1, task⟩ s.queue =
      s.queue ++ [⟨s.num + 1, s.issued + 1, task⟩] := by
    apply SortedQueue.push_eq_append
    intro b hb
    have hle := hs.issued b hb
    have hold := hperm.mem_iff.mpr (List.mem_cons_of_mem _ hb)
    have hwindow := hspan b hold _ (hperm.mem_iff.mpr List.mem_cons_self)
    exact poolSortCompare_pos (hs.handle b hb) hs.counter_succ (by simp only; omega) hwindow
  rw [hqueue]

theorem step_take : s.step .take = some t ↔
    ∃ rest q, s.queue = rest ++ [q] ∧ t = { s with queue := rest, taken := s.taken ++ [q.task] } := by
  rcases List.eq_nil_or_concat s.queue with hnil | ⟨rest, q, hlast⟩
  · simp [step, hnil]
  · have hqueue : s.queue = rest ++ [q] := by simpa using hlast
    simp only [step, hqueue, SortedQueue.pop_append_singleton, Option.map_some, Option.some.injEq]
    constructor
    · rintro rfl
      exact ⟨rest, q, rfl, rfl⟩
    · rintro ⟨rest', q', heq, rfl⟩
      obtain ⟨rfl, hq⟩ := List.append_inj' heq rfl
      rw [List.singleton_inj.mp hq]

theorem Ordered.step (hs : s.Ordered base) {e : PoolEvent τ} (hstep : s.step e = some t) (hspan : t.Spanned) :
    t.Ordered base := by
  cases e with
  | issue =>
    obtain rfl := Option.some.inj hstep
    exact ⟨hs.counter_succ, hs.handle, fun b hb => Nat.le_succ_of_le (hs.issued b hb), hs.increasing⟩
  | push task =>
    obtain rfl := hs.step_push hstep hspan
    refine ⟨hs.counter_succ, fun b hb => ?_, fun b hb => ?_, ?_⟩
    · rcases List.mem_append.mp hb with hb | hb
      · exact hs.handle b hb
      · rw [List.mem_singleton.mp hb]
        exact hs.counter_succ
    · rcases List.mem_append.mp hb with hb | hb
      · exact Nat.le_succ_of_le (hs.issued b hb)
      · rw [List.mem_singleton.mp hb]
    · refine List.pairwise_append.mpr ⟨hs.increasing, List.pairwise_singleton _ _, fun b hb c hc => ?_⟩
      rw [List.mem_singleton.mp hc]
      exact Nat.lt_succ_of_le (hs.issued b hb)
  | take =>
    obtain ⟨rest, q, hqueue, rfl⟩ := step_take.mp hstep
    have hmem : ∀ b ∈ rest, b ∈ s.queue := fun b hb => by
      rw [hqueue]
      exact List.mem_append_left _ hb
    have hincreasing := hs.increasing
    rw [hqueue] at hincreasing
    exact ⟨hs.counter, fun b hb => hs.handle b (hmem b hb), fun b hb => hs.issued b (hmem b hb),
      (List.pairwise_append.mp hincreasing).1⟩

theorem Ordered.stack_step (hs : s.Ordered base) (e : PoolEvent τ) (hspan : ∀ t, s.step e = some t → t.Spanned) :
    (s.step e).map stack = s.stack.step e := by
  cases e with
  | issue => rfl
  | push task =>
    obtain ⟨t, ht⟩ : ∃ t, s.step (.push task) = some t := ⟨_, rfl⟩
    rw [ht, hs.step_push ht (hspan t ht)]
    simp [stack, TaskStack.step]
  | take =>
    rcases List.eq_nil_or_concat s.queue with hnil | ⟨rest, q, hlast⟩
    · simp [WorkPool.step, stack, hnil, TaskStack.step]
    · have hqueue : s.queue = rest ++ [q] := by simpa using hlast
      have ht := step_take.mpr ⟨rest, q, hqueue, rfl⟩
      rw [ht]
      simp [stack, hqueue, TaskStack.step]

/-- In every state the run passes the pending tasks keep to the window. -/
def Windowed (s : WorkPool τ) (events : List (PoolEvent τ)) : Prop :=
  ∀ pre t, pre <+: events → run WorkPool.step s pre = some t → t.Spanned

theorem Windowed.of_prefix {events pre : List (PoolEvent τ)} (h : Windowed s events) (hpre : pre <+: events) :
    Windowed s pre :=
  fun pre' t hpre' ht => h pre' t (hpre'.trans hpre) ht

theorem Windowed.of_cons {e : PoolEvent τ} {events : List (PoolEvent τ)} (h : Windowed s (e :: events))
    (hstep : s.step e = some t) : Windowed t events := by
  intro pre u hpre hu
  exact h (e :: pre) u (List.cons_prefix_cons.mpr ⟨rfl, hpre⟩) (by simp [hstep, hu])

theorem Windowed.step {e : PoolEvent τ} {events : List (PoolEvent τ)} (h : Windowed s (e :: events))
    (hstep : s.step e = some t) : t.Spanned :=
  h [e] t (List.cons_prefix_cons.mpr ⟨rfl, List.nil_prefix⟩) (by simp [hstep])

theorem Ordered.run {events : List (PoolEvent τ)} (hs : s.Ordered base) (hwindow : Windowed s events)
    (h : StepRun.run WorkPool.step s events = some t) : t.Ordered base := by
  induction events generalizing s with
  | nil => exact Option.some.inj h ▸ hs
  | cons e events ih =>
    obtain ⟨u, hu, hr⟩ := Option.bind_eq_some_iff.mp h
    exact ih (hs.step hu (hwindow.step hu)) (hwindow.of_cons hu) hr

theorem Ordered.stack_run {events : List (PoolEvent τ)} (hs : s.Ordered base) (hwindow : Windowed s events) :
    (StepRun.run WorkPool.step s events).map stack = StepRun.run TaskStack.step s.stack events := by
  induction events generalizing s with
  | nil => rfl
  | cons e events ih =>
    have hfirst := hs.stack_step e fun t ht => hwindow.step ht
    rw [run_cons, run_cons, ← hfirst]
    cases hstep : s.step e with
    | none => rfl
    | some t => exact ih (hs.step hstep (hwindow.step hstep)) (hwindow.of_cons hstep)

theorem step_issued {e : PoolEvent τ} (hs : ∀ b ∈ s.queue, b.issue ≤ s.issued) (hstep : s.step e = some t) :
    t.issued ≤ s.issued + 1 ∧ ∀ b ∈ t.queue, b.issue ≤ t.issued := by
  cases e with
  | issue =>
    obtain rfl := Option.some.inj hstep
    exact ⟨le_rfl, fun b hb => Nat.le_succ_of_le (hs b hb)⟩
  | push task =>
    obtain rfl := Option.some.inj hstep
    refine ⟨le_rfl, fun b hb => ?_⟩
    rcases List.mem_cons.mp ((List.perm_insertWhere _ _ _).mem_iff.mp hb) with rfl | hb
    · exact le_rfl
    · exact Nat.le_succ_of_le (hs b hb)
  | take =>
    obtain ⟨rest, q, hqueue, rfl⟩ := step_take.mp hstep
    refine ⟨Nat.le_succ _, fun b hb => hs b ?_⟩
    rw [hqueue]
    exact List.mem_append_left _ hb

theorem run_issued {events : List (PoolEvent τ)} (hs : ∀ b ∈ s.queue, b.issue ≤ s.issued)
    (h : StepRun.run WorkPool.step s events = some t) :
    t.issued ≤ s.issued + events.length ∧ ∀ b ∈ t.queue, b.issue ≤ t.issued := by
  induction events generalizing s with
  | nil =>
    obtain rfl := Option.some.inj h
    exact ⟨le_rfl, hs⟩
  | cons e events ih =>
    obtain ⟨u, hu, hr⟩ := Option.bind_eq_some_iff.mp h
    obtain ⟨hissued, hle⟩ := step_issued hs hu
    obtain ⟨hlength, hqueue⟩ := ih hle hr
    exact ⟨by rw [List.length_cons]; omega, hqueue⟩

theorem windowed_of_length (num : UInt32) {events : List (PoolEvent τ)} (hlength : events.length < 2 ^ 31) :
    Windowed (start num) events := by
  intro pre t hpre ht a _ b hb
  obtain ⟨hissued, hle⟩ := run_issued (by simp [start]) ht
  have hb := hle b hb
  have hpre := hpre.length_le
  have hstart : (start num : WorkPool τ).issued = 0 := rfl
  omega

theorem Ordered.take_latest (hs : s.Ordered base) (hspan : s.Spanned) (hstep : s.step .take = some t) :
    ∃ q, s.queue = t.queue ++ [q] ∧ t.taken = s.taken ++ [q.task] ∧
      ∀ b ∈ t.queue, b.issue < q.issue ∧ poolSortCompare q b < 0 := by
  obtain ⟨rest, q, hqueue, rfl⟩ := step_take.mp hstep
  have hincreasing := hs.increasing
  rw [hqueue] at hincreasing
  have hlast : q ∈ s.queue := by simp [hqueue]
  refine ⟨q, hqueue, rfl, fun b hb => ?_⟩
  have hmem : b ∈ s.queue := by
    rw [hqueue]
    exact List.mem_append_left _ hb
  have hlt := (List.pairwise_append.mp hincreasing).2.2 b hb q (List.mem_singleton_self q)
  exact ⟨hlt, poolSortCompare_neg (hs.handle q hlast) (hs.handle b hmem) hlt (hspan b hmem q hlast)⟩

/-- Whatever the counter starts from, a run of the pool is a run of a stack:
each take hands out the pending task that was pushed last. -/
theorem lifo (num : UInt32) {events : List (PoolEvent τ)} (hwindow : Windowed (start num) events) :
    (StepRun.run WorkPool.step (start num) events).map stack = StepRun.run TaskStack.step ⟨[], []⟩ events ∧
      ∀ pre s t, pre <+: events → StepRun.run WorkPool.step (start num) pre = some s → s.step .take = some t →
        ∃ q, s.queue = t.queue ++ [q] ∧ t.taken = s.taken ++ [q.task] ∧
          ∀ b ∈ t.queue, b.issue < q.issue ∧ poolSortCompare q b < 0 := by
  constructor
  · exact (ordered_start num).stack_run hwindow
  · intro pre s t hpre hs ht
    have hordered := (ordered_start num).run (hwindow.of_prefix hpre) hs
    exact hordered.take_latest (hwindow pre s hpre hs) ht

/-- The counter wraps between the second and the third task. -/
theorem lifo_at_wrap :
    (StepRun.run WorkPool.step (start 4294967293)
      [.push "first", .push "second", .issue, .push "third", .take, .take, .push "fourth", .take, .take]).map
        stack =
      some ⟨[], ["third", "second", "fourth", "first"]⟩ :=
  (lifo 4294967293 (windowed_of_length _ (by simp))).1

end WorkPool

end HildonThumbnail
