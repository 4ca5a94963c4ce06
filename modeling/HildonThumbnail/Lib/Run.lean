import Mathlib.Data.List.Induction
import Mathlib.Order.WellFounded

/-! Finite runs of a deterministic labelled transition system. A label that is
not enabled ends the run without a state. -/

/-- A property of histories that one more event keeps exactly when the event is
a good one holds all along a history of good events only. -/
theorem List.forall_prefix_iff {α : Type*} {P : List α → Prop} {G : List α → α → Prop} (hnil : P [])
    (hstep : ∀ l a, P l → (P (l ++ [a]) ↔ G l a)) (l : List α) :
    (∀ pre, pre <+: l → P pre) ↔ ∀ pre a, pre ++ [a] <+: l → G pre a := by
  constructor
  · intro h pre a hpre
    exact (hstep pre a (h pre ((List.prefix_append pre [a]).trans hpre))).mp (h _ hpre)
  · intro h pre
    induction pre using List.reverseRecOn with
    | nil => exact fun _ => hnil
    | append_singleton pre a ih =>
      intro hpre
      exact (hstep pre a (ih ((List.prefix_append pre [a]).trans hpre))).mpr (h pre a hpre)

namespace StepRun

variable {σ ι : Type*} (step : σ → ι → Option σ)

def run : σ → List ι → Option σ
  | s, [] => some s
  | s, a :: as => (step s a).bind fun t => run t as

@[simp] theorem run_nil (s : σ) : run step s [] = some s := rfl

@[simp] theorem run_cons (s : σ) (a : ι) (as : List ι) :
    run step s (a :: as) = (step s a).bind fun t => run step t as := rfl

theorem run_append (s : σ) (as bs : List ι) :
    run step s (as ++ bs) = (run step s as).bind fun t => run step t bs := by
  induction as generalizing s with
  | nil => rfl
  | cons a as ih => simp only [List.cons_append, run_cons, ih, Option.bind_assoc]

theorem run_snoc {s t : σ} {as : List ι} {a : ι} :
    run step s (as ++ [a]) = some t ↔ ∃ u, run step s as = some u ∧ step u a = some t := by
  simp [run_append, Option.bind_eq_some_iff]

/-- A relation that every step respects and that composes holds between the
ends of every run. -/
theorem run_relation {step : σ → ι → Option σ} {R : σ → σ → Prop} (hrefl : ∀ s, R s s)
    (htrans : ∀ s t u, R s t → R t u → R s u) (hstep : ∀ s a t, step s a = some t → R s t)
    {s t : σ} {as : List ι} (h : run step s as = some t) : R s t := by
  induction as generalizing s with
  | nil => exact Option.some.inj h ▸ hrefl s
  | cons a as ih =>
    obtain ⟨u, hu, hr⟩ := Option.bind_eq_some_iff.mp h
    exact htrans s u t (hstep s a u hu) (ih hr)

theorem run_invariant {step : σ → ι → Option σ} {P : σ → Prop} (hstep : ∀ s a t, P s → step s a = some t → P t)
    {s t : σ} {as : List ι} (hs : P s) (h : run step s as = some t) : P t := by
  induction as generalizing s with
  | nil => exact Option.some.inj h ▸ hs
  | cons a as ih =>
    obtain ⟨u, hu, hr⟩ := Option.bind_eq_some_iff.mp h
    exact ih (hstep s a u hs hu) hr

/-- When each step uses up one unit, a run is as long as what it has used up. -/
theorem run_length {step : σ → ι → Option σ} {m : σ → Nat} {P : σ → Prop}
    (hstep : ∀ s a t, P s → step s a = some t → P t ∧ m t + 1 = m s) {s t : σ} {as : List ι} (hs : P s)
    (h : run step s as = some t) : P t ∧ as.length + m t = m s := by
  induction as generalizing s with
  | nil =>
    obtain rfl := Option.some.inj h
    exact ⟨hs, Nat.zero_add _⟩
  | cons a as ih =>
    obtain ⟨u, hu, hr⟩ := Option.bind_eq_some_iff.mp h
    obtain ⟨hPu, hm⟩ := hstep s a u hs hu
    obtain ⟨hPt, hlen⟩ := ih hPu hr
    refine ⟨hPt, ?_⟩
    rw [List.length_cons]
    omega

theorem run_map {κ : Type*} (f : κ → ι) (s : σ) (ks : List κ) :
    run step s (ks.map f) = run (fun s k => step s (f k)) s ks := by
  induction ks generalizing s with
  | nil => rfl
  | cons k ks ih => simp only [List.map_cons, run_cons, ih]

/-- Every step of the run is taken in a state where its label is allowed. -/
def Guarded (guard : σ → ι → Prop) : σ → List ι → Prop
  | _, [] => True
  | s, a :: as => guard s a ∧ ∀ t, step s a = some t → Guarded guard t as

instance decidableGuarded (step : σ → ι → Option σ) (guard : σ → ι → Prop) [∀ s a, Decidable (guard s a)] :
    ∀ s as, Decidable (Guarded step guard s as)
  | _, [] => isTrue trivial
  | s, a :: as =>
    match h : step s a with
    | none => decidable_of_iff (guard s a) (by simp [Guarded, h])
    | some t =>
      have := decidableGuarded step guard t as
      decidable_of_iff (guard s a ∧ Guarded step guard t as) (by simp [Guarded, h])

theorem guarded_append {step : σ → ι → Option σ} {guard : σ → ι → Prop} {s : σ} {as bs : List ι} :
    Guarded step guard s (as ++ bs) ↔
      Guarded step guard s as ∧ ∀ t, run step s as = some t → Guarded step guard t bs := by
  induction as generalizing s with
  | nil => simp [Guarded]
  | cons a as ih =>
    simp only [List.cons_append, Guarded, ih, run_cons, Option.bind_eq_some_iff]
    constructor
    · rintro ⟨ha, h⟩
      exact ⟨⟨ha, fun t ht => (h t ht).1⟩, fun t ⟨u, hu, hr⟩ => (h u hu).2 t hr⟩
    · rintro ⟨⟨ha, h⟩, h'⟩
      exact ⟨ha, fun t ht => ⟨h t ht, fun u hu => h' u ⟨t, ht, hu⟩⟩⟩

theorem guarded_mono {step : σ → ι → Option σ} {guard guard' : σ → ι → Prop}
    (h : ∀ s a, guard s a → guard' s a) {s : σ}
    {as : List ι} (hg : Guarded step guard s as) : Guarded step guard' s as := by
  induction as generalizing s with
  | nil => trivial
  | cons a as ih => exact ⟨h s a hg.1, fun t ht => ih (hg.2 t ht)⟩

theorem guarded_invariant {step : σ → ι → Option σ} {guard : σ → ι → Prop} {P : σ → Prop}
    (hstep : ∀ s a t, P s → guard s a → step s a = some t → P t) {s t : σ} {as : List ι}
    (hs : P s) (hg : Guarded step guard s as) (h : run step s as = some t) : P t := by
  induction as generalizing s with
  | nil => simpa [← Option.some.inj h] using hs
  | cons a as ih =>
    obtain ⟨u, hu, hr⟩ := Option.bind_eq_some_iff.mp h
    exact ih (hstep s a u hs hg.1 hu) (hg.2 u hu) hr

/-- A run gets to its end exactly when every label on its way is allowed. -/
theorem run_isSome_iff {step : σ → ι → Option σ} {guard : σ → ι → Prop} {P : σ → Prop}
    (hkeep : ∀ s a t, P s → step s a = some t → P t)
    (hstep : ∀ s a, P s → ((step s a).isSome ↔ guard s a)) {s : σ} (hs : P s) (as : List ι) :
    (run step s as).isSome ↔ Guarded step guard s as := by
  induction as generalizing s with
  | nil => simp [Guarded]
  | cons a as ih =>
    rw [run_cons, Guarded, ← hstep s a hs]
    cases hstep' : step s a with
    | none => simp
    | some u => simpa using ih (hkeep s a u hs hstep')

/-- A run stays safe exactly when every label on its way is allowed: the others lead out. -/
theorem forall_safe_iff {step : σ → ι → Option σ} {guard : σ → ι → Prop} {P safe : σ → Prop}
    (hsafe : ∀ s, P s → safe s) (hstep : ∀ s a, P s → ((∀ t, step s a = some t → safe t) ↔ guard s a))
    (hkeep : ∀ s a t, P s → guard s a → step s a = some t → P t) {s : σ} (hs : P s) (as : List ι) :
    (∀ pre t, pre <+: as → run step s pre = some t → safe t) ↔ Guarded step guard s as := by
  induction as generalizing s with
  | nil =>
    refine iff_of_true (fun pre t hpre hrun => ?_) trivial
    obtain rfl := List.prefix_nil.mp hpre
    exact Option.some.inj hrun ▸ hsafe s hs
  | cons a as ih =>
    constructor
    · intro h
      have hguard : guard s a := (hstep s a hs).mp fun t ht => h [a] t (by simp) (by simp [ht])
      refine ⟨hguard, fun t ht => (ih (hkeep s a t hs hguard ht)).mp fun pre u hpre hrun => ?_⟩
      exact h (a :: pre) u ((List.prefix_cons_inj a).mpr hpre) (by simp [ht, hrun])
    · rintro ⟨hguard, hrest⟩ pre u hpre hrun
      cases pre with
      | nil => exact Option.some.inj hrun ▸ hsafe s hs
      | cons b pre =>
        obtain ⟨rfl, hpre'⟩ := List.cons_prefix_cons.mp hpre
        obtain ⟨t, ht, hrun'⟩ := Option.bind_eq_some_iff.mp hrun
        exact (ih (hkeep s b t hs hguard ht)).mpr (hrest t ht) pre u hpre' hrun'

/-- Steps that lower a measure come to an end. -/
theorem not_forever {r : σ → σ → Prop} {P : σ → Prop} {μ : Type*} [LT μ] [WellFoundedLT μ] {m : σ → μ}
    (hstep : ∀ s t, P s → r s t → P t ∧ m t < m s) {f : Nat → σ} (hf : P (f 0)) : ¬ ∀ n, r (f n) (f (n + 1)) := by
  intro h
  have hP (n : Nat) : P (f n) := by
    induction n with
    | zero => exact hf
    | succ n ih => exact (hstep _ _ ih (h n)).1
  obtain ⟨n, hn⟩ := WellFounded.not_rel_apply_succ (r := fun a b : μ => a < b) fun n => m (f n)
  exact hn (hstep _ _ (hP n) (h n)).2

/-- What the steps of a run leave behind, in order, when every label is enabled. -/
def gather {α : Type*} (f : σ → ι → σ) (leaves : σ → ι → List α) : σ → List ι → List α
  | _, [] => []
  | s, a :: as => leaves s a ++ gather f leaves (f s a) as

/-- A loop that takes one step for each label while `cond` holds, with the
labels it leaves. -/
def loop (cond : σ → Bool) : σ → List ι → Option (σ × List ι)
  | s, [] => if cond s then none else some (s, [])
  | s, a :: as => if cond s then (step s a).bind fun t => loop cond t as else some (s, a :: as)

/-- More labels do not change where a loop has ended. -/
theorem loop_append {step : σ → ι → Option σ} {cond : σ → Bool} {s t : σ} {as bs : List ι}
    (h : loop step cond s as = some (t, bs)) (cs : List ι) : loop step cond s (as ++ cs) = some (t, bs ++ cs) := by
  induction as generalizing s with
  | nil =>
    simp only [loop, Option.ite_none_left_eq_some, Option.some.injEq, Prod.mk.injEq] at h
    obtain ⟨hc, rfl, rfl⟩ := h
    cases cs with
    | nil => simp [loop, hc]
    | cons c cs => simp [loop, hc]
  | cons a as ih =>
    rw [loop] at h
    rw [List.cons_append, loop]
    split at h
    · next hc =>
      obtain ⟨u, hu, hl⟩ := Option.bind_eq_some_iff.mp h
      rw [if_pos hc, hu]
      exact ih hl
    · next hc =>
      obtain ⟨rfl, rfl⟩ := Prod.mk.inj (Option.some.inj h)
      rw [if_neg hc]
      rfl

theorem loop_eq_some {step : σ → ι → Option σ} {cond : σ → Bool} {s t : σ} {as bs : List ι}
    (h : loop step cond s as = some (t, bs)) :
    cond t = false ∧ ∃ used, as = used ++ bs ∧ run step s used = some t := by
  induction as generalizing s with
  | nil =>
    simp only [loop, Option.ite_none_left_eq_some, Option.some.injEq, Prod.mk.injEq] at h
    obtain ⟨hc, rfl, rfl⟩ := h
    exact ⟨by simpa using hc, [], rfl, rfl⟩
  | cons a as ih =>
    rw [loop] at h
    split at h
    · obtain ⟨u, hu, hl⟩ := Option.bind_eq_some_iff.mp h
      obtain ⟨hc, used, rfl, hr⟩ := ih hl
      exact ⟨hc, a :: used, rfl, by simp [hu, hr]⟩
    · next hc =>
      obtain ⟨rfl, rfl⟩ := Prod.mk.inj (Option.some.inj h)
      exact ⟨Bool.eq_false_iff.mpr hc, [], rfl, rfl⟩

end StepRun
