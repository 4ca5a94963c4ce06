import Mathlib.Data.Option.Basic

/-! A loop without labels: `step` is the state after one turn, `none` where the
condition of the loop fails. -/

namespace WhileLoop

variable {σ : Type*} (step : σ → Option σ)

/-- The state in which the loop ends, if it ends within so many tests of its condition. -/
def exec : Nat → σ → Option σ
  | 0, _ => none
  | n + 1, s =>
    match step s with
    | none => some s
    | some t => exec n t

def EndsIn (s t : σ) : Prop := ∃ n, exec step n s = some t

def Ends (s : σ) : Prop := ∃ t, EndsIn step s t

variable {step} {s t u : σ}

theorem exec_succ_of_none (h : step s = none) (n : Nat) : exec step (n + 1) s = some s := by
  simp [exec, h]

theorem exec_succ_of_some (h : step s = some t) (n : Nat) : exec step (n + 1) s = exec step n t := by
  simp [exec, h]

theorem endsIn_of_none (h : step s = none) : EndsIn step s t ↔ t = s := by
  constructor
  · rintro ⟨n, hn⟩
    cases n with
    | zero => simp [exec] at hn
    | succ n =>
      rw [exec_succ_of_none h] at hn
      exact (Option.some.inj hn).symm
  · rintro rfl
    exact ⟨1, exec_succ_of_none h 0⟩

theorem endsIn_of_some (h : step s = some u) : EndsIn step s t ↔ EndsIn step u t := by
  constructor
  · rintro ⟨n, hn⟩
    cases n with
    | zero => simp [exec] at hn
    | succ n =>
      rw [exec_succ_of_some h] at hn
      exact ⟨n, hn⟩
  · rintro ⟨n, hn⟩
    exact ⟨n + 1, by rw [exec_succ_of_some h, hn]⟩

theorem ends_of_some (h : step s = some u) : Ends step s ↔ Ends step u :=
  exists_congr fun _ => endsIn_of_some h

theorem exec_eq_some_of_le {n m : Nat} (hle : n ≤ m) (h : exec step n s = some t) : exec step m s = some t := by
  induction n generalizing s m with
  | zero => simp [exec] at h
  | succ n ih =>
    obtain ⟨m, rfl⟩ : ∃ k, m = k + 1 := ⟨m - 1, by omega⟩
    cases hstep : step s with
    | none =>
      rw [exec_succ_of_none hstep] at h ⊢
      exact h
    | some u =>
      rw [exec_succ_of_some hstep] at h ⊢
      exact ih (by omega) h

theorem EndsIn.unique (h : EndsIn step s t) (h' : EndsIn step s u) : t = u := by
  obtain ⟨n, hn⟩ := h
  obtain ⟨m, hm⟩ := h'
  have hn' := exec_eq_some_of_le (Nat.le_max_left n m) hn
  have hm' := exec_eq_some_of_le (Nat.le_max_right n m) hm
  exact Option.some.inj (hn'.symm.trans hm')

theorem EndsIn.stopped (h : EndsIn step s t) : step t = none := by
  obtain ⟨n, hn⟩ := h
  induction n generalizing s with
  | zero => simp [exec] at hn
  | succ n ih =>
    cases hstep : step s with
    | none =>
      rw [exec_succ_of_none hstep] at hn
      exact Option.some.inj hn ▸ hstep
    | some u =>
      rw [exec_succ_of_some hstep] at hn
      exact ih hn

theorem EndsIn.invariant {P : σ → Prop} (hP : ∀ s t, P s → step s = some t → P t) (hs : P s)
    (h : EndsIn step s t) : P t := by
  obtain ⟨n, hn⟩ := h
  induction n generalizing s with
  | zero => simp [exec] at hn
  | succ n ih =>
    cases hstep : step s with
    | none =>
      rw [exec_succ_of_none hstep] at hn
      exact Option.some.inj hn ▸ hs
    | some u =>
      rw [exec_succ_of_some hstep] at hn
      exact ih (hP s u hs hstep) hn

/-- A loop ends if each of its turns brings a measure down. -/
theorem ends_of_measure (μ : σ → Nat) (hμ : ∀ s t, step s = some t → μ t < μ s) (s : σ) : Ends step s := by
  induction hn : μ s using Nat.strongRecOn generalizing s with
  | ind n ih =>
    cases hstep : step s with
    | none => exact ⟨s, (endsIn_of_none hstep).mpr rfl⟩
    | some t => exact (ends_of_some hstep).mpr (ih (μ t) (hn ▸ hμ s t hstep) t rfl)

/-- A loop never ends if what makes it take a turn holds again after the turn. -/
theorem not_ends_of_invariant {P : σ → Prop} (hP : ∀ s, P s → ∃ t, step s = some t ∧ P t) (hs : P s) :
    ¬ Ends step s := by
  rintro ⟨t, n, hn⟩
  induction n generalizing s with
  | zero => simp [exec] at hn
  | succ n ih =>
    obtain ⟨u, hu, hPu⟩ := hP s hs
    rw [exec_succ_of_some hu] at hn
    exact ih hPu hn

/-- Turns that are enough for each of some loops are enough for all of them. -/
theorem exists_turns {α : Type*} {P : Nat → α → Prop} (l : List α) (h : ∀ a ∈ l, ∃ n, ∀ m, n ≤ m → P m a) :
    ∃ n, ∀ m, n ≤ m → ∀ a ∈ l, P m a := by
  induction l with
  | nil => exact ⟨0, fun m _ a ha => nomatch ha⟩
  | cons a l ih =>
    obtain ⟨hfirst, hrest⟩ := List.forall_mem_cons.mp h
    obtain ⟨n, hn⟩ := hfirst
    obtain ⟨k, hk⟩ := ih hrest
    refine ⟨max n k, fun m hm => List.forall_mem_cons.mpr ⟨hn m ?_, hk m ?_⟩⟩
    · omega
    · omega

end WhileLoop
