import Mathlib.Data.List.Basic

/-! Handlers of calls, which change a state and give replies on the way, and may
not come to their end. -/

namespace Replies

abbrev Handler (σ ρ : Type) := StateT (σ × List ρ) Option

variable {σ ρ α β : Type}

def reply (r : ρ) : Handler σ ρ Unit := modify fun s => (s.1, s.2 ++ [r])

def update (f : σ → σ) : Handler σ ρ Unit := modify fun s => (f s.1, s.2)

/-- A change of the state that may not come to its end. -/
def attempt (f : σ → Option σ) : Handler σ ρ Unit := fun s => (f s.1).map fun t => ((), t, s.2)

def current : Handler σ ρ σ := do return (← get).1

/-- The state that the handler leaves and its replies, if it comes to its end. -/
def answer (h : Handler σ ρ Unit) (s : σ) : Option (σ × List ρ) := (h.run (s, [])).map Prod.snd

/-- Whenever it comes to its end, the handler has given `n` replies. -/
def Gives (n : Nat) (h : Handler σ ρ α) : Prop :=
  ∀ s a t, h.run s = some (a, t) → t.2.length = s.2.length + n

theorem gives_pure (a : α) : Gives 0 (pure a : Handler σ ρ α) := by
  rintro s b t h
  obtain ⟨rfl, rfl⟩ := Prod.mk.inj (Option.some.inj h)
  rfl

theorem gives_bind {m n : Nat} {h : Handler σ ρ α} {f : α → Handler σ ρ β} (hh : Gives m h)
    (hf : ∀ a, Gives n (f a)) : Gives (m + n) (h >>= f) := by
  rintro s b u hrun
  rw [StateT.run_bind] at hrun
  obtain ⟨⟨a, t⟩, hfirst, hrest⟩ := Option.bind_eq_some_iff.mp hrun
  have hlen := hf a t b u hrest
  rw [hh s a t hfirst] at hlen
  rw [hlen, Nat.add_assoc]

theorem gives_reply (r : ρ) : Gives 1 (reply r : Handler σ ρ Unit) := by
  rintro s b t h
  obtain ⟨rfl, rfl⟩ := Prod.mk.inj (Option.some.inj h)
  simp

theorem gives_update (f : σ → σ) : Gives 0 (update f : Handler σ ρ Unit) := by
  rintro s b t h
  obtain ⟨rfl, rfl⟩ := Prod.mk.inj (Option.some.inj h)
  rfl

theorem gives_attempt (f : σ → Option σ) : Gives 0 (attempt f : Handler σ ρ Unit) := by
  rintro s b t h
  obtain ⟨u, _, heq⟩ := Option.map_eq_some_iff.mp h
  obtain ⟨rfl, rfl⟩ := Prod.mk.inj heq
  rfl

theorem gives_current : Gives 0 (current : Handler σ ρ σ) := by
  rintro s b t h
  obtain ⟨rfl, rfl⟩ := Prod.mk.inj (Option.some.inj h)
  rfl

/-- A handler that never comes to its end gives any number. -/
theorem gives_failure (n : Nat) : Gives n (failure : Handler σ ρ α) := by
  rintro s a t h
  cases h

theorem length_answer {n : Nat} {h : Handler σ ρ Unit} (hh : Gives n h) {s t : σ} {replies : List ρ}
    (ha : answer h s = some (t, replies)) : replies.length = n := by
  obtain ⟨⟨u, t, replies⟩, hrun, hresult⟩ := Option.map_eq_some_iff.mp ha
  obtain ⟨rfl, rfl⟩ := Prod.mk.inj hresult
  simpa using hh (s, []) u _ hrun

end Replies
