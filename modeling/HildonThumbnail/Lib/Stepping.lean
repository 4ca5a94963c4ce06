import HildonThumbnail.Lib.While

/-! A loop that takes one result of a prepared statement after another, starts
the statement again after an error and tries again where it is locked. -/

namespace Stepping

inductive Result (β : Type*)
  | row (column : β)
  | done
  | busy
  | error
  | failed

/-- `calls` counts the results that were taken. -/
structure State (α : Type*) where
  calls : Nat
  value : α
  ended : Bool

section
variable {α β : Type*} (visit : α → β → α × Bool) (answer : Nat → Result β)

/-- What `visit` makes of a row also tells whether the loop is left. -/
def turn (s : State α) : Option (State α) :=
  if s.ended then none
  else
    match answer s.calls with
    | .error | .busy => some { s with calls := s.calls + 1 }
    | .row column => some ⟨s.calls + 1, (visit s.value column).1, (visit s.value column).2⟩
    | .done | .failed => some ⟨s.calls + 1, s.value, true⟩

def run (fuel : Nat) (a : α) : Option α := (WhileLoop.exec (turn visit answer) fuel ⟨0, a, false⟩).map State.value

def visitAll : α → List β → α
  | a, [] => a
  | a, column :: columns =>
    if (visit a column).2 then (visit a column).1 else visitAll (visit a column).1 columns

/-- The results of a statement that finds so many locks before it gets on. -/
def rows (busy : Nat) (columns : List β) (n : Nat) : Result β :=
  if n < busy then .busy
  else
    match columns[n - busy]? with
    | some column => .row column
    | none => .done

end

section
variable {α β : Type*} {visit : α → β → α × Bool} {answer : Nat → Result β}

theorem endsIn_of_ended (n : Nat) (a : α) : WhileLoop.EndsIn (turn visit answer) ⟨n, a, true⟩ ⟨n, a, true⟩ :=
  (WhileLoop.endsIn_of_none rfl).mpr rfl

theorem endsIn_columns (visit : α → β → α × Bool) (columns : List β) {k : Nat}
    (h : ∀ i, answer (k + i) = match columns[i]? with
      | some column => .row column
      | none => .done) (a : α) :
    ∃ n, WhileLoop.EndsIn (turn visit answer) ⟨k, a, false⟩ ⟨n, visitAll visit a columns, true⟩ := by
  induction columns generalizing k a with
  | nil =>
    have hdone : answer k = .done := h 0
    have hturn : turn visit answer ⟨k, a, false⟩ = some ⟨k + 1, a, true⟩ := by simp [turn, hdone]
    exact ⟨k + 1, (WhileLoop.endsIn_of_some hturn).mpr (endsIn_of_ended _ _)⟩
  | cons column columns ih =>
    have hrow : answer k = .row column := h 0
    have hturn : turn visit answer ⟨k, a, false⟩ = some ⟨k + 1, (visit a column).1, (visit a column).2⟩ := by
      simp [turn, hrow]
    have hrest (i : Nat) : answer (k + 1 + i) = match columns[i]? with
        | some column => .row column
        | none => .done := by
      rw [Nat.add_assoc, Nat.add_comm 1 i]
      exact h (i + 1)
    rw [visitAll]
    cases hleft : (visit a column).2 with
    | true =>
      rw [hleft] at hturn
      exact ⟨k + 1, (WhileLoop.endsIn_of_some hturn).mpr (by simpa using endsIn_of_ended _ _)⟩
    | false =>
      rw [hleft] at hturn
      obtain ⟨n, hn⟩ := ih hrest (visit a column).1
      exact ⟨n, (WhileLoop.endsIn_of_some hturn).mpr (by simpa using hn)⟩

theorem endsIn_busy {k busy : Nat} (h : ∀ i, i < busy → answer (k + i) = .busy) (a : α) {t : State α} :
    WhileLoop.EndsIn (turn visit answer) ⟨k, a, false⟩ t ↔
      WhileLoop.EndsIn (turn visit answer) ⟨k + busy, a, false⟩ t := by
  induction busy generalizing k with
  | zero => rfl
  | succ busy ih =>
    have hbusy : answer k = .busy := h 0 (Nat.succ_pos busy)
    have hturn : turn visit answer ⟨k, a, false⟩ = some ⟨k + 1, a, false⟩ := by simp [turn, hbusy]
    have hrest (i : Nat) (hi : i < busy) : answer (k + 1 + i) = .busy := by
      rw [Nat.add_assoc, Nat.add_comm 1 i]
      exact h (i + 1) (Nat.succ_lt_succ hi)
    rw [WhileLoop.endsIn_of_some hturn, ih hrest, Nat.add_assoc, Nat.add_comm 1 busy]

theorem run_eq_some_iff {fuel : Nat} {a b : α} : run visit answer fuel a = some b ↔
    ∃ t, WhileLoop.exec (turn visit answer) fuel ⟨0, a, false⟩ = some t ∧ t.value = b := by
  rw [run, Option.map_eq_some_iff]

/-- With rows and locks only the loop comes to its end, and has visited the rows
up to the one at which it is left. -/
theorem run_rows_iff (busy : Nat) (columns : List β) (a b : α) :
    (∃ fuel, run visit (rows busy columns) fuel a = some b) ↔ b = visitAll visit a columns := by
  have hlocked (i : Nat) (hi : i < busy) : rows busy columns (0 + i) = .busy := by
    rw [Nat.zero_add, rows, if_pos hi]
  have hcolumns (i : Nat) : rows busy columns (0 + busy + i) = match columns[i]? with
      | some column => .row column
      | none => .done := by
    rw [Nat.zero_add, rows, if_neg (by omega), Nat.add_sub_cancel_left]
  obtain ⟨n, hends⟩ := endsIn_columns visit columns hcolumns a
  have hrun := (endsIn_busy hlocked a).mpr hends
  constructor
  · rintro ⟨fuel, hfuel⟩
    obtain ⟨t, ht, rfl⟩ := run_eq_some_iff.mp hfuel
    rw [WhileLoop.EndsIn.unique ⟨fuel, ht⟩ hrun]
  · rintro rfl
    obtain ⟨fuel, hfuel⟩ := hrun
    exact ⟨fuel, run_eq_some_iff.mpr ⟨_, hfuel, rfl⟩⟩

/-- A statement that fails at every step keeps the loop for ever. -/
theorem run_error (h : ∀ n, answer n = .error ∨ answer n = .busy) (fuel : Nat) (a : α) :
    run visit answer fuel a = none := by
  have hnever : ¬ WhileLoop.Ends (turn visit answer) ⟨0, a, false⟩ := by
    refine WhileLoop.not_ends_of_invariant (P := fun s => s.ended = false) (fun s hs => ?_) rfl
    refine ⟨{ s with calls := s.calls + 1 }, ?_, hs⟩
    rcases h s.calls with herror | hbusy
    · simp [turn, hs, herror]
    · simp [turn, hs, hbusy]
  cases hrun : run visit answer fuel a with
  | none => rfl
  | some b =>
    obtain ⟨t, ht, _⟩ := run_eq_some_iff.mp hrun
    exact absurd ⟨t, fuel, ht⟩ hnever

/-- What every row keeps is kept by the loop. -/
theorem run_invariant {P : α → Prop} (hP : ∀ a column, P a → P (visit a column).1) {fuel : Nat} {a b : α} (ha : P a)
    (h : run visit answer fuel a = some b) : P b := by
  obtain ⟨t, ht, rfl⟩ := run_eq_some_iff.mp h
  refine WhileLoop.EndsIn.invariant (P := fun s => P s.value) (fun s u hs hturn => ?_) ha ⟨fuel, ht⟩
  rw [turn] at hturn
  split at hturn
  · cases hturn
  · split at hturn <;> obtain rfl := Option.some.inj hturn
    · exact hs
    · exact hs
    · exact hP _ _ hs
    · exact hs
    · exact hs

end

end Stepping
