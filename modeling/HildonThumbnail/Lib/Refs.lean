import Mathlib.Data.List.Perm.Basic

/-! References that code takes and gives back: what it holds, and whether it has
given back what it did not hold. -/

structure Refs (α : Type) where
  held : List α
  misuse : Bool

namespace Refs
variable {α : Type} [DecidableEq α]

def take (r : Refs α) (a : α) : Refs α := { r with held := a :: r.held }

def give (r : Refs α) (a : α) : Refs α :=
  if a ∈ r.held then { r with held := r.held.erase a } else { r with misuse := true }

def takeAll (r : Refs α) (as : List α) : Refs α := as.foldl take r

def giveAll (r : Refs α) (as : List α) : Refs α := as.foldl give r

/-- `r'` holds `as` beyond what `r` holds, and nothing was misused in between. -/
structure Owes (r r' : Refs α) (as : List α) : Prop where
  held : r'.held.Perm (as ++ r.held)
  misuse : r'.misuse = r.misuse

section
variable {r r' r'' : Refs α} {a : α} {as bs : List α}

omit [DecidableEq α] in
theorem Owes.refl (r : Refs α) : r.Owes r [] := ⟨.refl _, rfl⟩

omit [DecidableEq α] in
theorem Owes.perm (h : r.Owes r' as) (hp : as.Perm bs) : r.Owes r' bs :=
  ⟨h.held.trans (hp.append_right _), h.misuse⟩

omit [DecidableEq α] in
theorem Owes.trans (h : r.Owes r' as) (h' : r'.Owes r'' bs) : r.Owes r'' (bs ++ as) where
  held := by
    rw [List.append_assoc]
    exact h'.held.trans (h.held.append_left bs)
  misuse := h'.misuse.trans h.misuse

omit [DecidableEq α] in
theorem Owes.take (h : r.Owes r' as) (a : α) : r.Owes (r'.take a) (a :: as) := ⟨h.held.cons a, h.misuse⟩

theorem Owes.give (h : r.Owes r' as) (ha : a ∈ as) : r.Owes (r'.give a) (as.erase a) := by
  have hmem : a ∈ r'.held := h.held.mem_iff.mpr (List.mem_append_left _ ha)
  rw [Refs.give, if_pos hmem]
  refine ⟨?_, h.misuse⟩
  have hp := h.held.erase a
  rwa [List.erase_append_left _ ha] at hp

theorem Owes.give_head (h : r.Owes r' (a :: as)) : r.Owes (r'.give a) as := by
  have hgive := h.give List.mem_cons_self
  rwa [List.erase_cons_head] at hgive

omit [DecidableEq α] in
theorem Owes.takeAll (h : r.Owes r' as) (bs : List α) : r.Owes (r'.takeAll bs) (bs ++ as) := by
  induction bs generalizing r' as with
  | nil => exact h
  | cons b bs ih => exact (ih (h.take b)).perm List.perm_middle

/-- What was taken can be given back in any order. -/
theorem Owes.giveAll (h : r.Owes r' (bs ++ as)) : r.Owes (r'.giveAll bs) as := by
  induction bs generalizing r' with
  | nil => exact h
  | cons b bs ih => exact ih h.give_head

end

end Refs
