import Mathlib.Data.List.Basic

/-! Arrays of pointers that are read up to the first NULL. An access outside the
array has no result. -/

abbrev PointerArray (α : Type*) := List (Option α)

namespace PointerArray

variable {α : Type*}

def alloc0 (n : Nat) : PointerArray α := List.replicate n none

def write (cells : PointerArray α) (i : Nat) (a : α) : Option (PointerArray α) :=
  if i < cells.length then some (cells.set i (some a)) else none

def writeNull (cells : PointerArray α) (i : Nat) : Option (PointerArray α) :=
  if i < cells.length then some (cells.set i none) else none

/-- All of a list, from a place on. -/
def writeFrom (cells : PointerArray α) (i : Nat) (l : List α) : Option (PointerArray α) :=
  (l.zipIdx i).foldlM (fun cells a => write cells a.2 a.1) cells

/-- The pointers before the first NULL, and not more than the given number. -/
def read : PointerArray α → Nat → Option (List α)
  | _, 0 => some []
  | [], _ + 1 => none
  | none :: _, _ + 1 => some []
  | some a :: cells, n + 1 => (read cells n).map (a :: ·)

def freev : PointerArray α → Option Unit
  | [] => none
  | none :: _ => some ()
  | some _ :: cells => freev cells

/-- The array after `l` has been written from its start; `n` cells are left. -/
def filled (l : List α) (n : Nat) : PointerArray α := l.map some ++ List.replicate n none

theorem alloc0_eq (n : Nat) : (alloc0 n : PointerArray α) = filled [] n := rfl

theorem write_filled (l : List α) (n : Nat) (a : α) :
    write (filled l (n + 1)) l.length a = some (filled (l ++ [a]) n) := by
  have hlt : l.length < (filled l (n + 1)).length := by
    simp only [filled, List.length_append, List.length_map, List.length_replicate]
    omega
  rw [write, if_pos hlt]
  simp [filled, List.replicate_succ]

theorem writeNull_filled (l : List α) (n : Nat) :
    writeNull (filled l (n + 1)) l.length = some (filled l (n + 1)) := by
  have hlt : l.length < (filled l (n + 1)).length := by
    simp only [filled, List.length_append, List.length_map, List.length_replicate]
    omega
  rw [writeNull, if_pos hlt]
  simp [filled, List.replicate_succ]

theorem writeFrom_cons (cells : PointerArray α) (i : Nat) (a : α) (l : List α) :
    writeFrom cells i (a :: l) = (write cells i a).bind fun cells => writeFrom cells (i + 1) l := by
  rw [writeFrom, List.zipIdx_cons, List.foldlM_cons]
  rfl

theorem writeFrom_filled (l l' : List α) (n : Nat) :
    writeFrom (filled l (l'.length + n)) l.length l' = some (filled (l ++ l') n) := by
  induction l' generalizing l with
  | nil => simp [writeFrom]
  | cons a l' ih =>
    have hlength : (a :: l').length + n = l'.length + n + 1 := by
      rw [List.length_cons]
      omega
    have hrest := ih (l ++ [a])
    rw [List.length_append, List.length_singleton, List.append_assoc] at hrest
    rw [writeFrom_cons, hlength, write_filled]
    exact hrest

theorem write_eq_some {cells cells' : PointerArray α} {i : Nat} {a : α} (h : write cells i a = some cells') :
    i < cells.length ∧ cells'.length = cells.length := by
  obtain ⟨hlt, hset⟩ := Option.ite_none_right_eq_some.mp h
  obtain rfl := Option.some.inj hset
  exact ⟨hlt, List.length_set⟩

theorem length_writeFrom {cells cells' : PointerArray α} {i : Nat} {l : List α}
    (h : writeFrom cells i l = some cells') :
    cells'.length = cells.length := by
  induction l generalizing cells i with
  | nil => rw [Option.some.inj h]
  | cons a l ih =>
    rw [writeFrom_cons] at h
    obtain ⟨written, hwrite, hrest⟩ := Option.bind_eq_some_iff.mp h
    rw [ih hrest, (write_eq_some hwrite).2]

theorem read_filled (l : List α) (n m : Nat) (h : l.length < m) :
    read (filled l n) m = if n = 0 then none else some l := by
  induction l generalizing m with
  | nil =>
    obtain ⟨m, rfl⟩ := Nat.exists_eq_succ_of_ne_zero (Nat.ne_of_gt h)
    cases n <;> rfl
  | cons a l ih =>
    obtain ⟨m, rfl⟩ := Nat.exists_eq_succ_of_ne_zero (Nat.ne_of_gt (Nat.zero_lt_of_lt h))
    have hread := ih m (Nat.lt_of_succ_lt_succ h)
    show (read (filled l n) m).map (a :: ·) = _
    rw [hread]
    split <;> rfl

theorem read_filled_length (l : List α) (n : Nat) : read (filled l n) l.length = some l := by
  induction l with
  | nil => cases n <;> rfl
  | cons a l ih =>
    show (read (filled l n) l.length).map (a :: ·) = _
    rw [ih, Option.map_some]

theorem read_filled_of_le (l : List α) (n m : Nat) (h : l.length ≤ m) : read (filled l (n + 1)) m = some l := by
  rcases Nat.lt_or_eq_of_le h with hlt | rfl
  · exact read_filled l (n + 1) m hlt
  · exact read_filled_length l (n + 1)

theorem freev_filled (l : List α) (n : Nat) : freev (filled l (n + 1)) = some () := by
  induction l with
  | nil => rfl
  | cons a l ih => exact ih

end PointerArray
