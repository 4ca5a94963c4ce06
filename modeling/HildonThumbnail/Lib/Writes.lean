import Mathlib.Data.List.Basic
import Mathlib.Data.List.GetD

/-! Writes of whole runs of cells to a block of memory, each told by its place
and the cells it leaves there. -/

namespace BlockWrites

variable {α : Type*} {zero : α} {mem : Nat → α} {w : Nat × List α} {out bytes : List α}

def write (mem : Nat → α) (w : Nat × List α) (k : Nat) : α :=
  if w.1 ≤ k then w.2.getD (k - w.1) (mem k) else mem k

/-- What a block of zeros holds after the writes. -/
def contents (zero : α) (writes : List (Nat × List α)) : Nat → α := writes.foldl write fun _ => zero

theorem contents_concat (writes : List (Nat × List α)) (w : Nat × List α) :
    contents zero (writes ++ [w]) = write (contents zero writes) w := List.foldl_concat _ _ _ _

theorem write_of_le {k : Nat} (h : w.1 + w.2.length ≤ k) : write mem w k = mem k := by
  rw [write, if_pos (by omega), List.getD_eq_default _ _ (by omega)]

/-- Every write that writes anything stays in the block. -/
def Within (size : Nat) (writes : List (Nat × List α)) : Prop :=
  ∀ w ∈ writes, w.2 ≠ [] → w.1 + w.2.length ≤ size

instance [DecidableEq α] (size : Nat) (writes : List (Nat × List α)) : Decidable (Within size writes) :=
  inferInstanceAs (Decidable (∀ w ∈ writes, w.2 ≠ [] → w.1 + w.2.length ≤ size))

/-- The block holds this and then zeros. -/
def Holds (zero : α) (mem : Nat → α) (out : List α) : Prop := ∀ k, mem k = out.getD k zero

theorem holds_contents_nil : Holds zero (contents zero []) [] := fun _ => rfl

theorem Holds.write (h : Holds zero mem out) (bytes : List α) :
    Holds zero (write mem (out.length, bytes)) (out ++ bytes) := by
  intro k
  rw [BlockWrites.write]
  split
  · next hk => rw [List.getD_append_right _ _ _ _ hk, h k, List.getD_eq_default _ _ hk]
  · next hk => rw [List.getD_append _ _ _ _ (by omega), h k]

theorem Holds.write_nil (h : Holds zero mem out) (place : Nat) :
    Holds zero (BlockWrites.write mem (place, [])) out := by
  intro k
  simpa [BlockWrites.write] using h k

theorem Holds.cells (h : Holds zero mem out) {size : Nat} (hlt : out.length < size) :
    ∃ rest, (List.range size).map mem = out ++ zero :: rest := by
  obtain ⟨n, rfl⟩ : ∃ n, size = out.length + (n + 1) := ⟨size - out.length - 1, by omega⟩
  refine ⟨List.replicate n zero, ?_⟩
  show _ = out ++ List.replicate (n + 1) zero
  apply List.ext_getElem (by simp)
  intro k _ _
  rw [List.getElem_map, List.getElem_range, h k]
  by_cases hk : k < out.length
  · rw [List.getElem_append_left hk, List.getD_eq_getElem _ _ hk]
  · rw [List.getElem_append_right (by omega), List.getElem_replicate, List.getD_eq_default _ _ (by omega)]

theorem of_cells {size : Nat} {rest : List α} (h : (List.range size).map mem = out ++ zero :: rest) :
    out.length < size ∧ ∀ k (hk : k < out.length), mem k = out[k] := by
  have hlen := congrArg List.length h
  rw [List.length_map, List.length_range, List.length_append, List.length_cons] at hlen
  refine ⟨by omega, ?_⟩
  intro k hk
  have hcell : ((List.range size).map mem)[k]? = (out ++ zero :: rest)[k]? := congrArg (·[k]?) h
  rw [List.getElem?_append_left hk, List.getElem?_eq_getElem hk, List.getElem?_map,
    List.getElem?_range (by omega)] at hcell
  exact Option.some.inj hcell

end BlockWrites
