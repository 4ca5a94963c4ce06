import Mathlib.Data.List.Range

/-! The positions of a list where an entry and the one behind it are related. -/

namespace Neighbours

variable {α : Type*} (r : α → α → Bool)

def relatedAt (xs : List α) (i : Nat) : Bool :=
  match xs[i]?, xs[i + 1]? with
  | some a, some b => r a b
  | _, _ => false

def countBefore (xs : List α) (n : Nat) : Nat := (List.range n).countP (relatedAt r xs)

def count (xs : List α) : Nat := countBefore r xs xs.length

variable {r}

theorem relatedAt_of_getElem? {xs : List α} {i : Nat} {a b : α} (ha : xs[i]? = some a) (hb : xs[i + 1]? = some b) :
    relatedAt r xs i = r a b := by
  simp [relatedAt, ha, hb]

theorem relatedAt_of_missing {xs : List α} {i : Nat} (h : xs[i + 1]? = none) : relatedAt r xs i = false := by
  unfold relatedAt
  rw [h]
  cases xs[i]? <;> rfl

theorem relatedAt_of_le {xs : List α} {i : Nat} (h : xs.length ≤ i + 1) : relatedAt r xs i = false :=
  relatedAt_of_missing (List.getElem?_eq_none h)

theorem relatedAt_append_left {xs ys : List α} {i : Nat} (h : i + 1 < xs.length) :
    relatedAt r (xs ++ ys) i = relatedAt r xs i := by
  have hi : i < xs.length := by omega
  simp [relatedAt, List.getElem?_append_left h, List.getElem?_append_left hi]

theorem relatedAt_append_right (xs ys : List α) (i : Nat) :
    relatedAt r (xs ++ ys) (xs.length + i) = relatedAt r ys i := by
  have hi : (xs ++ ys)[xs.length + i]? = ys[i]? := by
    rw [List.getElem?_append_right (by omega)]
    congr 1
    omega
  have hs : (xs ++ ys)[xs.length + i + 1]? = ys[i + 1]? := by
    rw [List.getElem?_append_right (by omega)]
    congr 1
    omega
  simp only [relatedAt, hi, hs]

theorem countBefore_succ (xs : List α) (n : Nat) :
    countBefore r xs (n + 1) = countBefore r xs n + if relatedAt r xs n then 1 else 0 := by
  simp [countBefore, List.range_succ]

theorem countBefore_mono_list {xs ys : List α} {n : Nat}
    (h : ∀ i < n, relatedAt r xs i = true → relatedAt r ys i = true) : countBefore r xs n ≤ countBefore r ys n :=
  List.countP_mono_left fun i hi => h i (List.mem_range.mp hi)

theorem countBefore_congr {xs ys : List α} {n : Nat} (h : ∀ i < n, relatedAt r xs i = relatedAt r ys i) :
    countBefore r xs n = countBefore r ys n := by
  apply Nat.le_antisymm
  · exact countBefore_mono_list fun i hi hr => (h i hi) ▸ hr
  · exact countBefore_mono_list fun i hi hr => (h i hi).symm ▸ hr

theorem countBefore_append (xs ys : List α) (n : Nat) :
    countBefore r (xs ++ ys) (xs.length + n) = countBefore r (xs ++ ys) xs.length + countBefore r ys n := by
  induction n with
  | zero => simp [countBefore]
  | succ n ih =>
    rw [← Nat.add_assoc, countBefore_succ, ih, countBefore_succ, relatedAt_append_right]
    omega

/-- Nothing straddles the seam where the last entry is related to nothing. -/
theorem count_append {xs : List α} (hlast : ∀ a, xs.getLast? = some a → ∀ b, r a b = false) (ys : List α) :
    count r (xs ++ ys) = count r xs + count r ys := by
  have hseam : ∀ i < xs.length, relatedAt r (xs ++ ys) i = relatedAt r xs i := by
    intro i hi
    by_cases hin : i + 1 < xs.length
    · exact relatedAt_append_left hin
    · have hend : i = xs.length - 1 := by omega
      have hget : xs.getLast? = some xs[i] := by
        rw [List.getLast?_eq_getElem?, ← hend]
        exact List.getElem?_eq_getElem hi
      have hno : relatedAt r xs i = false := relatedAt_of_le (by omega)
      rw [hno, relatedAt, List.getElem?_append_left hi, List.getElem?_eq_getElem hi]
      cases (xs ++ ys)[i + 1]? with
      | none => rfl
      | some b => exact hlast _ hget b
  unfold count
  rw [List.length_append, countBefore_append, countBefore_congr hseam]

end Neighbours
