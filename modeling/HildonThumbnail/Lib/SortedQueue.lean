import HildonThumbnail.Lib.SortedList

/-! A queue into which elements are inserted by a comparison of machine
integers and which gives out its tail (`g_async_queue_push_sorted` and
`g_async_queue_pop`). The search for the place negates the comparison, so the
tail is the element that compares smallest. -/

namespace SortedQueue

variable {α : Type*} {cmp : α → α → Int32}

/-- The search passes each element whose inverted comparison with the new one is negative. -/
def push (cmp : α → α → Int32) (a : α) (q : List α) : List α :=
  q.insertWhere (fun b => !decide (-cmp b a < 0)) a

def pop (q : List α) : Option (α × List α) := q.getLast?.map fun a => (a, q.dropLast)

@[simp] theorem pop_nil : pop ([] : List α) = none := rfl

@[simp] theorem pop_append_singleton (q : List α) (a : α) : pop (q ++ [a]) = some (a, q) := by
  simp [pop]

theorem neg_lt_zero_of_pos {x : Int32} (h : 0 < x) : -x < 0 := by
  have hpos : 0 < x.toInt := by simpa using Int32.lt_iff_toInt_lt.mp h
  have hlt := x.toInt_lt
  have hneg : (-x).toInt = -x.toInt := by
    rw [Int32.toInt_neg]
    exact Int.bmod_eq_of_le (by omega) (by omega)
  rw [Int32.lt_iff_toInt_lt, hneg]
  simpa using hpos

theorem push_eq_append {a : α} {q : List α} (h : ∀ b ∈ q, 0 < cmp b a) : push cmp a q = q ++ [a] := by
  have hpass : ∀ b ∈ q, (!decide (-cmp b a < 0)) = false := fun b hb => by
    simpa using neg_lt_zero_of_pos (h b hb)
  have htake : q.takeWhile (fun b => !!decide (-cmp b a < 0)) = q :=
    List.takeWhile_eq_self_iff.mpr fun b hb => by simp [hpass b hb]
  have hdrop : q.dropWhile (fun b => !!decide (-cmp b a < 0)) = [] :=
    List.dropWhile_eq_nil_iff.mpr fun b hb => by simp [hpass b hb]
  rw [push, List.insertWhere_eq, htake, hdrop]

end SortedQueue
