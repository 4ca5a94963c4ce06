import Mathlib.Data.List.TakeWhile
import Mathlib.Order.Lattice

/-! Insertion before the first element at which a test stops, and when it keeps
a list in the order of a key. The test need not come from an order. Removal of
the element with a key from a list that has each key once. -/

namespace List

variable {α β : Type*}

def insertWhere (stops : α → Bool) (a : α) : List α → List α
  | [] => [a]
  | b :: l => if stops b then a :: b :: l else b :: insertWhere stops a l

theorem insertWhere_eq (stops : α → Bool) (a : α) (l : List α) :
    insertWhere stops a l = l.takeWhile (fun b => !stops b) ++ a :: l.dropWhile (fun b => !stops b) := by
  induction l with
  | nil => rfl
  | cons b l ih =>
    by_cases hb : stops b = true
    · simp [insertWhere, hb]
    · simp [insertWhere, hb, ih]

theorem perm_insertWhere (stops : α → Bool) (a : α) (l : List α) : (insertWhere stops a l).Perm (a :: l) := by
  rw [insertWhere_eq]
  have hsplit := takeWhile_append_dropWhile (p := fun b => !stops b) (l := l)
  exact perm_middle.trans (by rw [hsplit])

theorem eraseP_eq_filter_of_nodup_map [DecidableEq β] {f : α → β} {l : List α} (hl : (l.map f).Nodup) (k : β) :
    l.eraseP (fun b => k == f b) = l.filter fun b => k ≠ f b := by
  induction l with
  | nil => rfl
  | cons b l ih =>
    obtain ⟨hb, hl⟩ := nodup_cons.mp hl
    by_cases hk : k = f b
    · have hrest : l.filter (fun c => k ≠ f c) = l := by
        refine filter_eq_self.mpr fun c hc => ?_
        have hne : k ≠ f c := by
          intro heq
          have hc : f c ∈ l.map f := mem_map_of_mem hc
          rw [← heq, hk] at hc
          exact hb hc
        simpa using hne
      rw [eraseP_cons_of_pos (by simpa using hk), filter_cons_of_neg (by simpa using hk), hrest]
    · simp [hk, ih hl]

section Sorted
variable [LinearOrder β] {f : α → β} {s : β → Bool} {a : α} {l : List α}

theorem pairwise_insertWhere_iff_split (hl : l.Pairwise (f · ≤ f ·)) (stops : α → Bool) :
    (insertWhere stops a l).Pairwise (f · ≤ f ·) ↔
      (∀ b ∈ l.takeWhile (fun b => !stops b), f b ≤ f a) ∧ ∀ b ∈ l.dropWhile (fun b => !stops b), f a ≤ f b := by
  have hsplit := takeWhile_append_dropWhile (p := fun b => !stops b) (l := l)
  rw [← hsplit, pairwise_append] at hl
  obtain ⟨htake, hdrop, hacross⟩ := hl
  rw [insertWhere_eq, pairwise_append, pairwise_cons]
  constructor
  · rintro ⟨_, ⟨hafter, _⟩, hbefore⟩
    exact ⟨fun b hb => hbefore b hb a mem_cons_self, hafter⟩
  · rintro ⟨hbefore, hafter⟩
    refine ⟨htake, ⟨hafter, hdrop⟩, fun b hb c hc => ?_⟩
    rcases mem_cons.mp hc with rfl | hc
    · exact hbefore b hb
    · exact hacross b hb c hc

/-- No smaller element may stop the search, and before a greater one something
that is not smaller has to. -/
theorem pairwise_insertWhere_iff (hl : l.Pairwise (f · ≤ f ·)) :
    (insertWhere (fun b => s (f b)) a l).Pairwise (f · ≤ f ·) ↔
      (∀ b ∈ l, f b < f a → s (f b) = false) ∧
        ∀ b ∈ l, f a < f b → ∃ c ∈ l, f a ≤ f c ∧ f c ≤ f b ∧ s (f c) = true := by
  rw [pairwise_insertWhere_iff_split hl]
  have hsplit := takeWhile_append_dropWhile (p := fun b => !s (f b)) (l := l)
  have hpassed : ∀ b ∈ l.takeWhile (fun b => !s (f b)), s (f b) = false := fun b hb => by
    simpa using mem_takeWhile_imp hb
  have hside (b : α) (hb : b ∈ l) :
      b ∈ l.takeWhile (fun b => !s (f b)) ∨ b ∈ l.dropWhile (fun b => !s (f b)) := by
    rw [← hsplit] at hb
    exact mem_append.mp hb
  rw [← hsplit, pairwise_append] at hl
  obtain ⟨_, hsorted, hacross⟩ := hl
  have hstop : ∀ b ∈ l.dropWhile (fun b => !s (f b)),
      ∃ c ∈ l.dropWhile (fun b => !s (f b)), f c ≤ f b ∧ s (f c) = true := by
    intro b hb
    cases hdrop : l.dropWhile (fun b => !s (f b)) with
    | nil => rw [hdrop] at hb; cases hb
    | cons c rest =>
      have hc : s (f c) = true := by
        have hhead := head?_dropWhile_not (fun b => !s (f b)) l
        rw [hdrop] at hhead
        simpa using hhead
      rw [hdrop] at hb hsorted
      rcases mem_cons.mp hb with rfl | hb
      · exact ⟨b, mem_cons_self, le_rfl, hc⟩
      · exact ⟨c, mem_cons_self, (pairwise_cons.mp hsorted).1 b hb, hc⟩
  have hmem : ∀ b ∈ l.dropWhile (fun b => !s (f b)), b ∈ l := fun b hb => (dropWhile_suffix _).subset hb
  constructor
  · rintro ⟨hbefore, hafter⟩
    refine ⟨fun b hb hlt => ?_, fun b hb hlt => ?_⟩
    · refine hpassed b ((hside b hb).resolve_right fun hdrop => ?_)
      exact absurd (hafter b hdrop) (not_le_of_gt hlt)
    · have hdrop := (hside b hb).resolve_left fun htake => absurd (hbefore b htake) (not_le_of_gt hlt)
      obtain ⟨c, hc, hle, hs⟩ := hstop b hdrop
      exact ⟨c, hmem c hc, hafter c hc, hle, hs⟩
  · rintro ⟨hsmaller, hgreater⟩
    refine ⟨fun b hb => ?_, fun b hb => ?_⟩
    · by_contra hlt
      obtain ⟨c, hc, _, hle, hs⟩ := hgreater b ((takeWhile_sublist _).subset hb) (lt_of_not_ge hlt)
      rcases hside c hc with htake | hdrop
      · rw [hpassed c htake] at hs
        cases hs
      · rw [le_antisymm hle (hacross b hb c hdrop), hpassed b hb] at hs
        cases hs
    · by_contra hlt
      obtain ⟨c, hc, hle, hs⟩ := hstop b hb
      rw [hsmaller c (hmem c hc) (lt_of_le_of_lt hle (lt_of_not_ge hlt))] at hs
      cases hs

end Sorted

end List
