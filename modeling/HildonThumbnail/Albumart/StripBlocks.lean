import HildonThumbnail.Albumart.Strip
import HildonThumbnail.Lib.While

/-! What the removal of blocks leaves of a name (the loop of `strip_characters`
in daemon/utils.c): no opening character before a matching closing one, though
the pieces are cut out in turn. -/

namespace HildonThumbnail

theorem pair_sublist_append {o c : Char} {l r : List Char} :
    [o, c].Sublist (l ++ r) ↔ [o, c].Sublist r ∨ ∃ a b, l = a ++ o :: b ∧ c ∈ b ++ r := by
  constructor
  · intro h
    induction l with
    | nil => exact .inl h
    | cons d l ih =>
      by_cases hd : d = o ∧ c ∈ l ++ r
      · exact .inr ⟨[], l, by simp [hd.1], hd.2⟩
      · have htail : [o, c].Sublist (l ++ r) := by
          rcases List.sublist_cons_iff.mp h with htail | ⟨s, heq, hs⟩
          · exact htail
          · obtain ⟨rfl, rfl⟩ := List.cons.inj heq
            exact absurd ⟨rfl, List.singleton_sublist.mp hs⟩ hd
        rcases ih htail with hr | ⟨a, b, rfl, hb⟩
        · exact .inl hr
        · exact .inr ⟨d :: a, b, rfl, hb⟩
  · rintro (hr | ⟨a, b, rfl, hb⟩)
    · exact hr.trans (List.sublist_append_right l r)
    · have htail : [o, c].Sublist (o :: (b ++ r)) := (List.singleton_sublist.mpr hb).cons_cons o
      rw [List.append_assoc]
      exact htail.trans (List.sublist_append_right a _)

section NextBlock
variable {s a b : List Char} {o c : Char} {pos1 pos2 : Nat}

theorem findIdx?_append_cons_le (a b : List Char) (o : Char) :
    ∃ p1, (a ++ o :: b).findIdx? (· == o) = some p1 ∧ p1 ≤ a.length := by
  induction a with
  | nil => exact ⟨0, by simp [List.findIdx?_cons], Nat.le_refl 0⟩
  | cons d a ih =>
    by_cases hd : d = o
    · exact ⟨0, by simp [List.findIdx?_cons, hd], Nat.zero_le _⟩
    · obtain ⟨p1, hp1, hle⟩ := ih
      exact ⟨p1 + 1, by simp [List.findIdx?_cons, hd, hp1], Nat.succ_le_succ hle⟩

/-- From any opening character with a closing one behind it there is a block, and
it does not start later. -/
theorem stripFindNextBlock_of_mem (hc : c ∈ b) :
    ∃ pos, stripFindNextBlock (a ++ o :: b) o c = some pos ∧ pos.1 ≤ a.length := by
  obtain ⟨p1, hp1, hle⟩ := findIdx?_append_cons_le a b o
  have hbehind : c ∈ (a ++ o :: b).drop (p1 + 1) := by
    have hdrop : b <:+ (a ++ o :: b).drop (p1 + 1) := by
      have hsplit : (a ++ o :: b).drop (a.length + 1) = b := by simp
      have hmore := List.drop_suffix_drop_left (a ++ o :: b) (Nat.succ_le_succ hle)
      rwa [hsplit] at hmore
    exact hdrop.subset hc
  cases hfind : ((a ++ o :: b).drop (p1 + 1)).findIdx? (· == c) with
  | none =>
    have hall := List.findIdx?_eq_none_iff.mp hfind c hbehind
    simp at hall
  | some k => exact ⟨(p1, p1 + 1 + k), by simp [stripFindNextBlock, hp1, hfind], hle⟩

theorem stripFindNextBlock_lt (h : stripFindNextBlock s o c = some (pos1, pos2)) : pos1 < pos2 := by
  rw [stripFindNextBlock] at h
  split at h
  · cases h
  · obtain ⟨k, _, hk⟩ := Option.map_eq_some_iff.mp h
    obtain ⟨rfl, rfl⟩ := Prod.mk.inj hk
    omega

end NextBlock

section Earliest

/-- What one turn over the kinds of blocks makes of the earliest block so far. -/
def earlier (pos new : Option (Nat × Nat)) : Option (Nat × Nat) :=
  match new, pos with
  | none, _ => pos
  | some new, none => some new
  | some new, some old => if new.1 < old.1 then some new else some old

structure Earliest (found : Nat × Nat → Prop) (pos : Option (Nat × Nat)) : Prop where
  none : pos = none → ∀ q, ¬ found q
  mem : ∀ q, pos = some q → found q
  le : ∀ q q', pos = some q → found q' → q.1 ≤ q'.1

theorem Earliest.earlier {found : Nat × Nat → Prop} {pos : Option (Nat × Nat)} (h : Earliest found pos)
    (new : Option (Nat × Nat)) : Earliest (fun q => found q ∨ new = some q) (earlier pos new) := by
  obtain ⟨hnone, hmem, hle⟩ := h
  cases new with
  | none => exact ⟨fun hp q => by simp [hnone hp q], fun q hq => .inl (hmem q hq), fun q q' hq hq' => by
      simpa using hle q q' hq (by simpa using hq')⟩
  | some new =>
    cases pos with
    | none =>
      refine ⟨by simp [HildonThumbnail.earlier], fun q hq => .inr hq, fun q q' hq hq' => ?_⟩
      obtain rfl := Option.some.inj hq
      rcases hq' with hq' | hq'
      · exact absurd hq' (hnone rfl q')
      · rw [Option.some.inj hq']
    | some old =>
      rw [HildonThumbnail.earlier]
      split
      · next hlt =>
        refine ⟨by simp, fun q hq => .inr hq, fun q q' hq hq' => ?_⟩
        obtain rfl := Option.some.inj hq
        rcases hq' with hq' | hq'
        · have hold := hle old q' rfl hq'
          omega
        · rw [Option.some.inj hq']
      · next hge =>
        refine ⟨by simp, fun q hq => .inl (hmem q hq), fun q q' hq hq' => ?_⟩
        obtain rfl := Option.some.inj hq
        rcases hq' with hq' | hq'
        · exact hle old q' rfl hq'
        · obtain rfl := Option.some.inj hq'
          omega

theorem Earliest.foldl {β : Type*} {f : β → Option (Nat × Nat)} {found : Nat × Nat → Prop}
    {pos : Option (Nat × Nat)} (h : Earliest found pos) (bs : List β) :
    Earliest (fun q => found q ∨ ∃ b ∈ bs, f b = some q)
      (bs.foldl (fun pos b => HildonThumbnail.earlier pos (f b)) pos) := by
  induction bs generalizing found pos with
  | nil => simpa using h
  | cons b bs ih => simpa [or_assoc] using ih (h.earlier (f b))

theorem earliestBlock_earliest (p : List Char) :
    Earliest (fun q => ∃ b ∈ blocks, stripFindNextBlock p b.1 b.2 = some q) (earliestBlock p) := by
  have hnone : Earliest (fun _ => False) none := ⟨by simp, by simp, by simp⟩
  have hfold := hnone.foldl (f := fun b : Char × Char => stripFindNextBlock p b.1 b.2) blocks
  simp only [false_or] at hfold
  exact hfold

end Earliest

theorem notMem_of_earliest {p a b : List Char} {pos : Nat × Nat} (hpos : earliestBlock p = some pos)
    {k : Char × Char} (hk : k ∈ blocks) (hp : p = a ++ k.1 :: b) (hlt : a.length < pos.1) : k.2 ∉ b := by
  intro hc
  obtain ⟨q, hq, hle⟩ := stripFindNextBlock_of_mem (a := a) (o := k.1) hc
  rw [← hp] at hq
  have hfirst := (earliestBlock_earliest p).le pos q hpos ⟨k, hk, hq⟩
  omega

theorem earliestBlock_lt {p : List Char} {pos1 pos2 : Nat} (h : earliestBlock p = some (pos1, pos2)) :
    pos1 < pos2 := by
  obtain ⟨k, _, hk⟩ := (earliestBlock_earliest p).mem _ h
  exact stripFindNextBlock_lt hk

theorem stripBlocks_of_none {p : List Char} (h : earliestBlock p = none) : stripBlocks p = p := by
  rw [stripBlocks]
  split
  · rfl
  · next hsome =>
    rw [h] at hsome
    cases hsome

theorem stripBlocks_nil : stripBlocks [] = [] := stripBlocks_of_none rfl

theorem stripBlocks_of_some {p : List Char} {pos1 pos2 : Nat} (h : earliestBlock p = some (pos1, pos2)) :
    stripBlocks p = p.take pos1 ++ stripBlocks (p.drop (pos2 + 1)) := by
  rw [stripBlocks]
  split
  · next hnone =>
    rw [h] at hnone
    cases hnone
  · next _ _ hsome =>
    rw [h] at hsome
    obtain ⟨rfl, rfl⟩ := Prod.mk.inj (Option.some.inj hsome)
    by_cases hrest : p.drop (pos2 + 1) = []
    · simp only [hrest, if_true, stripBlocks_nil]
    · simp only [hrest, if_false]

theorem stripBlocks_sublist (p : List Char) : (stripBlocks p).Sublist p := by
  induction p using stripBlocks.induct with
  | case1 p h => rw [stripBlocks_of_none h]
  | case2 p pos1 pos2 h rest ih =>
    have hrest : (stripBlocks rest).Sublist rest := by
      by_cases hnil : rest = []
      · rw [hnil, stripBlocks_nil]
      · exact ih hnil
    have hcut : rest.Sublist (p.drop pos1) := List.drop_sublist_drop_left p (by have := earliestBlock_lt h; omega)
    have htogether := (List.Sublist.refl (p.take pos1)).append (hrest.trans hcut)
    rw [stripBlocks_of_some h]
    rwa [List.take_append_drop] at htogether

/-- Every character kept stands before the block that was cut out next, so what it
could open is not closed in all the text behind it. -/
theorem not_pair_sublist_stripBlocks (p : List Char) {k : Char × Char} (hk : k ∈ blocks) :
    ¬ [k.1, k.2].Sublist (stripBlocks p) := by
  induction p using stripBlocks.induct with
  | case1 p h =>
    rw [stripBlocks_of_none h]
    intro hpair
    have happend : [k.1, k.2].Sublist (p ++ []) := by rwa [List.append_nil]
    rcases pair_sublist_append.mp happend with hnil | ⟨a, b, rfl, hc⟩
    · cases hnil
    · rw [List.append_nil] at hc
      obtain ⟨pos, hpos, _⟩ := stripFindNextBlock_of_mem (a := a) (o := k.1) hc
      exact (earliestBlock_earliest _).none h pos ⟨k, hk, hpos⟩
  | case2 p pos1 pos2 h rest ih =>
    have hrest : ¬ [k.1, k.2].Sublist (stripBlocks rest) := by
      by_cases hnil : rest = []
      · rw [hnil, stripBlocks_nil]
        intro hpair
        cases hpair
      · exact ih hnil
    rw [stripBlocks_of_some h]
    intro hpair
    rcases pair_sublist_append.mp hpair with hlater | ⟨a, b, hkept, hc⟩
    · exact hrest hlater
    · have hbehind : k.2 ∈ b ++ p.drop pos1 := by
        rcases List.mem_append.mp hc with hb | hlater
        · exact List.mem_append_left _ hb
        · have hcut : rest.Sublist (p.drop pos1) :=
            List.drop_sublist_drop_left p (by have := earliestBlock_lt h; omega)
          exact List.mem_append_right _ (hcut.subset ((stripBlocks_sublist rest).subset hlater))
      have hsplit : p = a ++ k.1 :: (b ++ p.drop pos1) := by
        have htake := List.take_append_drop pos1 p
        rw [hkept] at htake
        simpa using htake.symm
      have hshort : a.length < pos1 := by
        have hlength := congrArg List.length hkept
        simp only [List.length_take, List.length_append, List.length_cons] at hlength
        omega
      exact notMem_of_earliest h hk hsplit hshort hbehind

structure Stripping where
  p : List Char
  strNoBlocks : List Char
  blocksDone : Bool

def stripStep (s : Stripping) : Option Stripping :=
  if s.blocksDone then none
  else
    match earliestBlock s.p with
    | none => some { s with strNoBlocks := s.strNoBlocks ++ s.p, blocksDone := true }
    | some (pos1, pos2) =>
      let rest := s.p.drop (pos2 + 1)
      some ⟨rest, s.strNoBlocks ++ s.p.take pos1, decide (rest = [])⟩

theorem stripStep_endsIn (p collected : List Char) :
    ∃ t, WhileLoop.EndsIn stripStep ⟨p, collected, false⟩ t ∧ t.strNoBlocks = collected ++ stripBlocks p := by
  induction p using stripBlocks.induct generalizing collected with
  | case1 p h =>
    have hstep : stripStep ⟨p, collected, false⟩ = some ⟨p, collected ++ p, true⟩ := by simp [stripStep, h]
    rw [stripBlocks_of_none h]
    exact ⟨_, (WhileLoop.endsIn_of_some hstep).mpr ((WhileLoop.endsIn_of_none rfl).mpr rfl), rfl⟩
  | case2 p pos1 pos2 h rest ih =>
    have hstep : stripStep ⟨p, collected, false⟩ = some ⟨rest, collected ++ p.take pos1, decide (rest = [])⟩ := by
      simp [stripStep, h, rest]
    rw [stripBlocks_of_some h, ← List.append_assoc]
    by_cases hnil : rest = []
    · rw [hnil] at hstep
      have hover : rest = p.drop (pos2 + 1) := rfl
      rw [← hover, hnil, stripBlocks_nil, List.append_nil]
      exact ⟨_, (WhileLoop.endsIn_of_some hstep).mpr ((WhileLoop.endsIn_of_none rfl).mpr rfl), rfl⟩
    · obtain ⟨t, ht, heq⟩ := ih hnil (collected ++ p.take pos1)
      rw [decide_eq_false hnil] at hstep
      exact ⟨t, (WhileLoop.endsIn_of_some hstep).mpr ht, heq⟩

/-- The loop comes to its end with a part of the text in which nothing opens what
is closed behind it. -/
theorem stripStep_noBlocks (original : String) :
    ∃ t, WhileLoop.EndsIn stripStep ⟨original.toList, [], false⟩ t ∧ t.strNoBlocks = stripBlocks original.toList ∧
      t.strNoBlocks.Sublist original.toList ∧
        ∀ k ∈ blocks, ∀ pre post, t.strNoBlocks = pre ++ k.1 :: post → k.2 ∉ post := by
  obtain ⟨t, ht, heq⟩ := stripStep_endsIn original.toList []
  rw [List.nil_append] at heq
  refine ⟨t, ht, heq, heq ▸ stripBlocks_sublist _, fun k hk pre post hsplit hc => ?_⟩
  have hpair := not_pair_sublist_stripBlocks original.toList hk
  rw [← heq, hsplit] at hpair
  have htail : [k.1, k.2].Sublist (k.1 :: post) := (List.singleton_sublist.mpr hc).cons_cons k.1
  exact hpair (htail.trans (List.sublist_append_right pre _))

end HildonThumbnail
