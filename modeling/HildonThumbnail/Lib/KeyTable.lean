import Mathlib.Data.List.AList
import Mathlib.Algebra.BigOperators.Group.List.Basic
import Mathlib.Algebra.Ring.Nat

/-! Tables with one value per key: conditional removal, a change of all values
in place, and the total of a measure over the stored values. -/

namespace List
variable {α : Type} [DecidableEq α]

theorem count_cons_add (a b : α) (l : List α) : (b :: l).count a = l.count a + [b].count a := by
  rw [count_cons, count_singleton]

theorem count_erase_add {l : List α} {b : α} (h : b ∈ l) (a : α) :
    (l.erase b).count a + [b].count a = l.count a := by
  rw [← count_cons_add, ← (perm_cons_erase h).count_eq a]

end List

abbrev KeyTable (K V : Type) := AList fun _ : K => V

namespace KeyTable

variable {K V W : Type} [DecidableEq K]

def removeIf (p : K → V → Bool) (t : KeyTable K V) : KeyTable K V :=
  ⟨t.entries.filter fun e => !p e.1 e.2, t.nodupKeys.sublist List.filter_sublist⟩

def mapValues (f : K → V → W) (t : KeyTable K V) : KeyTable K W :=
  ⟨t.entries.map fun e => ⟨e.1, f e.1 e.2⟩, t.nodupKeys.map₂ f⟩

theorem lookup_removeIf (p : K → V → Bool) (t : KeyTable K V) (k : K) :
    (removeIf p t).lookup k = (t.lookup k).filter fun v => !p k v := by
  ext v
  simp only [← Option.mem_def, AList.mem_lookup_iff]
  simp only [Option.mem_def, Option.filter_eq_some_iff]
  rw [← Option.mem_def, AList.mem_lookup_iff]
  simp [removeIf]

theorem lookup_mapValues (f : K → V → W) (t : KeyTable K V) (k : K) :
    (mapValues f t).lookup k = (t.lookup k).map (f k) := by
  exact List.dlookup_map₂ (f := f) k

theorem lookup_insert_eq (t : KeyTable K V) (k j : K) (v : V) :
    (t.insert k v).lookup j = if j = k then some v else t.lookup j := by
  by_cases h : j = k
  · subst h; simp
  · rw [AList.lookup_insert_ne h, if_neg h]

theorem lookup_erase_eq (t : KeyTable K V) (k j : K) :
    (t.erase k).lookup j = if j = k then none else t.lookup j := by
  by_cases h : j = k
  · subst h; simp
  · rw [AList.lookup_erase_ne h, if_neg h]

theorem lookup_foldl_erase_of_mem {ks : List K} {j : K} (h : j ∈ ks) (t : KeyTable K V) :
    (ks.foldl (fun t k => t.erase k) t).lookup j = none := by
  have hstays (ks : List K) (t : KeyTable K V) (hn : t.lookup j = none) :
      (ks.foldl (fun t k => t.erase k) t).lookup j = none := by
    induction ks generalizing t with
    | nil => exact hn
    | cons k ks ih => exact ih _ (by simp [lookup_erase_eq, hn])
  induction ks generalizing t with
  | nil => cases h
  | cons k ks ih =>
    rcases List.mem_cons.mp h with rfl | h
    · exact hstays ks _ (AList.lookup_erase _ _)
    · exact ih h _

theorem lookup_foldl_erase_of_notMem {ks : List K} {j : K} (h : j ∉ ks) (t : KeyTable K V) :
    (ks.foldl (fun t k => t.erase k) t).lookup j = t.lookup j := by
  induction ks generalizing t with
  | nil => rfl
  | cons k ks ih =>
    rw [List.foldl_cons, ih (List.not_mem_of_not_mem_cons h), AList.lookup_erase_ne (List.ne_of_not_mem_cons h)]

/-- A pass over some keys that takes out the entries for which a test succeeds. -/
theorem lookup_foldl_eraseIf (p : K → V → Bool) (ks : List K) (t : KeyTable K V) (j : K) :
    (ks.foldl (fun t k => if (t.lookup k).any (p k) then t.erase k else t) t).lookup j =
      (t.lookup j).filter fun v => !(decide (j ∈ ks) && p j v) := by
  induction ks generalizing t with
  | nil => cases h : t.lookup j <;> simp [h, Option.filter]
  | cons k ks ih =>
    have hkept : (if (t.lookup k).any (p k) then t.erase k else t).lookup j =
        (t.lookup j).filter fun v => !(decide (j = k) && p j v) := by
      by_cases hj : j = k
      · subst hj
        cases h : t.lookup j with
        | none => simp [h]
        | some v => cases hp : p j v <;> simp [h, hp, Option.filter]
      · have hsame : (if (t.lookup k).any (p k) then t.erase k else t).lookup j = t.lookup j := by
          split
          · exact AList.lookup_erase_ne hj
          · rfl
        cases h : t.lookup j <;> simp [hsame, h, hj, Option.filter]
    rw [List.foldl_cons, ih, hkept, Option.filter_filter]
    refine congrArg (fun q => Option.filter q (t.lookup j)) (funext fun v => ?_)
    cases hp : p j v <;> simp [Bool.and_comm]

/-- The same pass, given up at an entry that another test tells. -/
theorem foldlM_eraseIf (p bad : K → V → Bool) (ks : List K) (t : KeyTable K V) :
    ks.foldlM (fun t k =>
        if (t.lookup k).any (bad k) then none else some (if (t.lookup k).any (p k) then t.erase k else t)) t =
      if ∃ k ∈ ks, (t.lookup k).any (bad k) = true then none
      else some (ks.foldl (fun t k => if (t.lookup k).any (p k) then t.erase k else t) t) := by
  induction ks generalizing t with
  | nil => simp
  | cons k ks ih =>
    rw [List.foldlM_cons]
    by_cases hbad : (t.lookup k).any (bad k) = true
    · rw [if_pos hbad, if_pos ⟨k, List.mem_cons_self, hbad⟩]
      rfl
    · have hsame (j : K) : ((if (t.lookup k).any (p k) then t.erase k else t).lookup j).any (bad j) =
          (t.lookup j).any (bad j) := by
        split
        · next hp =>
          by_cases hj : j = k
          · subst hj
            rw [AList.lookup_erase]
            exact (Bool.eq_false_iff.mpr hbad).symm
          · rw [AList.lookup_erase_ne hj]
        · rfl
      rw [if_neg hbad]
      refine (ih _).trans ?_
      simp only [hsame, List.exists_mem_cons_iff, List.foldl_cons]
      simp only [Bool.not_eq_true] at hbad
      simp [hbad]

theorem lookup_foldl_insert (f : K → V) (ks : List K) (t : KeyTable K V) (j : K) :
    (ks.foldl (fun t k => t.insert k (f k)) t).lookup j = if j ∈ ks then some (f j) else t.lookup j := by
  induction ks generalizing t with
  | nil => simp
  | cons k ks ih =>
    rw [List.foldl_cons, ih, lookup_insert_eq]
    by_cases hin : j ∈ ks
    · simp [hin]
    · by_cases hk : j = k
      · simp [hk]
      · simp [hin, hk]

def tally (f : V → Nat) (t : KeyTable K V) : Nat := (t.entries.map fun e => f e.2).sum

omit [DecidableEq K] in
@[simp] theorem tally_empty (f : V → Nat) : tally f (∅ : KeyTable K V) = 0 := rfl

theorem tally_insert (f : V → Nat) (t : KeyTable K V) (k : K) (v : V) :
    tally f (t.insert k v) = f v + tally f (t.erase k) := by
  simp only [tally, AList.entries_insert, List.map_cons, List.sum_cons]
  rfl

theorem erase_of_lookup_none {t : KeyTable K V} {k : K} (h : t.lookup k = none) : t.erase k = t :=
  AList.ext (List.kerase_of_notMem_keys (AList.lookup_eq_none.mp h))

theorem tally_of_lookup {f : V → Nat} {t : KeyTable K V} {k : K} {v : V}
    (h : t.lookup k = some v) : tally f t = f v + tally f (t.erase k) := by
  have hp : t.entries.Perm ((t.erase k).insert k v).entries := by
    apply List.lookup_ext t.nodupKeys (AList.nodupKeys _)
    intro j w
    change w ∈ t.lookup j ↔ w ∈ ((t.erase k).insert k v).lookup j
    rw [lookup_insert_eq, lookup_erase_eq]
    by_cases hj : j = k
    · subst hj; simp [h]
    · simp [hj]
  have hs : tally f t = tally f ((t.erase k).insert k v) := (hp.map fun e : (_ : K) × V => f e.2).sum_eq
  rw [hs, tally_insert, erase_of_lookup_none (AList.lookup_erase k t)]

theorem tally_erase_add (f : V → Nat) (t : KeyTable K V) (k : K) :
    tally f (t.erase k) + (t.lookup k).elim 0 f = tally f t := by
  cases h : t.lookup k with
  | none => rw [erase_of_lookup_none h]; rfl
  | some v => rw [tally_of_lookup h]; exact Nat.add_comm ..

omit [DecidableEq K] in
theorem tally_mapValues {f : W → Nat} {f' : V → Nat} (g : K → V → W) (t : KeyTable K V)
    (h : ∀ k v, f (g k v) = f' v) : tally f (mapValues g t) = tally f' t := by
  simp only [tally, mapValues, List.map_map]
  exact congrArg List.sum (List.map_congr_left fun e _ => h e.1 e.2)

theorem tally_insert_new {f : V → Nat} {t : KeyTable K V} {k : K} (hk : t.lookup k = none) (v : V) :
    tally f (t.insert k v) = f v + tally f t := by
  rw [tally_insert, erase_of_lookup_none hk]

theorem tally_insert_of_lookup {f : V → Nat} {t : KeyTable K V} {k : K} {v : V} (hk : t.lookup k = some v) (w : V) :
    tally f (t.insert k w) + f v = f w + tally f t := by
  rw [tally_insert, tally_of_lookup hk]
  omega

theorem tally_eq_zero_iff {f : V → Nat} {t : KeyTable K V} :
    tally f t = 0 ↔ ∀ k v, t.lookup k = some v → f v = 0 := by
  constructor
  · intro h k v hk
    have ht := tally_of_lookup (f := f) hk
    omega
  · intro h
    apply List.sum_eq_zero
    intro n hn
    obtain ⟨e, he, rfl⟩ := List.mem_map.mp hn
    exact h e.1 e.2 (AList.mem_lookup_iff.mpr he)

/-- The order in which an iteration visits the entries of a table: any
arrangement of them, and it may differ from table to table. -/
structure Order (K : Type) where
  visit : {V : Type} → KeyTable K V → List (K × V)
  perm : ∀ {V : Type} (t : KeyTable K V), (visit t).Perm (t.entries.map fun e => (e.1, e.2))

def Order.stored (K : Type) : Order K := ⟨fun t => t.entries.map fun e => (e.1, e.2), fun _ => .refl _⟩

omit [DecidableEq K] in
theorem Order.keys_nodup (o : Order K) (t : KeyTable K V) : ((o.visit t).map Prod.fst).Nodup := by
  have hp := (o.perm t).map Prod.fst
  rw [List.map_map] at hp
  exact hp.nodup_iff.mpr t.keys_nodup

theorem Order.mem_visit (o : Order K) {t : KeyTable K V} {k : K} {v : V} :
    (k, v) ∈ o.visit t ↔ t.lookup k = some v := by
  rw [(o.perm t).mem_iff, List.mem_map, ← Option.mem_def, AList.mem_lookup_iff]
  constructor
  · rintro ⟨e, he, heq⟩
    obtain ⟨rfl, rfl⟩ := Prod.mk.inj heq
    exact he
  · exact fun h => ⟨_, h, rfl⟩

omit [DecidableEq K] in
theorem Order.sum_visit (o : Order K) (t : KeyTable K V) (f : V → Nat) :
    ((o.visit t).map fun e => f e.2).sum = tally f t := by
  have hp := ((o.perm t).map fun e => f e.2).sum_eq
  rwa [List.map_map] at hp

end KeyTable
