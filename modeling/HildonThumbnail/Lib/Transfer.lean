import Mathlib.Logic.Relation
import HildonThumbnail.Lib.KeyTable

/-! What is held for each owner under each name, carried from owner to owner,
and a table that keeps it under one place for each owner and name. -/

namespace Transfer
variable {U K V P : Type} [DecidableEq U]

/-- What `u` holds goes to `v`, over what `v` holds; `left` is what stays. -/
def transfer (left : Option V → Option V) (u v : U) (s : U → K → Option V) : U → K → Option V := fun w k =>
  if w = v then (s u k).or (s v k) else if w = u then left (s u k) else s w k

def drop (u : U) (s : U → K → Option V) : U → K → Option V := fun w k => if w = u then none else s w k

def transferAll (left : Option V → Option V) (pairs : List (U × U)) (s : U → K → Option V) : U → K → Option V :=
  pairs.foldl (fun s pair => transfer left pair.1 pair.2 s) s

def moveAll (pairs : List (U × U)) (s : U → K → Option V) : U → K → Option V := transferAll (fun _ => none) pairs s

def copyAll (pairs : List (U × U)) (s : U → K → Option V) : U → K → Option V := transferAll id pairs s

def dropAll (us : List U) (s : U → K → Option V) : U → K → Option V := us.foldl (fun s u => drop u s) s

section
variable {left : Option V → Option V} {s : U → K → Option V} {u v w : U} {k : K} {us vs : List U}
    {pairs : List (U × U)}

theorem dropAll_apply : dropAll us s w k = if w ∈ us then none else s w k := by
  induction us generalizing s with
  | nil => rfl
  | cons u us ih =>
    have hh := ih (s := drop u s)
    rw [dropAll] at hh ⊢
    rw [List.foldl_cons, hh, drop]
    by_cases hw : w = u <;> simp [hw]

theorem transferAll_other (hsource : w ∉ pairs.map Prod.fst) (htarget : w ∉ pairs.map Prod.snd) :
    transferAll left pairs s w k = s w k := by
  induction pairs generalizing s with
  | nil => rfl
  | cons pair pairs ih =>
    rw [List.map_cons] at hsource htarget
    have hh := ih (s := transfer left pair.1 pair.2 s) (List.not_mem_of_not_mem_cons hsource)
      (List.not_mem_of_not_mem_cons htarget)
    rw [transferAll] at hh ⊢
    rw [List.foldl_cons, hh, transfer, if_neg (List.ne_of_not_mem_cons htarget),
      if_neg (List.ne_of_not_mem_cons hsource)]

/-- Nothing is held that some owner did not hold from whom the pairs lead here. -/
theorem transferAll_source (hleft : ∀ o x, left o = some x → o = some x) {x : V}
    (h : transferAll left pairs s w k = some x) :
    ∃ u, Relation.ReflTransGen (fun a b => (a, b) ∈ pairs) u w ∧ s u k = some x := by
  induction pairs generalizing s with
  | nil => exact ⟨w, .refl, h⟩
  | cons pair pairs ih =>
    obtain ⟨u, hreach, hu⟩ := ih (s := transfer left pair.1 pair.2 s) h
    have hreach' : Relation.ReflTransGen (fun a b => (a, b) ∈ pair :: pairs) u w :=
      Relation.ReflTransGen.mono (fun _ _ hmem => List.mem_cons_of_mem pair hmem) _ _ hreach
    rw [transfer] at hu
    split_ifs at hu with htarget hsource
    · rcases Option.or_eq_some_iff.mp hu with hfirst | ⟨_, hsecond⟩
      · exact ⟨pair.1, .head (htarget ▸ List.mem_cons_self) hreach', hfirst⟩
      · exact ⟨u, hreach', htarget ▸ hsecond⟩
    · exact ⟨u, hreach', hsource ▸ hleft _ _ hu⟩
    · exact ⟨u, hreach', hu⟩

/-- No owner is named twice, on either side. -/
def Apart (pairs : List (U × U)) : Prop := (pairs.map Prod.fst ++ pairs.map Prod.snd).Nodup

omit [DecidableEq U] in
theorem Apart.cons_iff : Apart ((u, v) :: pairs) ↔
    u ≠ v ∧ (u ∉ pairs.map Prod.fst ∧ u ∉ pairs.map Prod.snd) ∧ (v ∉ pairs.map Prod.fst ∧ v ∉ pairs.map Prod.snd) ∧
      Apart pairs := by
  have hperm : (u :: pairs.map Prod.fst ++ v :: pairs.map Prod.snd).Perm
      (u :: v :: (pairs.map Prod.fst ++ pairs.map Prod.snd)) := List.perm_middle.cons u
  rw [Apart, List.map_cons, List.map_cons, hperm.nodup_iff, List.nodup_cons, List.nodup_cons, Apart]
  simp only [List.mem_cons, List.mem_append, not_or]
  tauto

omit [DecidableEq U] in
theorem Apart.swap (h : Apart pairs) : Apart (pairs.map Prod.swap) := by
  rw [Apart, List.map_map, List.map_map]
  exact List.nodup_append_comm.mp h

/-- What both sides of a pair hold once all pairs are done. -/
theorem transferAll_pair (h : Apart pairs) (hmem : (u, v) ∈ pairs) :
    transferAll left pairs s v k = (s u k).or (s v k) ∧ transferAll left pairs s u k = left (s u k) := by
  induction pairs generalizing s with
  | nil => cases hmem
  | cons pair pairs ih =>
    obtain ⟨a, b⟩ := pair
    obtain ⟨hab, ⟨ha, ha'⟩, ⟨hb, hb'⟩, hpairs⟩ := Apart.cons_iff.mp h
    change transferAll left pairs (transfer left a b s) v k = _ ∧
      transferAll left pairs (transfer left a b s) u k = _
    rcases List.mem_cons.mp hmem with heq | hmem
    · obtain ⟨rfl, rfl⟩ := Prod.mk.inj heq
      rw [transferAll_other hb hb', transferAll_other ha ha']
      simp [transfer, hab]
    · obtain ⟨hv, hu⟩ := ih (s := transfer left a b s) hpairs hmem
      have hsource := List.mem_map_of_mem (f := Prod.fst) hmem
      have htarget := List.mem_map_of_mem (f := Prod.snd) hmem
      have hua : u ≠ a := fun e => ha (e ▸ hsource)
      have hub : u ≠ b := fun e => hb (e ▸ hsource)
      have hva : v ≠ a := fun e => ha' (e ▸ htarget)
      have hvb : v ≠ b := fun e => hb' (e ▸ htarget)
      rw [hv, hu]
      simp [transfer, hua, hub, hva, hvb]

omit [DecidableEq U] in
theorem exists_pair_of_source (h : u ∈ pairs.map Prod.fst) : ∃ v, (u, v) ∈ pairs := by
  obtain ⟨⟨a, b⟩, hmem, rfl⟩ := List.mem_map.mp h
  exact ⟨b, hmem⟩

omit [DecidableEq U] in
theorem exists_pair_of_target (h : v ∈ pairs.map Prod.snd) : ∃ u, (u, v) ∈ pairs := by
  obtain ⟨⟨a, b⟩, hmem, rfl⟩ := List.mem_map.mp h
  exact ⟨a, hmem⟩

/-- To move is to copy and to drop the sources. -/
theorem dropAll_copyAll (h : Apart pairs) : dropAll (pairs.map Prod.fst) (copyAll pairs s) = moveAll pairs s := by
  funext w k
  rw [dropAll_apply]
  by_cases hsource : w ∈ pairs.map Prod.fst
  · obtain ⟨v, hmem⟩ := exists_pair_of_source hsource
    rw [if_pos hsource, moveAll, (transferAll_pair h hmem).2]
  · rw [if_neg hsource]
    by_cases htarget : w ∈ pairs.map Prod.snd
    · obtain ⟨u, hmem⟩ := exists_pair_of_target htarget
      rw [copyAll, moveAll, (transferAll_pair h hmem).1, (transferAll_pair h hmem).1]
    · rw [copyAll, moveAll, transferAll_other hsource htarget, transferAll_other hsource htarget]

/-- A move to owners who held nothing can be undone. -/
theorem moveAll_back (h : Apart pairs) (hfree : ∀ v ∈ pairs.map Prod.snd, ∀ k, s v k = none) :
    moveAll (pairs.map Prod.swap) (moveAll pairs s) = s := by
  funext w k
  have hback (u v : U) (hmem : (u, v) ∈ pairs) : (v, u) ∈ pairs.map Prod.swap :=
    List.mem_map.mpr ⟨(u, v), hmem, rfl⟩
  by_cases hsource : w ∈ pairs.map Prod.fst
  · obtain ⟨v, hmem⟩ := exists_pair_of_source hsource
    have hv := hfree v (List.mem_map.mpr ⟨(w, v), hmem, rfl⟩) k
    rw [moveAll, (transferAll_pair h.swap (hback w v hmem)).1, moveAll, (transferAll_pair h hmem).1,
      (transferAll_pair h hmem).2, hv, Option.or_none, Option.or_none]
  · by_cases htarget : w ∈ pairs.map Prod.snd
    · obtain ⟨u, hmem⟩ := exists_pair_of_target htarget
      rw [moveAll, (transferAll_pair h.swap (hback u w hmem)).2, hfree w htarget k]
    · have hsource' : w ∉ (pairs.map Prod.swap).map Prod.snd := by simpa using hsource
      have htarget' : w ∉ (pairs.map Prod.swap).map Prod.fst := by simpa using htarget
      rw [moveAll, transferAll_other htarget' hsource', moveAll, transferAll_other hsource htarget]

end

section Table
variable [DecidableEq P] {left : Option V → Option V} {op : KeyTable P V → P → P → KeyTable P V} {place : U → K → P}
  {t : KeyTable P V} {ks : List K} {u v : U} {p : P}

/-- The operation carries what stands in one place of a table to another. -/
def Carries (left : Option V → Option V) (op : KeyTable P V → P → P → KeyTable P V) : Prop := ∀ t a b p,
  (op t a b).lookup p =
    if p = b then (t.lookup a).or (t.lookup b) else if p = a then left (t.lookup a) else t.lookup p

/-- Each owner and name has a place of its own. -/
def Separate (place : U → K → P) : Prop := ∀ u v k l, place u k = place v l → u = v ∧ k = l

def contents (place : U → K → P) (t : KeyTable P V) : U → K → Option V := fun u k => t.lookup (place u k)

omit [DecidableEq U] in
theorem lookup_carry_other (h : Carries left op) (hu : ∀ k ∈ ks, p ≠ place u k) (hv : ∀ k ∈ ks, p ≠ place v k) :
    (ks.foldl (fun t k => op t (place u k) (place v k)) t).lookup p = t.lookup p := by
  induction ks generalizing t with
  | nil => rfl
  | cons k ks ih =>
    rw [List.foldl_cons, ih (fun l hl => hu l (List.mem_cons_of_mem k hl)) fun l hl => hv l
      (List.mem_cons_of_mem k hl), h, if_neg (hv k List.mem_cons_self), if_neg (hu k List.mem_cons_self)]

theorem lookup_carry (hplace : Separate place) (h : Carries left op)
    (hks : ks.Nodup) {w : U} {k : K} (hk : k ∈ ks) :
    (ks.foldl (fun t k => op t (place u k) (place v k)) t).lookup (place w k) =
      transfer left u v (contents place t) w k := by
  have happly {w w' : U} : place w k = place w' k ↔ w = w' := ⟨fun e => (hplace _ _ _ _ e).1, fun e => e ▸ rfl⟩
  induction ks generalizing t with
  | nil => cases hk
  | cons l ks ih =>
    obtain ⟨hl, hks⟩ := List.nodup_cons.mp hks
    rw [List.foldl_cons]
    by_cases hkl : k = l
    · subst hkl
      have hrest (w' : U) : ∀ l ∈ ks, place w k ≠ place w' l := fun l hmem e => hl ((hplace _ _ _ _ e).2 ▸ hmem)
      rw [lookup_carry_other h (hrest u) (hrest v), h]
      simp only [happly]
      rfl
    · have hother (w : U) : (op t (place u l) (place v l)).lookup (place w k) = t.lookup (place w k) := by
        rw [h, if_neg fun e => hkl (hplace _ _ _ _ e).2, if_neg fun e => hkl (hplace _ _ _ _ e).2]
      rw [ih hks ((List.mem_cons.mp hk).resolve_left hkl)]
      simp only [transfer, contents, hother]

/-- An operation on every name of two owners is a transfer from the one to the other. -/
theorem contents_carry (hplace : Separate place) (h : Carries left op)
    (hks : ks.Nodup) (hall : ∀ k, k ∈ ks) :
    contents place (ks.foldl (fun t k => op t (place u k) (place v k)) t) =
      transfer left u v (contents place t) := by
  funext w k
  exact lookup_carry hplace h hks (hall k)

theorem contents_erase (hplace : Separate place) (hall : ∀ k, k ∈ ks) :
    contents place (ks.foldl (fun t k => t.erase (place u k)) t) = drop u (contents place t) := by
  have hfold : ks.foldl (fun t k => t.erase (place u k)) t = (ks.map (place u)).foldl (fun t p => t.erase p) t := by
    rw [List.foldl_map]
  funext w k
  rw [contents, hfold, drop]
  by_cases hw : w = u
  · subst hw
    rw [if_pos rfl, KeyTable.lookup_foldl_erase_of_mem (List.mem_map_of_mem (hall k))]
  · rw [if_neg hw, KeyTable.lookup_foldl_erase_of_notMem, contents]
    intro hmem
    obtain ⟨l, _, e⟩ := List.mem_map.mp hmem
    exact hw (hplace _ _ _ _ e).1.symm

end Table

end Transfer
