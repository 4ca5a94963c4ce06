import HildonThumbnail.Lib.KeyTable
import Mathlib.Algebra.Order.BigOperators.Group.List
import Mathlib.Algebra.Order.Group.Nat
import Mathlib.Data.List.Sort

/-! The eviction of old and of too many cache files (`clean_cache`, the same text
in hildon-thumbnail-factory.c and hildon-albumart-factory.c). -/

namespace HildonThumbnail

structure CacheItem (K : Type) where
  file : K
  mtime : UInt64
  size : UInt64
deriving DecidableEq

/-- Sort in descending order. -/
def cacheFileCompare {K : Type} (f1 f2 : CacheItem K) : Int :=
  if f2.mtime = f1.mtime then 0 else if f2.mtime < f1.mtime then -1 else 1

/-- `g_ptr_array_sort` with `cache_file_compare`, which says nothing about the
order of files of one time. -/
structure PtrArraySort (K : Type) where
  sort : List (CacheItem K) → List (CacheItem K)
  perm : ∀ files, (sort files).Perm files
  sorted : ∀ files, (sort files).Pairwise fun f1 f2 => cacheFileCompare f1 f2 ≤ 0

section
variable {K V : Type} [DecidableEq K]

def readCacheDir (inDir : K → Bool) (mtime : V → UInt64) (size : K → UInt64) (files : KeyTable K V) :
    List (CacheItem K) :=
  files.entries.filterMap fun e => if inDir e.1 then some ⟨e.1, mtime e.2, size e.1⟩ else none

/-- `size += item->size`: an `int` and a `guint64` are added as 64-bit numbers, and
the sum is stored in 32 bits. -/
def addSize (size : Int32) (itemSize : UInt64) : Int32 := (size.toInt64.toUInt64 + itemSize).toInt64.toInt32

def evicted (maxSize : Int32) (minMtime : Int64) (size : Int32) (item : CacheItem K) : Bool :=
  (decide (maxSize ≥ 0) && decide (size ≥ maxSize)) || decide (item.mtime < minMtime.toUInt64)

def cleanLoop (maxSize : Int32) (minMtime : Int64) : Int32 → List (CacheItem K) → KeyTable K V → KeyTable K V
  | _, [], files => files
  | size, item :: items, files =>
    let size := addSize size item.size
    cleanLoop maxSize minMtime size items
      (if evicted maxSize minMtime size item then files.erase item.file else files)

def cleanCache (array : PtrArraySort K) (items : List (CacheItem K)) (maxSize : Int32) (minMtime : Int64)
    (files : KeyTable K V) : KeyTable K V :=
  cleanLoop maxSize minMtime 0 (array.sort items) files

end

theorem addSize_ofNat (total : Nat) (itemSize : UInt64) :
    addSize (Int32.ofNat total) itemSize = Int32.ofNat (total + itemSize.toNat) := by
  have hitem : itemSize.toInt64.toInt32 = Int32.ofNat itemSize.toNat := by
    rw [← Int64.toInt32_ofNat', ← UInt64.toInt64_ofNat', UInt64.ofNat_toNat]
  rw [addSize, UInt64.toInt64_add, Int64.toInt64_toUInt64, Int64.toInt32_add, Int32.toInt32_toInt64, hitem,
    Int32.ofNat_add]

theorem toInt_ofNat_cases (total : Nat) :
    ((Int32.ofNat total).toInt = (total % 2 ^ 32 : Nat) ∧ total % 2 ^ 32 < 2 ^ 31) ∨
      ((Int32.ofNat total).toInt < 0 ∧ 2 ^ 31 ≤ total % 2 ^ 32) := by
  have hsize : Int32.size = 2 ^ 32 := rfl
  rw [Int32.toInt_ofNat', Int.bmod_def, hsize]
  omega

theorem cacheFileCompare_le_iff {K : Type} {f1 f2 : CacheItem K} :
    cacheFileCompare f1 f2 ≤ 0 ↔ f2.mtime.toNat ≤ f1.mtime.toNat := by
  rw [cacheFileCompare]
  split_ifs with heq hlt
  · simp [heq]
  · have hh := UInt64.lt_iff_toNat_lt.mp hlt
    simp only [Int.reduceNeg, Int.reduceLE, true_iff]
    omega
  · have hh := mt UInt64.lt_iff_toNat_lt.mpr hlt
    have hne := mt UInt64.toNat_inj.mp heq
    simp only [Int.reduceLE, false_iff]
    omega

instance (K : Type) : Std.Total fun f1 f2 : CacheItem K => cacheFileCompare f1 f2 ≤ 0 where
  total f1 f2 := by
    simp only [cacheFileCompare_le_iff]
    omega

instance (K : Type) : IsTrans (CacheItem K) fun f1 f2 => cacheFileCompare f1 f2 ≤ 0 where
  trans f1 f2 f3 := by
    simp only [cacheFileCompare_le_iff]
    omega

def insertionSorted (K : Type) : PtrArraySort K where
  sort := List.insertionSort fun f1 f2 => cacheFileCompare f1 f2 ≤ 0
  perm := List.perm_insertionSort _
  sorted := List.pairwise_insertionSort _

section Eviction
variable {K V : Type}

def totalSize (items : List (CacheItem K)) : Nat := (items.map fun f => f.size.toNat).sum

@[simp] theorem totalSize_nil : totalSize ([] : List (CacheItem K)) = 0 := rfl

@[simp] theorem totalSize_cons (f : CacheItem K) (items : List (CacheItem K)) :
    totalSize (f :: items) = f.size.toNat + totalSize items := by simp [totalSize]

@[simp] theorem totalSize_append (items more : List (CacheItem K)) :
    totalSize (items ++ more) = totalSize items + totalSize more := by simp [totalSize]

theorem totalSize_sublist {items more : List (CacheItem K)} (h : items.Sublist more) :
    totalSize items ≤ totalSize more :=
  (h.map _).sum_le_sum fun _ _ => Nat.zero_le _

theorem totalSize_perm {items more : List (CacheItem K)} (h : items.Perm more) : totalSize items = totalSize more :=
  (h.map _).sum_eq

/-- Not too old, and it fits together with everything newer. -/
def Fits (maxSize : Int32) (minMtime : Int64) (before : List (CacheItem K)) (f : CacheItem K) : Prop :=
  minMtime.toInt ≤ f.mtime.toNat ∧ totalSize (before ++ [f]) < maxSize.toInt

instance (maxSize : Int32) (minMtime : Int64) (before : List (CacheItem K)) (f : CacheItem K) :
    Decidable (Fits maxSize minMtime before f) := inferInstanceAs (Decidable (_ ∧ _))

/-- The eviction rule for files in the order in which they are placed, with what
follows from it for the total and for the times. -/
structure Evicts [DecidableEq K] (maxSize : Int32) (minMtime : Int64) (order : List (CacheItem K))
    (files left : KeyTable K V) : Prop where
  rule : ∀ before f after, order = before ++ f :: after →
    left.lookup f.file = if Fits maxSize minMtime before f then files.lookup f.file else none
  others : ∀ p, (∀ f ∈ order, f.file ≠ p) → left.lookup p = files.lookup p
  total : totalSize (order.filter fun f => (left.lookup f.file).isSome) < maxSize.toInt ∨
    ∀ f ∈ order, left.lookup f.file = none
  newest : ∀ f ∈ order, ∀ g ∈ order, left.lookup f.file = none → minMtime.toInt ≤ f.mtime.toNat →
    left.lookup g.file ≠ none → f.mtime.toNat ≤ g.mtime.toNat

/-- The 32 bits of every total that reaches the limit are a number from the limit on. -/
def TotalsKept (maxSize : Int32) (minMtime : Int64) (order : List (CacheItem K)) : Prop :=
  ∀ before f after, order = before ++ f :: after → minMtime.toInt ≤ f.mtime.toNat →
    maxSize.toInt ≤ totalSize (before ++ [f]) →
      maxSize.toInt ≤ (totalSize (before ++ [f]) % 2 ^ 32 : Nat) ∧ totalSize (before ++ [f]) % 2 ^ 32 < 2 ^ 31

def Unlinked [DecidableEq K] (maxSize : Int32) (minMtime : Int64) (total : Nat)
    (items : List (CacheItem K)) (p : K) :
    Prop :=
  ∃ before f after, items = before ++ f :: after ∧ f.file = p ∧
    evicted maxSize minMtime (Int32.ofNat (total + totalSize (before ++ [f]))) f = true

variable [DecidableEq K] {maxSize : Int32} {minMtime : Int64} {items order : List (CacheItem K)}
  {files left : KeyTable K V} {total : Nat} {p : K} {f : CacheItem K}

theorem unlinked_nil : ¬ Unlinked maxSize minMtime total [] p := by
  rintro ⟨before, f, after, hsplit, _⟩
  simp at hsplit

theorem unlinked_cons : Unlinked maxSize minMtime total (f :: items) p ↔
    (f.file = p ∧ evicted maxSize minMtime (Int32.ofNat (total + f.size.toNat)) f = true) ∨
      Unlinked maxSize minMtime (total + f.size.toNat) items p := by
  constructor
  · rintro ⟨before, g, after, hsplit, hp, hg⟩
    cases before with
    | nil =>
      obtain ⟨rfl, rfl⟩ := List.cons.inj hsplit
      exact .inl ⟨hp, by simpa using hg⟩
    | cons b before =>
      obtain ⟨rfl, rfl⟩ := List.cons.inj hsplit
      refine .inr ⟨before, g, after, rfl, hp, ?_⟩
      simpa [Nat.add_assoc] using hg
  · rintro (⟨hp, hf⟩ | ⟨before, g, after, rfl, hp, hg⟩)
    · exact ⟨[], f, items, rfl, hp, by simpa using hf⟩
    · refine ⟨f :: before, g, after, rfl, hp, ?_⟩
      simpa [Nat.add_assoc] using hg

open Classical in
theorem lookup_cleanLoop (maxSize : Int32) (minMtime : Int64) (p : K) (items : List (CacheItem K)) (total : Nat)
    (files : KeyTable K V) : (cleanLoop maxSize minMtime (Int32.ofNat total) items files).lookup p =
      if Unlinked maxSize minMtime total items p then none else files.lookup p := by
  induction items generalizing total files with
  | nil => rw [cleanLoop, if_neg unlinked_nil]
  | cons f items ih =>
    simp only [cleanLoop, addSize_ofNat]
    rw [ih, unlinked_cons]
    by_cases hrest : Unlinked maxSize minMtime (total + f.size.toNat) items p
    · rw [if_pos hrest, if_pos (.inr hrest)]
    · rw [if_neg hrest]
      by_cases hf : evicted maxSize minMtime (Int32.ofNat (total + f.size.toNat)) f = true
      · rw [if_pos hf, KeyTable.lookup_erase_eq]
        by_cases hp : p = f.file
        · rw [if_pos hp, if_pos (.inl ⟨hp.symm, hf⟩)]
        · rw [if_neg hp, if_neg fun h => h.elim (fun h => hp h.1.symm) hrest]
      · rw [if_neg hf, if_neg fun h => h.elim (fun h => hf h.2) hrest]

omit [DecidableEq K] in
theorem map_file_readCacheDir (inDir : K → Bool) (mtime : V → UInt64) (size : K → UInt64) (files : KeyTable K V) :
    (readCacheDir inDir mtime size files).map CacheItem.file = files.keys.filter inDir := by
  rw [readCacheDir, AList.keys, List.keys, List.map_filterMap, List.filter_map, ← List.filterMap_eq_map,
    List.filterMap_filter]
  refine List.filterMap_congr fun e _ => ?_
  by_cases he : inDir e.1 = true <;> simp [he]

theorem mem_readCacheDir {inDir : K → Bool} {mtime : V → UInt64} {size : K → UInt64} :
    f ∈ readCacheDir inDir mtime size files ↔
      inDir f.file = true ∧ ∃ v, files.lookup f.file = some v ∧ f = ⟨f.file, mtime v, size f.file⟩ := by
  rw [readCacheDir, List.mem_filterMap]
  constructor
  · rintro ⟨e, he, hf⟩
    obtain ⟨hdir, hf⟩ := Option.ite_none_right_eq_some.mp hf
    obtain rfl := Option.some.inj hf
    exact ⟨hdir, e.2, AList.mem_lookup_iff.mpr he, rfl⟩
  · rintro ⟨hdir, v, hv, hf⟩
    exact ⟨⟨f.file, v⟩, AList.mem_lookup_iff.mp hv, by rw [if_pos hdir, ← hf]⟩

/-- Each file once, and all of them there. -/
structure CacheListing (files : KeyTable K V) (items : List (CacheItem K)) : Prop where
  nodup : (items.map CacheItem.file).Nodup
  there : ∀ f ∈ items, files.lookup f.file ≠ none

theorem cacheListing_readCacheDirs {dirs : List (K → Bool)}
    (hdirs : dirs.Pairwise fun d d' => ∀ p, d p = true → d' p = false)
    (mtime : V → UInt64) (size : K → UInt64) (files : KeyTable K V) :
    CacheListing files (dirs.flatMap fun inDir => readCacheDir inDir mtime size files) := by
  constructor
  · simp only [List.map_flatMap, map_file_readCacheDir]
    refine List.nodup_flatMap.mpr ⟨fun _ _ => files.keys_nodup.filter _, hdirs.imp fun hdisjoint => ?_⟩
    refine List.disjoint_left.mpr fun p hp hp' => ?_
    have hin := (List.mem_filter.mp hp').2
    rw [hdisjoint p (List.mem_filter.mp hp).2] at hin
    cases hin
  · intro f hf
    obtain ⟨inDir, _, hf⟩ := List.mem_flatMap.mp hf
    obtain ⟨_, v, hv, _⟩ := mem_readCacheDir.mp hf
    simp [hv]

theorem CacheListing.of_perm (h : CacheListing files items) (hp : order.Perm items) : CacheListing files order :=
  ⟨(hp.map _).nodup_iff.mpr h.nodup, fun f hf => h.there f (hp.mem_iff.mp hf)⟩

theorem CacheListing.split_inj (h : CacheListing files order) {before after before' after' : List (CacheItem K)}
    {g : CacheItem K} (hf : order = before ++ f :: after) (hg : order = before' ++ g :: after')
    (hfile : f.file = g.file) :
    before = before' ∧ f = g := by
  have heq : f = g := List.inj_on_of_nodup_map h.nodup (hf ▸ by simp) (hg ▸ by simp) hfile
  subst heq
  have hnodup : (before' ++ f :: after').Nodup := hg ▸ h.nodup.of_map
  have hnotMem : f ∉ before' ++ after' := (List.nodup_cons.mp (List.nodup_middle.mp hnodup)).1
  obtain ⟨hbefore, hafter⟩ := not_or.mp (mt List.mem_append.mpr hnotMem)
  have hsplit : before' ++ f :: after' = before ++ f :: after := hg.symm.trans hf
  exact ⟨((List.append_cons_inj_of_notMem hbefore hafter).mp hsplit).1.symm, rfl⟩

theorem CacheListing.unlinked_iff (h : CacheListing files order) {before after : List (CacheItem K)}
    (hf : order = before ++ f :: after) : Unlinked maxSize minMtime 0 order f.file ↔
      evicted maxSize minMtime (Int32.ofNat (totalSize (before ++ [f]))) f = true := by
  constructor
  · rintro ⟨before', g, after', hg, hfile, hevicted⟩
    obtain ⟨rfl, rfl⟩ := h.split_inj hf hg hfile.symm
    rwa [Nat.zero_add] at hevicted
  · intro hevicted
    exact ⟨before, f, after, hf, rfl, by rwa [Nat.zero_add]⟩

omit [DecidableEq K] in
theorem evicted_iff (hmax : 0 ≤ maxSize) (hmin : 0 ≤ minMtime) (total : Nat) :
    evicted maxSize minMtime (Int32.ofNat total) f = true ↔
      (maxSize.toInt ≤ (total % 2 ^ 32 : Nat) ∧ total % 2 ^ 32 < 2 ^ 31) ∨ ¬ minMtime.toInt ≤ f.mtime.toNat := by
  have hmax' : 0 ≤ maxSize.toInt := Int32.le_iff_toInt_le.mp hmax
  have hmin' : 0 ≤ minMtime.toInt := Int64.le_iff_toInt_le.mp hmin
  have hmtime : f.mtime < minMtime.toUInt64 ↔ ¬ minMtime.toInt ≤ f.mtime.toNat := by
    have hclamp : minMtime.toUInt64.toNat = minMtime.toInt.toNat := Int64.toNat_toUInt64_of_le hmin
    rw [UInt64.lt_iff_toNat_lt, hclamp]
    omega
  simp only [evicted, Bool.or_eq_true, Bool.and_eq_true, decide_eq_true_eq, hmtime, ge_iff_le, hmax, true_and,
    Int32.le_iff_toInt_le]
  refine or_congr_left ?_
  rcases toInt_ofNat_cases total with ⟨heq, hlt⟩ | ⟨hneg, hge⟩
  · rw [heq]
    exact (and_iff_left hlt).symm
  · constructor
    · intro h
      omega
    · intro h
      omega

theorem cleanCache_rule (array : PtrArraySort K) (hlist : CacheListing files items)
    {before after : List (CacheItem K)}
    (hf : array.sort items = before ++ f :: after) :
    (cleanCache array items maxSize minMtime files).lookup f.file =
      if evicted maxSize minMtime (Int32.ofNat (totalSize (before ++ [f]))) f = true then none
      else files.lookup f.file := by
  classical
  have hh := lookup_cleanLoop maxSize minMtime f.file (array.sort items) 0 files
  rw [cleanCache, show (0 : Int32) = Int32.ofNat 0 from rfl, hh]
  exact if_congr ((hlist.of_perm (array.perm items)).unlinked_iff hf) rfl rfl

theorem cleanCache_zero (array : PtrArraySort K) (hlist : CacheListing files items)
    (htotal : totalSize items < 2 ^ 31)
    (hf : f ∈ items) : (cleanCache array items 0 minMtime files).lookup f.file = none := by
  obtain ⟨before, after, hsplit⟩ := List.append_of_mem ((array.perm items).mem_iff.mpr hf)
  have hle : totalSize (before ++ [f]) ≤ totalSize items := by
    rw [← totalSize_perm (array.perm items), hsplit]
    simp
  have hint : (Int32.ofNat (totalSize (before ++ [f]))).toInt = totalSize (before ++ [f]) :=
    Int32.toInt_ofNat_of_lt (by omega)
  have hsize : Int32.ofNat (totalSize (before ++ [f])) ≥ 0 := by
    rw [ge_iff_le, Int32.le_iff_toInt_le, hint]
    exact Int.natCast_nonneg _
  rw [cleanCache_rule array hlist hsplit, if_pos]
  rw [evicted, decide_eq_true hsize]
  rfl

theorem cleanCache_others (array : PtrArraySort K) (hp : ∀ f ∈ items, f.file ≠ p) :
    (cleanCache array items maxSize minMtime files).lookup p = files.lookup p := by
  classical
  have hh := lookup_cleanLoop maxSize minMtime p (array.sort items) 0 files
  rw [cleanCache, show (0 : Int32) = Int32.ofNat 0 from rfl, hh, if_neg]
  rintro ⟨before, f, after, hsplit, hfile, _⟩
  exact hp f ((array.perm items).mem_iff.mp (hsplit ▸ by simp)) hfile

omit [DecidableEq K] in
theorem Fits.lt_of_before {before after : List (CacheItem K)} {g : CacheItem K}
    (hg : Fits maxSize minMtime (before ++ f :: after) g) : (totalSize (before ++ [f]) : Int) < maxSize.toInt := by
  have hlt := hg.2
  simp only [totalSize_append, totalSize_cons, totalSize_nil] at hlt ⊢
  omega

section
variable (hlist : CacheListing files order) (hrule : ∀ before f after, order = before ++ f :: after →
  left.lookup f.file = if Fits maxSize minMtime before f then files.lookup f.file else none)
include hrule

theorem fits_of_left {before after : List (CacheItem K)} (hsplit : order = before ++ f :: after)
    (hleft : left.lookup f.file ≠ none) : Fits maxSize minMtime before f := by
  by_contra hfits
  exact hleft ((hrule before f after hsplit).trans (if_neg hfits))

theorem remaining_lt {g : CacheItem K} (hg : g ∈ order) (hgleft : left.lookup g.file ≠ none) :
    (totalSize (order.filter fun f => (left.lookup f.file).isSome) : Int) < maxSize.toInt := by
  have hlast : (order.reverse.find? fun f => (left.lookup f.file).isSome).isSome = true := by
    rw [List.find?_isSome]
    exact ⟨g, List.mem_reverse.mpr hg, Option.isSome_iff_ne_none.mpr hgleft⟩
  obtain ⟨f, hf⟩ := Option.isSome_iff_exists.mp hlast
  obtain ⟨hfleft, after, before, hsplit, hafter⟩ := List.find?_eq_some_iff_append.mp hf
  have horder : order = before.reverse ++ f :: after.reverse := by
    rw [← List.reverse_reverse order, hsplit]
    simp
  have hlater : after.reverse.filter (fun f => (left.lookup f.file).isSome) = [] := by
    refine List.filter_eq_nil_iff.mpr fun a ha => ?_
    simpa using hafter a (List.mem_reverse.mp ha)
  have hle : totalSize (order.filter fun f => (left.lookup f.file).isSome) ≤ totalSize (before.reverse ++ [f]) := by
    rw [horder, List.filter_append, List.filter_cons, if_pos hfleft, hlater]
    exact totalSize_sublist (List.filter_sublist.append (List.Sublist.refl _))
  have hlt := (fits_of_left hrule horder (Option.isSome_iff_ne_none.mp hfleft)).2
  omega

include hlist

/-- A file behind one that is too large would have a larger total. -/
theorem not_newer_of_gone (hsorted : order.Pairwise fun f g => cacheFileCompare f g ≤ 0) {g : CacheItem K}
    (hf : f ∈ order) (hg : g ∈ order) (hgone : left.lookup f.file = none) (hold : minMtime.toInt ≤ f.mtime.toNat)
    (hleft : left.lookup g.file ≠ none) : f.mtime.toNat ≤ g.mtime.toNat := by
  obtain ⟨before, after, horder⟩ := List.append_of_mem hf
  have hlarge : ¬ Fits maxSize minMtime before f := by
    intro hh
    rw [hrule before f after horder, if_pos hh] at hgone
    exact hlist.there f hf hgone
  rw [horder] at hg hsorted
  rcases List.mem_append.mp hg with hbefore | hafter
  · exact cacheFileCompare_le_iff.mp ((List.pairwise_append.mp hsorted).2.2 g hbefore f List.mem_cons_self)
  · rcases List.mem_cons.mp hafter with rfl | hafter
    · exact absurd hgone hleft
    · obtain ⟨between, rest, rfl⟩ := List.append_of_mem hafter
      have hsplit : order = (before ++ f :: between) ++ g :: rest := by simpa using horder
      have hg : Fits maxSize minMtime (before ++ f :: between) g := fits_of_left hrule hsplit hleft
      exact absurd ⟨hold, hg.lt_of_before⟩ hlarge

theorem evicts_of_rule (hsorted : order.Pairwise fun f g => cacheFileCompare f g ≤ 0)
    (hothers : ∀ p, (∀ f ∈ order, f.file ≠ p) → left.lookup p = files.lookup p) :
    Evicts maxSize minMtime order files left := by
  refine ⟨hrule, hothers, ?_, ?_⟩
  · by_cases hnone : ∀ f ∈ order, left.lookup f.file = none
    · exact .inr hnone
    · obtain ⟨g, hg, hleft⟩ : ∃ g ∈ order, left.lookup g.file ≠ none := by simpa using hnone
      exact .inl (remaining_lt hrule hg hleft)
  · intro f hf g hg hgone hold hleft
    exact not_newer_of_gone hlist hrule hsorted hf hg hgone hold hleft

end

/-- The rule holds as long as no total of 2^31 bytes or more is taken for a
smaller one. -/
theorem cleanCache_evicts_iff (array : PtrArraySort K) (hlist : CacheListing files items) (hmax : 0 ≤ maxSize)
    (hmin : 0 ≤ minMtime) :
    Evicts maxSize minMtime (array.sort items) files (cleanCache array items maxSize minMtime files) ↔
      TotalsKept maxSize minMtime (array.sort items) := by
  have hlisted : CacheListing files (array.sort items) := hlist.of_perm (array.perm items)
  have hmem {f : CacheItem K} {before after} (hsplit : array.sort items = before ++ f :: after) :
      f ∈ array.sort items := hsplit ▸ by simp
  constructor
  · intro h before f after hsplit hold hlarge
    have hrule := h.rule before f after hsplit
    rw [cleanCache_rule array hlist hsplit, if_neg (fun hh : Fits _ _ _ _ => absurd hh.2 (by omega))] at hrule
    by_contra hlost
    rw [if_neg fun hevicted => ((evicted_iff hmax hmin _).mp hevicted).elim hlost (absurd hold)] at hrule
    exact hlisted.there f (hmem hsplit) hrule
  · intro h
    refine evicts_of_rule hlisted (fun before f after hsplit => ?_) (array.sorted items) fun p hp => ?_
    · rw [cleanCache_rule array hlist hsplit]
      by_cases hfits : Fits maxSize minMtime before f
      · rw [if_pos hfits, if_neg]
        rw [evicted_iff hmax hmin]
        have hlt := hfits.2
        rintro (⟨hle, _⟩ | hold)
        · omega
        · exact hold hfits.1
      · rw [if_neg hfits, if_pos]
        rw [evicted_iff hmax hmin]
        by_cases hold : minMtime.toInt ≤ f.mtime.toNat
        · exact .inl (h before f after hsplit hold (not_lt.mp fun hlt => hfits ⟨hold, hlt⟩))
        · exact .inr hold
    · exact cleanCache_others array fun f hf => hp f ((array.perm items).mem_iff.mpr hf)

end Eviction

end HildonThumbnail
