import HildonThumbnail.Exec.StringReplace
import Mathlib.Algebra.Order.Ring.Int
import Mathlib.Algebra.Ring.Nat

/-! The limit that the daemon puts on its memory (`get_memory_total` and
`memory_setrlimits` in daemon/hildon-thumbnail-daemon.c), where a `glong` has 64
bits and a `guint` has 32. -/

namespace HildonThumbnail

namespace MemoryLimit

def isspace (c : Char) : Bool := c ∈ [' ', '\t', '\n', '\x0b', '\x0c', '\r']

def leadingNumber (s : List Char) : Nat := Nat.ofDigitChars 10 (s.takeWhile Char.isDigit) 0

/-- A number that does not fit becomes the nearest one that does. -/
def atol (s : List Char) : Int64 :=
  let s := s.dropWhile isspace
  if s.head? = some '-' then Int64.ofInt (max (-2 ^ 63) (-(leadingNumber s.tail : Int)))
  else
    let s := if s.head? = some '+' then s.tail else s
    Int64.ofInt (min (2 ^ 63 - 1) (leadingNumber s : Int))

def rlimInfinity : Int64 := -1

def memTotal : List Char := "MemTotal:".toList
def kB : List Char := "kB".toList

def totalOf : Option (List Char) → Int64
  | none => 0
  | some contents =>
    match strstr memTotal contents with
    | none => 0
    | some (_, p) =>
      match strstr kB p with
      | none => 0
      | some (number, _) => 1024 * atol number

def getMemoryTotal (contents : Option (List Char)) : UInt32 :=
  let total := totalOf contents
  (if total = 0 then rlimInfinity else total).toUInt64.toUInt32

def clamp (x low high : Int64) : Int64 := if x > high then high else if x < low then low else x

def memLimit (x8664 : Bool) : Int64 := if x8664 then 512 * 1024 * 1024 else 80 * 1024 * 1024

inductive Resource
  | as
  | data
deriving DecidableEq

structure Limits where
  calls : List (Resource × UInt64)
  set : Bool

def limitOf (x8664 : Bool) (contents : Option (List Char)) : UInt64 :=
  let total := (getMemoryTotal contents).toUInt64.toInt64
  (clamp (memLimit x8664) 0 total).toUInt64

/-- The limits that are asked for, if `setrlimit` answers so. -/
def memorySetrlimits (x8664 : Bool) (contents : Option (List Char))
    (setrlimit : Resource → UInt64 → Bool) : Limits :=
  let limit := limitOf x8664 contents
  if setrlimit .as limit then ⟨[(.as, limit), (.data, limit)], setrlimit .data limit⟩
  else ⟨[(.as, limit)], false⟩

/-- The text of /proc/meminfo around the first line with the total. -/
structure MemInfo where
  before : List Char
  padding : List Char
  total : Nat
  after : List Char
  first : ¬ memTotal <:+: before
  ownLine : ∀ c, before.getLast? = some c → c = '\n'
  blank : ∀ c ∈ padding, isspace c = true

def MemInfo.amount (m : MemInfo) : List Char := m.padding ++ Nat.toDigits 10 m.total ++ [' ']

def MemInfo.contents (m : MemInfo) : List Char := m.before ++ memTotal ++ (m.amount ++ kB ++ m.after)

section
variable {needle pre : List Char}

theorem strstr_first (h : ¬ needle <:+: pre ++ needle.dropLast) (post : List Char) :
    strstr needle (pre ++ needle ++ post) = some (pre, post) := by
  have hne : needle ≠ [] := by
    rintro rfl
    exact h List.nil_infix
  induction pre with
  | nil =>
    obtain ⟨c, s, hs⟩ : ∃ c s, [] ++ needle ++ post = c :: s := by
      cases needle with
      | nil => exact absurd rfl hne
      | cons c s => exact ⟨c, s ++ post, rfl⟩
    have hstarts : needle.isPrefixOf (c :: s) = true := by
      rw [← hs]
      exact List.isPrefixOf_iff_prefix.mpr (List.prefix_append needle post)
    rw [hs, strstr, if_pos hstarts, ← hs]
    simp
  | cons c pre ih =>
    have hnot : ¬ needle.isPrefixOf (c :: (pre ++ needle ++ post)) = true := by
      intro hp
      have hstarts : needle <+: c :: pre ++ needle.dropLast ++ (needle.drop (needle.length - 1) ++ post) := by
        have heq : c :: pre ++ needle.dropLast ++ (needle.drop (needle.length - 1) ++ post) =
            c :: (pre ++ needle ++ post) := by
          have hsplit : needle.dropLast ++ needle.drop (needle.length - 1) = needle := by
            rw [List.dropLast_eq_take, List.take_append_drop]
          simp only [List.cons_append, List.append_assoc]
          rw [← List.append_assoc needle.dropLast, hsplit]
        rw [heq]
        exact List.isPrefixOf_iff_prefix.mp hp
      have hlen : needle.length ≤ (c :: pre ++ needle.dropLast).length := by
        simp only [List.length_append, List.length_cons, List.length_dropLast]
        omega
      exact h (List.prefix_of_prefix_length_le hstarts (List.prefix_append _ _) hlen).isInfix
    have hrest : ¬ needle <:+: pre ++ needle.dropLast := fun hp => h (hp.trans (List.suffix_cons c _).isInfix)
    simp only [List.cons_append]
    rw [strstr, if_neg hnot, ih hrest]
    rfl

theorem prefix_of_notMem {c : Char} (hc : c ∉ needle) {post : List Char} (h : needle <+: pre ++ c :: post) :
    needle <+: pre := by
  by_cases hlen : needle.length ≤ pre.length
  · exact List.prefix_of_prefix_length_le h (List.prefix_append _ _) hlen
  · have hover : pre ++ [c] <+: needle := by
      have hstart : pre ++ [c] <+: pre ++ c :: post := ⟨post, by simp⟩
      apply List.prefix_of_prefix_length_le hstart h
      simp only [List.length_append, List.length_singleton]
      omega
    exact absurd (hover.subset (by simp)) hc

theorem infix_of_notMem {c : Char} (hc : c ∉ needle) {post : List Char} (h : needle <:+: pre ++ c :: post) :
    needle <:+: pre ∨ needle <:+: post := by
  induction pre with
  | nil =>
    rw [List.nil_append, List.infix_cons_iff] at h
    rcases h with h | h
    · have hstart : needle <+: [] ++ c :: post := h
      exact .inl (prefix_of_notMem hc hstart).isInfix
    · exact .inr h
  | cons d pre ih =>
    rw [List.cons_append, List.infix_cons_iff] at h
    rcases h with h | h
    · have hstart : needle <+: (d :: pre) ++ c :: post := h
      exact .inl (prefix_of_notMem hc hstart).isInfix
    · rcases ih h with h | h
      · exact .inl (h.trans (List.suffix_cons d pre).isInfix)
      · exact .inr h

end

theorem leadingNumber_toDigits (n : Nat) {s : List Char} (h : ∀ c, s.head? = some c → c.isDigit = false) :
    leadingNumber (Nat.toDigits 10 n ++ s) = n := by
  have hdigits : ∀ c ∈ Nat.toDigits 10 n, c.isDigit = true :=
    fun c hc => Nat.isDigit_of_mem_toDigits (by decide) (by decide) hc
  have hrest : s.takeWhile Char.isDigit = [] := by
    cases s with
    | nil => rfl
    | cons c s => rw [List.takeWhile_cons, if_neg (by rw [h c rfl]; exact Bool.false_ne_true)]
  rw [leadingNumber, List.takeWhile_append_of_pos hdigits, hrest, List.append_nil,
    Nat.ofDigitChars_toDigits (by decide) (by decide)]

theorem atol_digits {padding : List Char} (hpadding : ∀ c ∈ padding, isspace c = true) {n : Nat} (hn : n < 2 ^ 63) :
    atol (padding ++ Nat.toDigits 10 n ++ [' ']) = Int64.ofInt n := by
  obtain ⟨d, ds, hds⟩ := List.exists_cons_of_ne_nil (Nat.toDigits_ne_nil (n := n) (b := 10))
  have hd : d.isDigit = true := by
    apply Nat.isDigit_of_mem_toDigits (b := 10) (n := n) (by decide) (by decide)
    rw [hds]
    exact List.mem_cons_self
  have hspace : isspace d = false := by
    by_contra hs
    simp only [isspace, Bool.not_eq_false, decide_eq_true_eq, List.mem_cons, List.not_mem_nil, or_false] at hs
    rcases hs with rfl | rfl | rfl | rfl | rfl | rfl <;> exact absurd hd (by decide)
  have hminus : d ≠ '-' := by
    rintro rfl
    exact absurd hd (by decide)
  have hplus : d ≠ '+' := by
    rintro rfl
    exact absurd hd (by decide)
  have hdrop : (padding ++ Nat.toDigits 10 n ++ [' ']).dropWhile isspace = Nat.toDigits 10 n ++ [' '] := by
    rw [List.append_assoc, List.dropWhile_append_of_pos hpadding, hds, List.cons_append, List.dropWhile_cons,
      if_neg (by rw [hspace]; exact Bool.false_ne_true)]
  have hhead : (Nat.toDigits 10 n ++ [' ']).head? = some d := by
    rw [hds]
    rfl
  have hnumber : leadingNumber (Nat.toDigits 10 n ++ [' ']) = n := by
    apply leadingNumber_toDigits
    intro c hc
    obtain rfl := Option.some.inj hc
    decide
  rw [atol, hdrop]
  simp only [hhead, Option.some.injEq, hminus, hplus, if_false, hnumber]
  congr 1
  omega

namespace MemInfo

variable (m : MemInfo)

theorem notBefore : ¬ memTotal <:+: m.before ++ memTotal.dropLast := by
  have hbreak : '\n' ∉ memTotal := by decide
  have hown : ¬ memTotal <:+: memTotal.dropLast := fun h => absurd h.length_le (by decide)
  intro h
  cases hlast : m.before.getLast? with
  | none =>
    rw [List.getLast?_eq_none_iff.mp hlast, List.nil_append] at h
    exact hown h
  | some c =>
    obtain ⟨lines, hlines⟩ := List.getLast?_eq_some_iff.mp hlast
    rw [m.ownLine c hlast] at hlines
    rw [hlines, List.append_assoc, List.singleton_append] at h
    rcases infix_of_notMem hbreak h with h | h
    · apply m.first
      rw [hlines]
      exact h.trans (List.prefix_append _ _).isInfix
    · exact hown h

theorem kB_notBefore : ¬ kB <:+: m.amount ++ kB.dropLast := by
  intro h
  have hB : 'B' ∈ m.amount ++ kB.dropLast := h.subset (by decide)
  have hdigit : 'B' ∉ Nat.toDigits 10 m.total := by
    intro hmem
    exact absurd (Nat.isDigit_of_mem_toDigits (by decide) (by decide) hmem) (by decide)
  have hblank : 'B' ∉ m.padding := fun hmem => absurd (m.blank _ hmem) (by decide)
  simp [amount, hdigit, hblank, show kB.dropLast = ['k'] from rfl] at hB

theorem totalOf_contents (hfits : m.total < 2 ^ 63) : totalOf (some m.contents) = 1024 * Int64.ofInt m.total := by
  have hline : strstr memTotal m.contents = some (m.before, m.amount ++ kB ++ m.after) :=
    strstr_first m.notBefore _
  have hend : strstr kB (m.amount ++ kB ++ m.after) = some (m.amount, m.after) := strstr_first m.kB_notBefore _
  simp only [totalOf, hline, hend]
  rw [amount, atol_digits m.blank hfits]

theorem toInt_total (hfits : 1024 * m.total < 2 ^ 63) : (totalOf (some m.contents)).toInt = 1024 * m.total := by
  have hsize : (m.total : Int) < 2 ^ 63 := by omega
  rw [m.totalOf_contents (by omega), Int64.toInt_mul, Int64.toInt_ofInt]
  rw [show (1024 : Int64).toInt = 1024 from rfl, show Int64.size = 2 ^ 64 from rfl, Int.bmod_def, Int.bmod_def]
  omega

end MemInfo

theorem toNat_toUInt64 {a : Int64} {n : Nat} (h : a.toInt = n) (hn : n < 2 ^ 63) : a.toUInt64.toNat = n := by
  have hbits := BitVec.toInt_eq_toNat_bmod a.toBitVec
  rw [show a.toBitVec.toInt = n from h, Int.bmod_def] at hbits
  have hlt := a.toBitVec.isLt
  rw [show a.toUInt64.toNat = a.toBitVec.toNat from rfl]
  split at hbits <;> omega

theorem toInt_toInt64 {g : UInt64} (hg : g.toNat < 2 ^ 63) : g.toInt64.toInt = g.toNat := by
  have hbits := BitVec.toInt_eq_toNat_bmod g.toBitVec
  rw [show g.toBitVec.toNat = g.toNat from rfl, Int.bmod_def] at hbits
  rw [show g.toInt64.toInt = g.toBitVec.toInt from rfl, hbits]
  split <;> omega

/-- The total loses what is above 32 bits where it is returned. -/
theorem toNat_getMemoryTotal (m : MemInfo) (hpos : 1 ≤ m.total) (hfits : 1024 * m.total < 2 ^ 63) :
    (getMemoryTotal (some m.contents)).toNat = 1024 * m.total % 2 ^ 32 := by
  have htotal := m.toInt_total hfits
  have hne : totalOf (some m.contents) ≠ 0 := by
    intro h
    rw [h, show (0 : Int64).toInt = 0 from rfl] at htotal
    omega
  rw [getMemoryTotal, if_neg hne, UInt64.toNat_toUInt32, toNat_toUInt64 (by rw [htotal]; rfl) hfits]

theorem clamp_toInt {x high : Int64} (hx : 0 ≤ x.toInt) : (clamp x 0 high).toInt = min x.toInt high.toInt := by
  have hzero : (0 : Int64).toInt = 0 := rfl
  simp only [clamp, gt_iff_lt, Int64.lt_iff_toInt_lt, hzero]
  split
  · omega
  · rw [if_neg (by omega)]
    omega

theorem toNat_limitOf (x8664 : Bool) (m : MemInfo) (hpos : 1 ≤ m.total) (hfits : 1024 * m.total < 2 ^ 63) :
    (limitOf x8664 (some m.contents)).toNat = min (memLimit x8664).toInt.toNat (1024 * m.total % 2 ^ 32) := by
  have hguint := toNat_getMemoryTotal m hpos hfits
  have htotal : (getMemoryTotal (some m.contents)).toUInt64.toInt64.toInt = 1024 * m.total % 2 ^ 32 := by
    have hnat : (getMemoryTotal (some m.contents)).toUInt64.toNat = 1024 * m.total % 2 ^ 32 := by
      rw [UInt32.toNat_toUInt64, hguint]
    rw [toInt_toInt64 (by omega), hnat]
    rfl
  have hnonneg : 0 ≤ (memLimit x8664).toInt := by
    cases x8664 <;> decide
  apply toNat_toUInt64
  · rw [clamp_toInt hnonneg, htotal]
    omega
  · omega

theorem calls_iff (x8664 : Bool) (contents : Option (List Char)) (setrlimit : Resource → UInt64 → Bool) (n : Nat) :
    (∀ call ∈ (memorySetrlimits x8664 contents setrlimit).calls, call.2.toNat = n) ↔
      (limitOf x8664 contents).toNat = n := by
  simp only [memorySetrlimits]
  split <;> simp

/-- The limit is right exactly where the total fits the returned number, or where what is left
of it there does not fall below the limit of the build. -/
theorem memorySetrlimits_iff (x8664 : Bool) (m : MemInfo) (hpos : 1 ≤ m.total) (hfits : 1024 * m.total < 2 ^ 63)
    (setrlimit : Resource → UInt64 → Bool) :
    (∀ call ∈ (memorySetrlimits x8664 (some m.contents) setrlimit).calls,
      call.2.toNat = min (memLimit x8664).toInt.toNat (1024 * m.total)) ↔
    1024 * m.total < 2 ^ 32 ∨ (memLimit x8664).toInt.toNat ≤ 1024 * m.total % 2 ^ 32 := by
  have hsmall : (memLimit x8664).toInt.toNat < 2 ^ 32 := by
    cases x8664 <;> decide
  rw [calls_iff, toNat_limitOf x8664 m hpos hfits]
  omega

def ordinary (n : Nat) : MemInfo where
  before := []
  padding := List.replicate 8 ' '
  total := n
  after := "\nMemFree:          203612 kB\n".toList
  first h := absurd h.length_le (by decide)
  ownLine c h := nomatch h
  blank c hc := by
    rw [List.eq_of_mem_replicate hc]
    decide

theorem memorySetrlimits_ordinary : ((memorySetrlimits true (some (ordinary 2031616).contents)
    fun _ _ => true).calls.all fun call =>
      decide (call.2.toNat = min (memLimit true).toInt.toNat (1024 * 2031616))) = true := by
  rw [List.all_eq_true]
  intro call hcall
  apply decide_eq_true
  apply (memorySetrlimits_iff true (ordinary 2031616) (by decide) (by decide) fun _ _ => true).mpr _ call hcall
  exact .inl (by decide)

/-- With four gigabytes the process is left without any memory. -/
theorem memorySetrlimits_four_gigabytes : ¬ ∀ call ∈ (memorySetrlimits true (some (ordinary 4194304).contents)
    fun _ _ => true).calls, call.2.toNat = min (memLimit true).toInt.toNat (1024 * 4194304) := by
  rw [calls_iff, toNat_limitOf true (ordinary 4194304) (by decide) (by decide)]
  decide

end MemoryLimit

end HildonThumbnail
