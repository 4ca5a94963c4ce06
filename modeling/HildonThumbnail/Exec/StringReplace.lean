import HildonThumbnail.Albumart.Strip
import HildonThumbnail.Lib.While
import Mathlib.Algebra.Ring.Nat

/-! The command line of the exec plugin (`string_replace` in
daemon/plugins/exec-plugin.c). A `gchar` is a `Char`, `guint` has 32 bits and
`size_t` 64. -/

namespace HildonThumbnail

def nul : Char := Char.ofNat 0

structure CString where
  chars : List Char
  nul_notMem : nul ∉ chars

/-- As it is stored in a `guint`. -/
def CString.strlen (s : CString) : UInt32 := UInt32.ofNat s.chars.length

/-- The parameters after `in`. -/
structure ExecArgs where
  uri : CString
  large : CString
  normal : CString
  cropped : CString
  mimeType : CString
  mimeTypeAt : CString
  cropping : Bool
  mtime : UInt32

/-- `g_strdup_printf ("%u", ..)`. -/
def printfU (n : UInt32) : CString where
  chars := Nat.toDigits 10 n.toNat
  nul_notMem h := by simpa [nul] using Nat.isDigit_of_mem_toDigits (by decide) (by decide) h

def yes : CString := ⟨"yes".toList, by decide⟩
def no : CString := ⟨"no".toList, by decide⟩

/-- The text that each of the length loops looks through, and the length it adds. -/
def ExecArgs.lengthLoops (a : ExecArgs) : List (List Char × UInt32) :=
  [("\x7buri\x7d".toList, a.uri.strlen), ("\x7bnormal\x7d".toList, a.normal.strlen),
    ("\x7blarge\x7d".toList, a.large.strlen), ("\x7bcropped\x7d".toList, a.cropped.strlen),
    ("\x7bmime\x7d".toList, a.mimeType.strlen), ("\x7bmime_at\x7d".toList, a.mimeTypeAt.strlen),
    ("\x7bmtime\x7d".toList, (printfU a.mtime).strlen), ("\x7bdocrop\x7d".toList, if a.cropping then 3 else 2)]

/-- One turn of `while (ptr)`, on `ptr` and `total`. The place that strstr finds
lies in the placeholder's text. -/
def lengthStep (literal : List Char) (len : UInt32) :
    Option (List Char) × UInt32 → Option (Option (List Char) × UInt32)
  | (none, _) => none
  | (some ptr, total) => some ((strstr ptr literal).map fun found => ptr ++ found.2, total + len)

/-- `total` after the eight loops, if they end. -/
def lengthComputation (fuel : Nat) (in_ : CString) (a : ExecArgs) : Option UInt32 :=
  a.lengthLoops.foldlM (fun total loop =>
    (WhileLoop.exec (lengthStep loop.1 loop.2) fuel (some in_.chars, total)).map (·.2)) in_.strlen

/-- `in` and what the memory after it holds. -/
def memoryAt (in_ : CString) (beyond : Nat → Char) (z : UInt32) : Char :=
  (in_.chars ++ [nul]).getD z.toNat (beyond z.toNat)

/-- The loop over `z` with the turns that are left: where it finds the closing
brace, and what it has copied into `buf` by then. -/
def scanBrace (mem : UInt32 → Char) (stop : UInt32) : Nat → UInt32 → Option (UInt32 × List Char)
  | 0, _ => none
  | turns + 1, z =>
    if z < stop then
      if mem z = '}' then some (z, [])
      else (scanBrace mem stop turns (z + 1)).map fun found => (found.1, mem z :: found.2)
    else none

/-- The values whose letters are in `buf`, in the order of the tests. -/
def ExecArgs.chosen (a : ExecArgs) (buf : List Char) : List CString :=
  let b (k : Nat) : Char := buf.getD k nul
  (if b 0 = 'm' ∧ b 1 = 't' then [printfU a.mtime] else []) ++
  (if b 0 = 'm' ∧ b 1 = 'i' ∧ b 4 ≠ '_' then [a.mimeType] else []) ++
  (if b 0 = 'm' ∧ b 1 = 'i' ∧ b 4 = '_' then [a.mimeTypeAt] else []) ++
  (if b 0 = 'u' then [a.uri] else []) ++
  (if b 0 = 'n' then [a.normal] else []) ++
  (if b 0 = 'l' then [a.large] else []) ++
  (if b 0 = 'c' then [a.cropped] else []) ++
  (if b 0 = 'd' ∧ a.cropping = true then [yes] else []) ++
  (if b 0 = 'd' ∧ a.cropping = false then [no] else [])

/-- The variables of the substitution loop; `writes` is what was copied to
`ret + off`, the last one at the end. -/
structure Substitution where
  i : UInt32
  off : UInt32
  writes : List (Nat × List Char)

def Substitution.memcpy (s : Substitution) (value : CString) : Substitution :=
  { s with
    off := s.off + value.strlen
    writes := s.writes ++ [(s.off.toNat, value.chars.take value.strlen.toNat)] }

def substitutionStep (mem : UInt32 → Char) (inLen total : UInt32) (a : ExecArgs) (s : Substitution) :
    Option Substitution :=
  if s.i < inLen ∧ s.off < total + 1 then
    if mem s.i = '{' then
      let i := s.i + 1
      match scanBrace mem (i + 10) 10 i with
      | some (z, buf) =>
        let t := (a.chosen buf).foldl Substitution.memcpy s
        some { t with i := i + (z - i) + 1 }
      | none => some { s with i := i - 1 + 1 }
    else some { i := s.i + 1, off := s.off + 1, writes := s.writes ++ [(s.off.toNat, [mem s.i])] }
  else none

/-- The zeroed block with the writes that were made to it. -/
structure Buffer where
  size : Nat
  writes : List (Nat × List Char)

def stringReplace (fuel : Nat) (in_ : CString) (a : ExecArgs) (beyond : Nat → Char) : Option Buffer :=
  (lengthComputation fuel in_ a).bind fun total =>
    (WhileLoop.exec (substitutionStep (memoryAt in_ beyond) in_.strlen total a) fuel ⟨0, 0, []⟩).map fun s =>
      ⟨total.toNat + 5, s.writes⟩

section
variable {ptr literal : List Char}

theorem strstr_eq_some {needle s before after : List Char} (h : strstr needle s = some (before, after)) :
    s = before ++ needle ++ after := by
  induction s generalizing before with
  | nil =>
    rw [strstr] at h
    split at h
    · next hneedle =>
      obtain ⟨rfl, rfl⟩ := Prod.mk.inj (Option.some.inj h)
      simp [hneedle]
    · exact nomatch h
  | cons c s ih =>
    rw [strstr] at h
    split at h
    · next hprefix =>
      obtain ⟨rfl, rfl⟩ := Prod.mk.inj (Option.some.inj h)
      obtain ⟨t, ht⟩ := List.isPrefixOf_iff_prefix.mp hprefix
      rw [← ht, List.drop_left, List.nil_append]
    · obtain ⟨⟨b, e⟩, hfound, heq⟩ := Option.map_eq_some_iff.mp h
      obtain ⟨rfl, rfl⟩ := Prod.mk.inj heq
      rw [ih hfound]
      rfl

theorem strstr_eq_none_iff {needle s : List Char} : strstr needle s = none ↔ ¬ needle <:+: s := by
  induction s with
  | nil => simp [strstr]
  | cons c s ih =>
    rw [strstr, List.infix_cons_iff]
    by_cases h : needle.isPrefixOf (c :: s) = true
    · simp [List.isPrefixOf_iff_prefix.mp h]
    · have hprefix : ¬ needle <+: c :: s := fun hp => h (List.isPrefixOf_iff_prefix.mpr hp)
      simp [ih, hprefix]

/-- Once a part of the placeholder's text is found, what is found next is a part of it too. -/
theorem lengthStep_of_part (len : UInt32) (h : ptr <:+: literal) (total : UInt32) :
    ∃ next, lengthStep literal len (some ptr, total) = some (some next, total + len) ∧ next <:+: literal := by
  cases hfound : strstr ptr literal with
  | none => exact absurd h (strstr_eq_none_iff.mp hfound)
  | some found =>
    refine ⟨ptr ++ found.2, by simp [lengthStep, hfound], ?_⟩
    have heq := strstr_eq_some hfound
    exact ⟨found.1, [], by rw [heq, List.append_nil, List.append_assoc]⟩

theorem lengthStep_of_notPart (len : UInt32) (h : ¬ ptr <:+: literal) (total : UInt32) :
    lengthStep literal len (some ptr, total) = some (none, total + len) := by
  simp [lengthStep, strstr_eq_none_iff.mpr h]

theorem lengthLoop_ends_iff (len total : UInt32) :
    WhileLoop.Ends (lengthStep literal len) (some ptr, total) ↔ ¬ ptr <:+: literal := by
  constructor
  · intro hends h
    refine WhileLoop.not_ends_of_invariant
      (P := fun s => ∃ p total, s = (some p, total) ∧ p <:+: literal) ?_ ⟨ptr, total, rfl, h⟩ hends
    rintro _ ⟨p, total, rfl, hp⟩
    obtain ⟨next, hstep, hnext⟩ := lengthStep_of_part len hp total
    exact ⟨_, hstep, next, total + len, rfl, hnext⟩
  · intro h
    rw [WhileLoop.ends_of_some (lengthStep_of_notPart len h total)]
    exact ⟨_, (WhileLoop.endsIn_of_none rfl).mpr rfl⟩

end

section
variable {mem : UInt32 → Char} {inLen total stop i z : UInt32} {a : ExecArgs} {s t : Substitution} {buf : List Char}

theorem toNat_succ_of_lt {limit : UInt32} (h : i < limit) : (i + 1).toNat = i.toNat + 1 := by
  have hsucc : (i + 1).toNat = (i.toNat + 1) % 2 ^ 32 := UInt32.toNat_add i 1
  have hlimit := limit.toNat_lt
  rw [UInt32.lt_iff_toNat_lt] at h
  omega

theorem scanBrace_place {turns : Nat} (h : scanBrace mem stop turns i = some (z, buf)) :
    i ≤ z ∧ z < stop := by
  induction turns generalizing i buf with
  | zero => exact nomatch h
  | succ turns ih =>
    rw [scanBrace] at h
    split at h
    · next hi =>
      split at h
      · obtain ⟨rfl, rfl⟩ := Prod.mk.inj (Option.some.inj h)
        exact ⟨UInt32.le_refl _, hi⟩
      · obtain ⟨⟨e, b⟩, hfound, heq⟩ := Option.map_eq_some_iff.mp h
        obtain ⟨rfl, rfl⟩ := Prod.mk.inj heq
        obtain ⟨hle, hlt⟩ := ih hfound
        refine ⟨?_, hlt⟩
        have hsucc := toNat_succ_of_lt hi
        rw [UInt32.le_iff_toNat_le] at hle ⊢
        omega
    · exact nomatch h

theorem substitutionStep_stop (h : ¬ (s.i < inLen ∧ s.off < total + 1)) :
    substitutionStep mem inLen total a s = none := if_neg h

theorem substitutionStep_text (h : s.i < inLen ∧ s.off < total + 1) (hmem : mem s.i ≠ '{') :
    substitutionStep mem inLen total a s = some ⟨s.i + 1, s.off + 1, s.writes ++ [(s.off.toNat, [mem s.i])]⟩ := by
  rw [substitutionStep, if_pos h, if_neg hmem]

theorem substitutionStep_place (h : s.i < inLen ∧ s.off < total + 1) (hmem : mem s.i = '{')
    (hscan : scanBrace mem (s.i + 1 + 10) 10 (s.i + 1) = some (z, buf)) :
    substitutionStep mem inLen total a s =
      some { (a.chosen buf).foldl Substitution.memcpy s with i := z + 1 } := by
  have hz : s.i + 1 + (z - (s.i + 1)) = z := by rw [UInt32.add_comm, UInt32.sub_add_cancel]
  simp [substitutionStep, h, hmem, hscan, hz]

/-- An opening brace without a closing one nearby is left out. -/
theorem substitutionStep_open (h : s.i < inLen ∧ s.off < total + 1) (hmem : mem s.i = '{')
    (hscan : scanBrace mem (s.i + 1 + 10) 10 (s.i + 1) = none) :
    substitutionStep mem inLen total a s = some { s with i := s.i + 1 } := by
  simp [substitutionStep, h, hmem, hscan]

/-- Whatever the memory holds, a turn moves on in the template. -/
theorem substitutionStep_i_lt (h : substitutionStep mem inLen total a s = some t) :
    s.i < inLen ∧ s.i < t.i := by
  by_cases hguard : s.i < inLen ∧ s.off < total + 1
  · have hsucc := toNat_succ_of_lt hguard.1
    refine ⟨hguard.1, ?_⟩
    rw [UInt32.lt_iff_toNat_lt]
    by_cases hmem : mem s.i = '{'
    · cases hscan : scanBrace mem (s.i + 1 + 10) 10 (s.i + 1) with
      | none =>
        rw [substitutionStep_open hguard hmem hscan] at h
        rw [← Option.some.inj h, hsucc]
        exact Nat.lt_succ_self _
      | some found =>
        -- the closing brace lies before i + 10, so the place after it has not wrapped
        obtain ⟨z, buf⟩ := found
        obtain ⟨hle, hlt⟩ := scanBrace_place hscan
        have hz := toNat_succ_of_lt hlt
        rw [UInt32.le_iff_toNat_le] at hle
        rw [substitutionStep_place hguard hmem hscan] at h
        rw [← Option.some.inj h, hz]
        omega
    · rw [substitutionStep_text hguard hmem] at h
      rw [← Option.some.inj h, hsucc]
      exact Nat.lt_succ_self _
  · rw [substitutionStep_stop hguard] at h
    exact nomatch h

theorem substitution_ends (mem : UInt32 → Char) (inLen total : UInt32) (a : ExecArgs) (s : Substitution) :
    WhileLoop.Ends (substitutionStep mem inLen total a) s := by
  apply WhileLoop.ends_of_measure fun s => inLen.toNat - s.i.toNat
  intro s t h
  obtain ⟨hguard, hlt⟩ := substitutionStep_i_lt h
  rw [UInt32.lt_iff_toNat_lt] at hlt hguard
  omega

end

section
variable {ptr literal : List Char} {in_ : CString} {a : ExecArgs}

theorem lengthLoop_endsIn {len total : UInt32} {t : Option (List Char) × UInt32}
    (h : WhileLoop.EndsIn (lengthStep literal len) (some ptr, total) t) :
    ¬ ptr <:+: literal ∧ t = (none, total + len) := by
  have hpart := (lengthLoop_ends_iff len total).mp ⟨t, h⟩
  rw [WhileLoop.endsIn_of_some (lengthStep_of_notPart len hpart total)] at h
  exact ⟨hpart, (WhileLoop.endsIn_of_none rfl).mp h⟩

theorem exec_lengthStep (h : ¬ ptr <:+: literal) (len total : UInt32) (fuel : Nat) :
    WhileLoop.exec (lengthStep literal len) (fuel + 2) (some ptr, total) = some (none, total + len) := by
  rw [WhileLoop.exec_succ_of_some (lengthStep_of_notPart len h total)]
  exact WhileLoop.exec_succ_of_none rfl fuel

/-- Room for the template and for each of the values once. -/
def ExecArgs.room (a : ExecArgs) (in_ : CString) : UInt32 :=
  a.lengthLoops.foldl (fun total loop => total + loop.2) in_.strlen

theorem lengthComputation_eq_some {fuel : Nat} {total : UInt32} (h : lengthComputation fuel in_ a = some total) :
    (∀ loop ∈ a.lengthLoops, ¬ in_.chars <:+: loop.1) ∧ total = a.room in_ := by
  rw [lengthComputation] at h
  rw [ExecArgs.room]
  generalize in_.strlen = start, a.lengthLoops = loops at h ⊢
  induction loops generalizing start with
  | nil => exact ⟨by simp, (Option.some.inj h).symm⟩
  | cons loop loops ih =>
    rw [List.foldlM_cons] at h
    obtain ⟨next, hnext, hrest⟩ := Option.bind_eq_some_iff.mp h
    obtain ⟨t, ht, rfl⟩ := Option.map_eq_some_iff.mp hnext
    obtain ⟨hpart, rfl⟩ := lengthLoop_endsIn ⟨fuel, ht⟩
    obtain ⟨hothers, htotal⟩ := ih _ hrest
    exact ⟨List.forall_mem_cons.mpr ⟨hpart, hothers⟩, htotal⟩

theorem toNat_foldl_lengths (loops : List (List Char × UInt32)) (start : UInt32) :
    (loops.foldl (fun total loop => total + loop.2) start).toNat =
      (start.toNat + (loops.map fun loop => loop.2.toNat).sum) % 2 ^ 32 := by
  induction loops generalizing start with
  | nil => exact (Nat.mod_eq_of_lt start.toNat_lt).symm
  | cons loop loops ih =>
    have hadd : (start + loop.2).toNat = (start.toNat + loop.2.toNat) % 2 ^ 32 := UInt32.toNat_add _ _
    rw [List.foldl_cons, ih, hadd, List.map_cons, List.sum_cons]
    omega

theorem room_eq (in_ : CString) (a : ExecArgs) :
    (a.room in_).toNat = (in_.chars.length + (a.lengthLoops.map fun loop => loop.2.toNat).sum) % 2 ^ 32 := by
  rw [ExecArgs.room, toNat_foldl_lengths, CString.strlen, UInt32.toNat_ofNat', Nat.mod_add_mod]

theorem stringReplace_size {fuel : Nat} {beyond : Nat → Char} {b : Buffer}
    (h : stringReplace fuel in_ a beyond = some b) : b.size = (a.room in_).toNat + 5 := by
  obtain ⟨total, htotal, hsub⟩ := Option.bind_eq_some_iff.mp h
  obtain ⟨-, rfl⟩ := lengthComputation_eq_some htotal
  obtain ⟨s, -, rfl⟩ := Option.map_eq_some_iff.mp hsub
  rfl

theorem lengthComputation_of_notPart (h : ∀ loop ∈ a.lengthLoops, ¬ in_.chars <:+: loop.1) (fuel : Nat) :
    lengthComputation (fuel + 2) in_ a = some (a.room in_) := by
  rw [lengthComputation, ExecArgs.room]
  generalize in_.strlen = start, a.lengthLoops = loops at h ⊢
  induction loops generalizing start with
  | nil => rfl
  | cons loop loops ih =>
    have hfirst := exec_lengthStep (h loop List.mem_cons_self) loop.2 start fuel
    rw [List.foldlM_cons, hfirst]
    exact ih _ fun loop hloop => h loop (List.mem_cons_of_mem _ hloop)

end

/-- Each of the length loops ends, whatever the others added before it, and so
does the loop after them. -/
structure LoopsEnd (in_ : CString) (a : ExecArgs) (beyond : Nat → Char) : Prop where
  lengths : ∀ loop ∈ a.lengthLoops, ∀ total, WhileLoop.Ends (lengthStep loop.1 loop.2) (some in_.chars, total)
  substitution : ∀ total, WhileLoop.Ends
    (substitutionStep (memoryAt in_ beyond) in_.strlen total a) ⟨0, 0, []⟩

theorem loopsEnd_iff (in_ : CString) (a : ExecArgs) (beyond : Nat → Char) :
    LoopsEnd in_ a beyond ↔ ∀ loop ∈ a.lengthLoops, ¬ in_.chars <:+: loop.1 := by
  constructor
  · intro h loop hloop
    exact (lengthLoop_ends_iff loop.2 0).mp (h.lengths loop hloop 0)
  · intro h
    exact ⟨fun loop hloop total => (lengthLoop_ends_iff loop.2 total).mpr (h loop hloop),
      fun total => substitution_ends _ _ _ _ _⟩

theorem not_loopsEnd_empty : ¬ ∀ (in_ : CString) (a : ExecArgs) (beyond : Nat → Char), LoopsEnd in_ a beyond := by
  intro h
  let args : ExecArgs := ⟨no, no, no, no, no, no, true, 0⟩
  have hends := (h ⟨[], by simp⟩ args fun _ => nul).lengths (_, args.uri.strlen) List.mem_cons_self 0
  exact (lengthLoop_ends_iff _ _).mp hends List.nil_infix

end HildonThumbnail
