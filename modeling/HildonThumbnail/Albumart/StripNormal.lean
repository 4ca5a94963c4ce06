import HildonThumbnail.Albumart.Strip
import Mathlib

/-! When `strip_characters` gives a normal form. -/

namespace HildonThumbnail

/-- Each pair of spaces made one, from the left. -/
def halveSpaces : List Char → List Char
  | [] => []
  | [c] => [c]
  | c :: d :: s => if c = ' ' ∧ d = ' ' then ' ' :: halveSpaces s else c :: halveSpaces (d :: s)

section Split
variable {needle sep s : List Char} {c : Char} {n : Nat}

def replaceTokens (needle sep : List Char) (n : Nat) (s : List Char) : List Char :=
  gStrjoinv sep (splitTokens needle n s)

theorem splitTokens_ne_nil : splitTokens needle n s ≠ [] := by
  cases n with
  | zero => simp [splitTokens]
  | succ n =>
    rw [splitTokens]
    split <;> simp

theorem replaceTokens_zero : replaceTokens needle sep 0 s = s := by
  simp [replaceTokens, splitTokens, gStrjoinv]

theorem replaceTokens_succ : replaceTokens needle sep (n + 1) s =
    match strstr needle s with
    | none => s
    | some (token, remainder) => token ++ sep ++ replaceTokens needle sep n remainder := by
  rw [replaceTokens, splitTokens]
  cases strstr needle s with
  | none => simp [gStrjoinv]
  | some found =>
    obtain ⟨token, remainder⟩ := found
    rw [gStrjoinv, List.intercalate_cons_of_ne_nil splitTokens_ne_nil]
    rfl

theorem replaceTokens_nil (hneedle : needle ≠ []) : replaceTokens needle sep n [] = [] := by
  cases n with
  | zero => exact replaceTokens_zero
  | succ n => simp [replaceTokens_succ, strstr, hneedle]

theorem replaceTokens_of_isPrefixOf (h : needle.isPrefixOf (c :: s) = true) :
    replaceTokens needle sep (n + 1) (c :: s) = sep ++
      replaceTokens needle sep n ((c :: s).drop needle.length) := by
  rw [replaceTokens_succ, strstr, if_pos h]
  rfl

theorem replaceTokens_of_not_isPrefixOf (h : ¬ needle.isPrefixOf (c :: s) = true) :
    replaceTokens needle sep (n + 1) (c :: s) = c :: replaceTokens needle sep (n + 1) s := by
  rw [replaceTokens_succ, strstr, if_neg h, replaceTokens_succ]
  cases strstr needle s with
  | none => rfl
  | some found => rfl

theorem replaceTokens_singleton (d : Char) (hn : s.length ≤ n) :
    replaceTokens [d] sep n s = s.flatMap fun c => if c = d then sep else [c] := by
  induction s generalizing n with
  | nil => exact replaceTokens_nil (by simp)
  | cons c s ih =>
    cases n with
    | zero => simp at hn
    | succ n =>
      have hn : s.length ≤ n := by simpa using hn
      by_cases hc : c = d
      · have hprefix : [d].isPrefixOf (c :: s) = true := by simp [hc]
        rw [replaceTokens_of_isPrefixOf hprefix, List.flatMap_cons, if_pos hc]
        exact congrArg _ (ih hn)
      · have hprefix : ¬ [d].isPrefixOf (c :: s) = true := by simp [Ne.symm hc]
        rw [replaceTokens_of_not_isPrefixOf hprefix, List.flatMap_cons, if_neg hc, ih (Nat.le_succ_of_le hn)]
        rfl

theorem replaceTokens_spaces (hn : s.length ≤ n) : replaceTokens [' ', ' '] [' '] n s = halveSpaces s := by
  induction s using halveSpaces.induct generalizing n with
  | case1 => exact replaceTokens_nil (by simp)
  | case2 c =>
    cases n with
    | zero => simp at hn
    | succ n =>
      rw [replaceTokens_of_not_isPrefixOf (by simp), replaceTokens_nil (by simp)]
      rfl
  | case3 c d s hpair ih =>
    cases n with
    | zero => simp at hn
    | succ n =>
      have hprefix : [' ', ' '].isPrefixOf (c :: d :: s) = true := by simp [hpair]
      rw [replaceTokens_of_isPrefixOf hprefix, halveSpaces, if_pos hpair]
      exact congrArg _ (ih (by simp at hn; omega))
  | case4 c d s hpair ih =>
    cases n with
    | zero => simp at hn
    | succ n =>
      have hprefix : ¬ [' ', ' '].isPrefixOf (c :: d :: s) = true := by
        intro h
        simp only [List.isPrefixOf_cons_cons, List.isPrefixOf_nil_left, Bool.and_true, Bool.and_eq_true, beq_iff_eq]
          at h
        exact hpair ⟨h.1.symm, h.2.symm⟩
      rw [replaceTokens_of_not_isPrefixOf hprefix, halveSpaces, if_neg hpair, ih (by simp at hn ⊢; omega)]

theorem joinSplit_eq (needle sep s : List Char) (hneedle : needle ≠ []) :
    gStrjoinv sep (gStrsplit s needle) = replaceTokens needle sep s.length s := by
  rw [gStrsplit]
  split
  · next hs =>
    rw [hs, replaceTokens_nil hneedle]
    rfl
  · rfl

end Split

section Spaces
variable {s x y : List Char} {c : Char}

theorem mem_of_mem_halveSpaces (h : c ∈ halveSpaces s) : c ∈ s := by
  induction s using halveSpaces.induct with
  | case1 => exact h
  | case2 d => exact h
  | case3 d e s hpair ih =>
    rw [halveSpaces, if_pos hpair] at h
    rcases List.mem_cons.mp h with rfl | h
    · simp [hpair.1]
    · exact List.mem_cons_of_mem _ (List.mem_cons_of_mem _ (ih h))
  | case4 d e s hpair ih =>
    rw [halveSpaces, if_neg hpair] at h
    rcases List.mem_cons.mp h with rfl | h
    · exact List.mem_cons_self
    · exact List.mem_cons_of_mem _ (ih h)

theorem head?_halveSpaces : (halveSpaces s).head? = s.head? := by
  cases s using halveSpaces.fun_cases_unfolding with
  | case1 => rfl
  | case2 d => rfl
  | case3 d e s hpair => simp [hpair.1]
  | case4 d e s hpair => rfl

theorem getLast?_of_cons {d : Char} (h : (c :: s).getLast? ≠ some d) : s.getLast? ≠ some d := by
  cases s with
  | nil => simp
  | cons e s => rwa [List.getLast?_cons_cons] at h

theorem halveSpaces_append (h : y.head? ≠ some ' ' ∨ x.getLast? ≠ some ' ') :
    halveSpaces (x ++ y) = halveSpaces x ++ halveSpaces y := by
  induction x using halveSpaces.induct with
  | case1 => rfl
  | case2 c =>
    cases y with
    | nil => rfl
    | cons d y =>
      have hpair : ¬ (c = ' ' ∧ d = ' ') := by
        rintro ⟨rfl, rfl⟩
        simp at h
      change halveSpaces (c :: d :: y) = c :: halveSpaces (d :: y)
      rw [halveSpaces, if_neg hpair]
  | case3 c d s hpair ih =>
    rw [List.cons_append, List.cons_append, halveSpaces, halveSpaces, if_pos hpair, if_pos hpair,
      ih (h.imp_right fun h => getLast?_of_cons (getLast?_of_cons h)), List.cons_append]
  | case4 c d s hpair ih =>
    have hh := ih (h.imp_right fun h => getLast?_of_cons h)
    rw [List.cons_append] at hh
    rw [List.cons_append, List.cons_append, halveSpaces, halveSpaces, if_neg hpair, if_neg hpair, hh,
      List.cons_append]

theorem prefix_spaces_iff : [' '] <+: s ↔ s.head? = some ' ' := by
  cases s with
  | nil => simp
  | cons c s => simp [List.cons_prefix_cons, eq_comm]

theorem double_infix_cons : [' ', ' '] <:+: c :: s ↔ (c = ' ' ∧ s.head? = some ' ') ∨ [' ', ' '] <:+: s := by
  rw [List.infix_cons_iff, List.cons_prefix_cons, prefix_spaces_iff, eq_comm]

theorem triple_infix_cons : [' ', ' ', ' '] <:+: c :: s ↔
    (c = ' ' ∧ [' ', ' '] <+: s) ∨ [' ', ' ', ' '] <:+: s := by
  rw [List.infix_cons_iff, List.cons_prefix_cons, eq_comm]

theorem halveSpaces_eq_self (h : ¬ [' ', ' '] <:+: s) : halveSpaces s = s := by
  induction s using halveSpaces.induct with
  | case1 => rfl
  | case2 c => rfl
  | case3 c d s hpair ih =>
    refine absurd (double_infix_cons.mpr (.inl ⟨hpair.1, ?_⟩)) h
    rw [List.head?_cons, hpair.2]
  | case4 c d s hpair ih =>
    rw [halveSpaces, if_neg hpair, ih fun hinfix => h (double_infix_cons.mpr (.inr hinfix))]

/-- Only runs of one or two spaces become one space. -/
theorem double_infix_halveSpaces : [' ', ' '] <:+: halveSpaces s ↔ [' ', ' ', ' '] <:+: s := by
  induction s using halveSpaces.induct with
  | case1 => simp [halveSpaces]
  | case2 c => simp [halveSpaces, double_infix_cons, triple_infix_cons]
  | case3 c d s hpair ih =>
    obtain ⟨rfl, rfl⟩ := hpair
    rw [halveSpaces, if_pos ⟨rfl, rfl⟩, double_infix_cons, head?_halveSpaces, ih, triple_infix_cons,
      triple_infix_cons, List.cons_prefix_cons, prefix_spaces_iff]
    constructor
    · rintro (h | h)
      · exact .inl ⟨rfl, rfl, h.2⟩
      · exact .inr (.inr h)
    · rintro (h | h | h)
      · exact .inl ⟨rfl, h.2.2⟩
      · refine .inl ⟨rfl, ?_⟩
        exact prefix_spaces_iff.mp ((List.prefix_append [' '] [' ']).trans h.2)
      · exact .inr h
  | case4 c d s hpair ih =>
    rw [halveSpaces, if_neg hpair, double_infix_cons, head?_halveSpaces, ih, triple_infix_cons (c := c),
      List.head?_cons, Option.some_inj, List.cons_prefix_cons]
    constructor
    · rintro (h | h)
      · exact absurd h hpair
      · exact .inr h
    · rintro (h | h)
      · exact absurd ⟨h.1, h.2.1.symm⟩ hpair
      · exact .inr h

theorem getLast?_halveSpaces : (halveSpaces s).getLast? = s.getLast? := by
  induction s using halveSpaces.induct with
  | case1 => rfl
  | case2 c => rfl
  | case3 c d s hpair ih =>
    rw [halveSpaces, if_pos hpair, List.getLast?_cons, ih, List.getLast?_cons_cons, List.getLast?_cons, hpair.2]
  | case4 c d s hpair ih => rw [halveSpaces, if_neg hpair, List.getLast?_cons, ih, List.getLast?_cons (a := c)]

end Spaces

structure Trimmed (u : List Char) : Prop where
  head : ∀ c, u.head? = some c → gAsciiIsspace c = false
  last : ∀ c, u.getLast? = some c → gAsciiIsspace c = false

section Trim
variable {s u w₁ w₂ : List Char}

theorem rdropWhile_append_of_forall {p : Char → Bool} (h : ∀ c ∈ w₂, p c = true) :
    (u ++ w₂).rdropWhile p = u.rdropWhile p := by
  simp only [List.rdropWhile, List.reverse_append]
  rw [List.dropWhile_append_of_pos fun c hc => h c (List.mem_reverse.mp hc)]

theorem Trimmed.rdropWhile_eq (h : Trimmed u) : u.rdropWhile gAsciiIsspace = u := by
  rw [List.rdropWhile_eq_self_iff]
  intro hne
  rw [h.last _ (List.getLast?_eq_some_getLast hne)]
  exact Bool.false_ne_true

theorem gStrstrip_padded (w₁ w₂ : List Char) (h : Trimmed u) (h₁ : ∀ c ∈ w₁, gAsciiIsspace c = true)
    (h₂ : ∀ c ∈ w₂, gAsciiIsspace c = true) :
    gStrstrip (w₁ ++ (u ++ w₂)) = u := by
  rw [gStrstrip, List.dropWhile_append_of_pos h₁]
  cases u with
  | nil =>
    rw [List.nil_append, List.dropWhile_eq_nil_iff.mpr h₂]
    rfl
  | cons c u =>
    have hc := h.head c rfl
    rw [List.cons_append, List.dropWhile_cons_of_neg (by simp [hc]), ← List.cons_append,
      rdropWhile_append_of_forall h₂]
    exact h.rdropWhile_eq

theorem gStrstrip_of_trimmed (h : Trimmed u) : gStrstrip u = u := by
  have hh := gStrstrip_padded [] [] h (fun c hc => nomatch hc) fun c hc => nomatch hc
  rwa [List.append_nil] at hh

theorem trimmed_gStrstrip (s : List Char) : Trimmed (gStrstrip s) := by
  constructor
  · intro c hc
    have hprefix : gStrstrip s <+: s.dropWhile gAsciiIsspace := List.rdropWhile_prefix _ _
    have hhead : (s.dropWhile gAsciiIsspace).head? = some c := by
      obtain ⟨t, ht⟩ := hprefix
      rw [← ht, List.head?_append, hc]
      rfl
    have hnot := List.head?_dropWhile_not gAsciiIsspace s
    rw [hhead] at hnot
    simpa using hnot
  · intro c hc
    have hne : gStrstrip s ≠ [] := by
      intro hnil
      rw [hnil] at hc
      cases hc
    have hlast := List.rdropWhile_last_not gAsciiIsspace (s.dropWhile gAsciiIsspace) hne
    rw [List.getLast?_eq_some_getLast hne] at hc
    rw [← Option.some.inj hc]
    exact Bool.eq_false_iff.mpr hlast

theorem gStrstrip_split (s : List Char) : ∃ w₁ w₂, s = w₁ ++ (gStrstrip s ++ w₂) ∧
    (∀ c ∈ w₁, gAsciiIsspace c = true) ∧ ∀ c ∈ w₂, gAsciiIsspace c = true := by
  refine ⟨s.takeWhile gAsciiIsspace, (s.dropWhile gAsciiIsspace).rtakeWhile gAsciiIsspace, ?_, ?_, ?_⟩
  · rw [gStrstrip, List.rdropWhile_append_rtakeWhile, List.takeWhile_append_dropWhile]
  · exact fun c hc => List.mem_takeWhile_imp hc
  · exact fun c hc => List.mem_rtakeWhile_imp hc

theorem Trimmed.halveSpaces (h : Trimmed u) : Trimmed (halveSpaces u) :=
  ⟨fun c hc => h.head c (head?_halveSpaces.symm.trans hc),
    fun c hc => h.last c (getLast?_halveSpaces.symm.trans hc)⟩

/-- White space at the ends and runs of spaces between them do not interfere. -/
theorem gStrstrip_halveSpaces (s : List Char) : gStrstrip (halveSpaces s) = halveSpaces (gStrstrip s) := by
  obtain ⟨w₁, w₂, hsplit, h₁, h₂⟩ := gStrstrip_split s
  have htrim := trimmed_gStrstrip s
  generalize gStrstrip s = u at *
  subst hsplit
  have hwhite {w : List Char} (h : ∀ c ∈ w, gAsciiIsspace c = true) : ∀ c ∈ halveSpaces w, gAsciiIsspace c = true :=
    fun c hc => h c (mem_of_mem_halveSpaces hc)
  cases u with
  | nil =>
    have hall : ∀ c ∈ halveSpaces (w₁ ++ ([] ++ w₂)), gAsciiIsspace c = true := by
      refine hwhite fun c hc => ?_
      rcases List.mem_append.mp hc with hc | hc
      · exact h₁ c hc
      · exact h₂ c hc
    have hh := gStrstrip_padded _ [] htrim hall fun c hc => nomatch hc
    rwa [List.append_nil, List.append_nil] at hh
  | cons c u =>
    have hblank : gAsciiIsspace ' ' = true := by decide
    have hhead : (c :: u ++ w₂).head? ≠ some ' ' := by
      intro hc
      have hh := htrim.head ' ' hc
      rw [hblank] at hh
      cases hh
    have hlast : (c :: u).getLast? ≠ some ' ' := by
      intro hc
      have hh := htrim.last ' ' hc
      rw [hblank] at hh
      cases hh
    rw [halveSpaces_append (.inl hhead), halveSpaces_append (.inr hlast)]
    exact gStrstrip_padded _ _ htrim.halveSpaces (hwhite h₁) (hwhite h₂)

end Trim

section Normal
variable {utf8Strdown : String → String} {s : String} {l : List Char}

def plainText (utf8Strdown : String → String) (s : String) : List Char :=
  ((utf8Strdown (String.ofList (stripBlocks s.toList))).toList.filter fun c => c ∉ invalidChars).map
    fun c => if c = '\t' then ' ' else c

theorem removeInvalid_eq (l : List Char) :
    (gStrdelimit l invalidChars '*').flatMap (fun c => if c = '*' then [] else [c]) =
    l.filter fun c => c ∉ invalidChars := by
  have hstar : '*' ∈ invalidChars := by decide
  induction l with
  | nil => rfl
  | cons c l ih =>
    by_cases hc : c ∈ invalidChars
    · simpa [gStrdelimit, hc] using ih
    · have hne : c ≠ '*' := by
        rintro rfl
        exact hc hstar
      simpa [gStrdelimit, hc, hne] using ih

theorem stripCharacters_eq (utf8Strdown : String → String) (s : String) :
    stripCharacters utf8Strdown s = String.ofList (halveSpaces (gStrstrip (plainText utf8Strdown s))) := by
  have hblanks (l : List Char) : l.flatMap (fun c => if c = ' ' then [' '] else [c]) = l := by
    have heq : (fun c : Char => if c = ' ' then [' '] else [c]) = fun c => [c] := by
      funext c
      split_ifs with hc
      · rw [hc]
      · rfl
    rw [heq, List.flatMap_singleton']
  have htabs (l : List Char) : gStrdelimit l ['\t'] ' ' = l.map fun c => if c = '\t' then ' ' else c := by
    simp [gStrdelimit]
  rw [stripCharacters, joinSplit_eq _ _ _ (by simp), joinSplit_eq _ _ _ (by simp), joinSplit_eq _ _ _ (by simp),
    replaceTokens_singleton '*' le_rfl, removeInvalid_eq, replaceTokens_singleton ' ' le_rfl, hblanks, htabs,
    replaceTokens_spaces le_rfl, gStrstrip_halveSpaces, plainText]

structure NormalForm (l : List Char) : Prop where
  noInvalid : ∀ c ∈ l, c ∉ invalidChars
  noTab : '\t' ∉ l
  noDouble : ¬ [' ', ' '] <:+: l
  trimmed : Trimmed l

def IsLower (utf8Strdown : String → String) (c : Char) : Prop :=
  utf8Strdown (String.ofList [c]) = String.ofList [c]

/-- Of the conversion to lower case: it leaves no other letters, and a text
without other letters as it is. -/
structure LowerCase (utf8Strdown : String → String) : Prop where
  blank : IsLower utf8Strdown ' '
  lower : ∀ s, ∀ c ∈ (utf8Strdown s).toList, IsLower utf8Strdown c
  fixed : ∀ s, (∀ c ∈ s.toList, IsLower utf8Strdown c) → utf8Strdown s = s

theorem stripFindNextBlock_eq_none {openChar closeChar : Char} (h : openChar ∉ l) :
    stripFindNextBlock l openChar closeChar = none := by
  have hfind : l.findIdx? (· == openChar) = none := by
    rw [List.findIdx?_eq_none_iff]
    intro c hc
    rw [beq_eq_false_iff_ne]
    rintro rfl
    exact h hc
  rw [stripFindNextBlock, hfind]

theorem stripBlocks_eq_self (h : ∀ b ∈ blocks, b.1 ∉ l) : stripBlocks l = l := by
  have hnone : earliestBlock l = none := by
    have hblock (b : Char × Char) (hb : b ∈ blocks) : stripFindNextBlock l b.1 b.2 = none :=
      stripFindNextBlock_eq_none (h b hb)
    simp only [earliestBlock, blocks, List.foldl_cons, List.foldl_nil]
    simp [hblock ('(', ')') (by decide), hblock ('{', '}') (by decide), hblock ('[', ']') (by decide),
      hblock ('<', '>') (by decide)]
  rw [stripBlocks]
  split
  · rfl
  · next hsome =>
    rw [hnone] at hsome
    cases hsome

theorem stripBlocks_of_noInvalid (h : ∀ c ∈ l, c ∉ invalidChars) : stripBlocks l = l := by
  have hopen : ∀ b ∈ blocks, b.1 ∈ invalidChars := by decide
  exact stripBlocks_eq_self fun b hb hmem => h b.1 hmem (hopen b hb)

theorem noInvalid_of_all (h : l.all (fun c => decide (c ∉ invalidChars)) = true) : ∀ c ∈ l, c ∉ invalidChars := by
  intro c hc
  exact of_decide_eq_true (List.all_eq_true.mp h c hc)

theorem mem_plainText (hlower : LowerCase utf8Strdown) {c : Char} (hc : c ∈ plainText utf8Strdown s) :
    c ∉ invalidChars ∧ c ≠ '\t' ∧ IsLower utf8Strdown c := by
  obtain ⟨d, hd, rfl⟩ := List.mem_map.mp hc
  obtain ⟨hmem, hinvalid⟩ := List.mem_filter.mp hd
  split_ifs with htab
  · exact ⟨by decide, by decide, hlower.blank⟩
  · exact ⟨of_decide_eq_true hinvalid, htab, hlower.lower _ d hmem⟩

theorem mem_of_mem_gStrstrip {c : Char} (hc : c ∈ gStrstrip l) : c ∈ l :=
  (List.dropWhile_suffix _).subset ((List.rdropWhile_prefix _ _).subset hc)

theorem mem_stripCharacters (hlower : LowerCase utf8Strdown) {c : Char}
    (hc : c ∈ (stripCharacters utf8Strdown s).toList) :
    c ∉ invalidChars ∧ c ≠ '\t' ∧ IsLower utf8Strdown c := by
  rw [stripCharacters_eq, String.toList_ofList] at hc
  exact mem_plainText hlower (mem_of_mem_gStrstrip (mem_of_mem_halveSpaces hc))

/-- No pass finds anything to do in a normal form. -/
theorem stripCharacters_of_normal (hlower : ∀ c ∈ s.toList, IsLower utf8Strdown c) (hfixed : LowerCase utf8Strdown)
    (h : NormalForm s.toList) : stripCharacters utf8Strdown s = s := by
  have hplain : plainText utf8Strdown s = s.toList := by
    rw [plainText, stripBlocks_of_noInvalid h.noInvalid, String.ofList_toList, hfixed.fixed s hlower]
    have hfilter : (s.toList.filter fun c => c ∉ invalidChars) = s.toList :=
      List.filter_eq_self.mpr fun c hc => decide_eq_true (h.noInvalid c hc)
    rw [hfilter]
    have hmap : ∀ c ∈ s.toList, (if c = '\t' then ' ' else c) = c := by
      intro c hc
      rw [if_neg]
      rintro rfl
      exact h.noTab hc
    exact (List.map_congr_left hmap).trans (List.map_id' _)
  rw [stripCharacters_eq, hplain, gStrstrip_of_trimmed h.trimmed, halveSpaces_eq_self h.noDouble,
    String.ofList_toList]

theorem normalForm_iff (hlower : LowerCase utf8Strdown) (s : String) :
    NormalForm (stripCharacters utf8Strdown s).toList ↔
    ¬ [' ', ' ', ' '] <:+: gStrstrip (plainText utf8Strdown s) := by
  have hdouble := double_infix_halveSpaces (s := gStrstrip (plainText utf8Strdown s))
  constructor
  · intro h
    have hno := h.noDouble
    rwa [stripCharacters_eq, String.toList_ofList, hdouble] at hno
  · intro h
    refine ⟨fun c hc => (mem_stripCharacters hlower hc).1,
      fun hc => (mem_stripCharacters hlower hc).2.1 rfl, ?_, ?_⟩
    · rw [stripCharacters_eq, String.toList_ofList, hdouble]
      exact h
    · rw [stripCharacters_eq, String.toList_ofList]
      exact (trimmed_gStrstrip _).halveSpaces

/-- Double spaces are removed in one pass, which halves a longer run. -/
theorem stripCharacters_normal_iff (utf8Strdown : String → String) (hlower : LowerCase utf8Strdown) (s : String) :
    (NormalForm (stripCharacters utf8Strdown s).toList ∧
        stripCharacters utf8Strdown (stripCharacters utf8Strdown s) = stripCharacters utf8Strdown s) ↔
      ¬ [' ', ' ', ' '] <:+: gStrstrip (plainText utf8Strdown s) := by
  rw [← normalForm_iff hlower]
  refine and_iff_left_of_imp fun h => ?_
  exact stripCharacters_of_normal (fun c hc => (mem_stripCharacters hlower hc).2.2) hlower h

def asciiStrdown (s : String) : String := String.ofList (s.toList.map Char.toLower)

theorem asciiStrdown_lowerCase : LowerCase asciiStrdown where
  blank := by
    rw [IsLower]
    decide
  lower s c hc := by
    rw [asciiStrdown, String.toList_ofList] at hc
    obtain ⟨d, _, rfl⟩ := List.mem_map.mp hc
    simp [IsLower, asciiStrdown]
  fixed s h := by
    have hfixed : ∀ c ∈ s.toList, c.toLower = c := fun c hc => by
      have hc := String.ofList_injective (h c hc)
      simpa using hc
    rw [asciiStrdown, List.map_congr_left hfixed, List.map_id', String.ofList_toList]

theorem stripCharacters_three_spaces : ¬ ∀ (utf8Strdown : String → String) (s : String), LowerCase utf8Strdown →
    NormalForm (stripCharacters utf8Strdown s).toList ∧
      stripCharacters utf8Strdown (stripCharacters utf8Strdown s) = stripCharacters utf8Strdown s := by
  intro h
  have hplain : plainText asciiStrdown "a   b" = "a   b".toList := by
    rw [plainText, stripBlocks_of_noInvalid (noInvalid_of_all (by decide))]
    decide
  have hh := (normalForm_iff asciiStrdown_lowerCase "a   b").mp (h asciiStrdown "a   b" asciiStrdown_lowerCase).1
  rw [hplain] at hh
  exact hh (by decide)

theorem stripCharacters_two_spaces : NormalForm (stripCharacters asciiStrdown "a  b").toList ∧
    stripCharacters asciiStrdown (stripCharacters asciiStrdown "a  b") = stripCharacters asciiStrdown "a  b" := by
  refine (stripCharacters_normal_iff asciiStrdown asciiStrdown_lowerCase "a  b").mpr ?_
  have hplain : plainText asciiStrdown "a  b" = "a  b".toList := by
    rw [plainText, stripBlocks_of_noInvalid (noInvalid_of_all (by decide))]
    decide
  rw [hplain]
  decide

end Normal

end HildonThumbnail
