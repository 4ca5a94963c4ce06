import Mathlib.Data.List.Infix

/-! Pieces of SQL as SQLite documents them: string literals, the LIKE operator
and the comparison of values to which no affinity is applied. -/

namespace Sql

def apostrophe : Char := Char.ofNat 39

/-- The content of a literal and what follows it, from behind its opening
apostrophe. Two apostrophes stand for one; a single one closes. -/
def scanLiteral : List Char → Option (List Char × List Char)
  | [] => none
  | c :: cs =>
    if c = apostrophe then
      match cs with
      | [] => some ([], [])
      | d :: ds =>
        if d = apostrophe then (scanLiteral ds).map fun r => (apostrophe :: r.1, r.2) else some ([], d :: ds)
    else (scanLiteral cs).map fun r => (c :: r.1, r.2)

/-- The text that these characters stand for inside a literal, unless one of
them closes it. -/
def unquote : List Char → Option (List Char)
  | [] => some []
  | c :: cs =>
    if c = apostrophe then
      match cs with
      | [] => none
      | d :: ds => if d = apostrophe then (unquote ds).map (apostrophe :: ·) else none
    else (unquote cs).map (c :: ·)

/-- `pattern LIKE text` without ESCAPE: letters of ASCII match in either case. -/
def like : List Char → List Char → Bool
  | [], text => text.isEmpty
  | c :: pattern, text =>
    if c = '%' then text.tails.any fun rest => like pattern rest
    else
      match text with
      | [] => false
      | d :: text => (c = '_' || c.toLower = d.toLower) && like pattern text

inductive Value
  | integer (n : Int)
  | text (s : String)

/-- `a <= b` of values as they are stored: a number is less than any text. -/
def Value.le : Value → Value → Bool
  | .integer a, .integer b => a ≤ b
  | .integer _, .text _ => true
  | .text _, .integer _ => false
  | .text s, .text t => s ≤ t

section Literals
variable {p q rest : List Char} {c d : Char}

theorem scanLiteral_cons (hc : c ≠ apostrophe) :
    scanLiteral (c :: p) = (scanLiteral p).map fun r => (c :: r.1, r.2) := by
  rw [scanLiteral.eq_def]
  exact if_neg hc

theorem unquote_cons (hc : c ≠ apostrophe) : unquote (c :: p) = (unquote p).map (c :: ·) := by
  rw [unquote.eq_def]
  exact if_neg hc

theorem unquote_pair (h : unquote (apostrophe :: apostrophe :: p) = some q) :
    ∃ q', unquote p = some q' ∧ apostrophe :: q' = q := by
  simpa [unquote] using h

/-- A well-formed content is read up to the apostrophe that closes it. -/
theorem scanLiteral_unquote (h : unquote p = some q) (hrest : rest.head? ≠ some apostrophe) :
    scanLiteral (p ++ apostrophe :: rest) = some (q, rest) := by
  induction p using unquote.induct generalizing q with
  | case1 =>
    obtain rfl := Option.some.inj h
    cases rest with
    | nil => simp [scanLiteral]
    | cons d ds => simpa [scanLiteral] using hrest
  | case2 => simp [unquote] at h
  | case3 ds ih =>
    obtain ⟨q, hq, rfl⟩ := unquote_pair h
    simp [scanLiteral, ih hq]
  | case4 d ds hd => simp [unquote, hd] at h
  | case5 c cs hc ih =>
    rw [unquote_cons hc] at h
    obtain ⟨q, hq, rfl⟩ := Option.map_eq_some_iff.mp h
    simp [scanLiteral_cons hc, ih hq]

/-- Any other content is closed before its end. -/
theorem scanLiteral_closed (h : unquote p = none) (hc : c ≠ apostrophe) :
    ∃ x y, scanLiteral (p ++ c :: rest) = some (x, y ++ c :: rest) := by
  induction p using unquote.induct with
  | case1 => simp [unquote] at h
  | case2 => exact ⟨[], [], by simp [scanLiteral, hc]⟩
  | case3 ds ih =>
    obtain ⟨x, y, hr⟩ := ih (by simpa [unquote] using h)
    exact ⟨apostrophe :: x, y, by simp [scanLiteral, hr]⟩
  | case4 d ds hd => exact ⟨[], d :: ds, by simp [scanLiteral, hd]⟩
  | case5 d ds hd ih =>
    obtain ⟨x, y, hr⟩ := ih (by simpa [unquote_cons hd] using h)
    exact ⟨d :: x, y, by simp [scanLiteral_cons hd, hr]⟩

theorem unquote_concat (hc : c ≠ apostrophe) : unquote (p ++ [c]) = (unquote p).map (· ++ [c]) := by
  induction p using unquote.induct with
  | case1 => simp [unquote, hc]
  | case2 => simp [unquote, hc]
  | case3 ds ih => simp [unquote, ih, Function.comp_def]
  | case4 d ds hd => simp [unquote, hd]
  | case5 d ds hd ih => simp [unquote_cons hd, ih, Function.comp_def]

theorem unquote_of_forall_ne (h : ∀ c ∈ p, c ≠ apostrophe) : unquote p = some p := by
  induction p with
  | nil => rfl
  | cons c p ih =>
    obtain ⟨hc, hp⟩ := List.forall_mem_cons.mp h
    rw [unquote_cons hc, ih hp, Option.map_some]

/-- A single apostrophe before another character closes the literal. -/
theorem unquote_single (h : ∀ c ∈ p, c ≠ apostrophe) (hd : d ≠ apostrophe) :
    unquote (p ++ apostrophe :: d :: rest) = none := by
  induction p with
  | nil => simp [unquote, hd]
  | cons c p ih =>
    obtain ⟨hc, hp⟩ := List.forall_mem_cons.mp h
    rw [List.cons_append, unquote_cons hc, ih hp, Option.map_none]

theorem scanLiteral_eq_none (h : apostrophe ∉ p) : scanLiteral p = none := by
  induction p with
  | nil => rfl
  | cons c p ih =>
    have hc : c ≠ apostrophe := (List.ne_of_not_mem_cons h).symm
    rw [scanLiteral_cons hc, ih (List.not_mem_of_not_mem_cons h), Option.map_none]

/-- An apostrophe after such a content does not close the literal: if it is closed
at all, what follows still has that apostrophe. -/
theorem scanLiteral_unclosed (h : unquote p = none) (hrest : apostrophe ∉ rest) {r : List Char × List Char}
    (hr : scanLiteral (p ++ apostrophe :: rest) = some r) : ∃ y, r.2 = y ++ apostrophe :: rest := by
  induction p using unquote.induct generalizing r with
  | case1 => simp [unquote] at h
  | case2 => simp [scanLiteral, scanLiteral_eq_none hrest] at hr
  | case3 ds ih =>
    obtain ⟨r', hr', rfl⟩ : ∃ r', scanLiteral (ds ++ apostrophe :: rest) = some r' ∧
      (apostrophe :: r'.1, r'.2) = r := by
      simpa [scanLiteral] using hr
    obtain ⟨y, hy⟩ := ih (by simpa [unquote] using h) hr'
    exact ⟨y, hy⟩
  | case4 d ds hd =>
    obtain rfl : ([], d :: ds ++ apostrophe :: rest) = r := by simpa [scanLiteral, hd] using hr
    exact ⟨d :: ds, rfl⟩
  | case5 c cs hc ih =>
    rw [List.cons_append, scanLiteral_cons hc] at hr
    obtain ⟨r', hr', rfl⟩ := Option.map_eq_some_iff.mp hr
    obtain ⟨y, hy⟩ := ih (by simpa [unquote_cons hc] using h) hr'
    exact ⟨y, hy⟩

def quote (q : List Char) : List Char := q.flatMap fun c => if c = apostrophe then [apostrophe, apostrophe] else [c]

theorem eq_quote (h : unquote p = some q) : p = quote q := by
  induction p using unquote.induct generalizing q with
  | case1 =>
    obtain rfl := Option.some.inj h
    rfl
  | case2 => simp [unquote] at h
  | case3 ds ih =>
    obtain ⟨q, hq, rfl⟩ := unquote_pair h
    rw [ih hq]
    simp [quote]
  | case4 d ds hd => simp [unquote, hd] at h
  | case5 c cs hc ih =>
    rw [unquote_cons hc] at h
    obtain ⟨q, hq, rfl⟩ := Option.map_eq_some_iff.mp h
    rw [ih hq]
    simp [quote, hc]

theorem length_quote (q : List Char) : (quote q).length = q.length + q.count apostrophe := by
  induction q with
  | nil => rfl
  | cons c q ih =>
    rw [quote, List.flatMap_cons, List.length_append]
    rw [quote] at ih
    by_cases hc : c = apostrophe
    · subst hc
      simp [ih]
      omega
    · simp [hc, ih]
      omega

/-- A text is read back as it was put in just if it has no apostrophe. -/
theorem unquote_eq_self_iff : unquote p = some p ↔ apostrophe ∉ p := by
  constructor
  · intro h
    have hlength := congrArg List.length (eq_quote h)
    rw [length_quote] at hlength
    exact List.count_eq_zero.mp (by omega)
  · intro h
    exact unquote_of_forall_ne fun c hc heq => h (heq ▸ hc)

/-- Where a single apostrophe stands before other text, a literal ends there at
the latest. -/
theorem scanLiteral_rest_ne_nil (hc : c ≠ apostrophe) (hd : d ≠ apostrophe) {r : List Char × List Char}
    (h : scanLiteral (p ++ c :: apostrophe :: d :: rest) = some r) : r.2 ≠ [] := by
  cases hp : unquote p with
  | none =>
    obtain ⟨x, y, hr⟩ : ∃ x y, scanLiteral (p ++ c :: apostrophe :: d :: rest) =
        some (x, y ++ c :: apostrophe :: d :: rest) := scanLiteral_closed hp hc
    rw [hr] at h
    obtain rfl := Option.some.inj h
    simp
  | some q =>
    have hq : unquote (p ++ [c]) = some (q ++ [c]) := by rw [unquote_concat hc, hp, Option.map_some]
    have hr : scanLiteral ((p ++ [c]) ++ apostrophe :: d :: rest) = some (q ++ [c], d :: rest) :=
      scanLiteral_unquote hq (by simpa using hd)
    rw [List.append_assoc, List.singleton_append] at hr
    rw [hr] at h
    obtain rfl := Option.some.inj h
    simp

end Literals

/-- A pattern without wildcards before a last `%`: the text begins with it, up
to the case of ASCII letters. -/
theorem like_beginning {pattern text : List Char} (h : ∀ c ∈ pattern, c ≠ '%' ∧ c ≠ '_') :
    like (pattern ++ ['%']) text = true ↔ pattern.map Char.toLower <+: text.map Char.toLower := by
  induction pattern generalizing text with
  | nil => simp [like]
  | cons c pattern ih =>
    obtain ⟨⟨hpercent, hunderscore⟩, hrest⟩ := List.forall_mem_cons.mp h
    cases text with
    | nil => simp [like, hpercent]
    | cons d text => simp [like, hpercent, hunderscore, ih hrest, List.cons_prefix_cons]

end Sql
