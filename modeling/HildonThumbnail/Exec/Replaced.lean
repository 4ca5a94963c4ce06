import HildonThumbnail.Exec.StringReplace
import HildonThumbnail.Lib.Writes
import Mathlib.Algebra.Order.BigOperators.Group.List
import Mathlib.Algebra.Order.Group.Nat
import Mathlib.Data.List.Perm.Subperm

/-! What becomes of a template of placeholders and plain characters. The room
for the result is counted once for each value, whatever the template says. -/

namespace HildonThumbnail

inductive Placeholder
  | uri
  | large
  | normal
  | cropped
  | mime
  | mimeAt
  | mtime
  | docrop
deriving DecidableEq

def Placeholder.name : Placeholder → List Char
  | uri => "uri".toList
  | large => "large".toList
  | normal => "normal".toList
  | cropped => "cropped".toList
  | mime => "mime".toList
  | mimeAt => "mime_at".toList
  | mtime => "mtime".toList
  | docrop => "docrop".toList

def ExecArgs.value (a : ExecArgs) : Placeholder → CString
  | .uri => a.uri
  | .large => a.large
  | .normal => a.normal
  | .cropped => a.cropped
  | .mime => a.mimeType
  | .mimeAt => a.mimeTypeAt
  | .mtime => printfU a.mtime
  | .docrop => if a.cropping then yes else no

inductive Piece
  | text (c : Char) (plain : c ≠ '{' ∧ c ≠ '}' ∧ c ≠ nul)
  | place (p : Placeholder)

namespace Piece

def chars : Piece → List Char
  | text c _ => [c]
  | place p => '{' :: p.name ++ ['}']

def value (a : ExecArgs) : Piece → CString
  | text c plain => ⟨[c], by simpa using plain.2.2.symm⟩
  | place p => a.value p

end Piece

def spell (ps : List Piece) : List Char := ps.flatMap Piece.chars

/-- The template with each placeholder replaced by its value. -/
def intended (a : ExecArgs) (ps : List Piece) : List Char := ps.flatMap fun p => (p.value a).chars

theorem Placeholder.nul_notMem (p : Placeholder) : nul ∉ p.name := by cases p <;> decide

theorem Placeholder.brace_notMem (p : Placeholder) : '}' ∉ p.name := by cases p <;> decide

theorem Placeholder.length_name (p : Placeholder) : p.name.length ≤ 7 := by cases p <;> decide

theorem Piece.nul_notMem (p : Piece) : nul ∉ p.chars := by
  cases p with
  | text c plain => simpa [chars] using plain.2.2.symm
  | place p =>
    have hopen : nul ≠ '{' := by decide
    have hclose : nul ≠ '}' := by decide
    simp [chars, hopen, hclose, p.nul_notMem]

def template (ps : List Piece) : CString where
  chars := spell ps
  nul_notMem h := by
    obtain ⟨p, -, hp⟩ := List.mem_flatMap.mp h
    exact p.nul_notMem hp

@[simp] theorem template_chars (ps : List Piece) : (template ps).chars = spell ps := rfl

@[simp] theorem spell_append (ps qs : List Piece) : spell (ps ++ qs) = spell ps ++ spell qs := List.flatMap_append

@[simp] theorem spell_cons (p : Piece) (ps : List Piece) : spell (p :: ps) = p.chars ++ spell ps :=
  List.flatMap_cons

@[simp] theorem intended_append (a : ExecArgs) (ps qs : List Piece) :
    intended a (ps ++ qs) = intended a ps ++ intended a qs := List.flatMap_append

@[simp] theorem intended_cons (a : ExecArgs) (p : Piece) (ps : List Piece) :
    intended a (p :: ps) = (p.value a).chars ++ intended a ps := List.flatMap_cons

/-- The few letters that are tested tell the placeholders apart. -/
theorem chosen_name (a : ExecArgs) (p : Placeholder) : a.chosen p.name = [a.value p] := by
  obtain ⟨uri, large, normal, cropped, mimeType, mimeTypeAt, cropping, mtime⟩ := a
  cases p <;> cases cropping <;> rfl

section
variable {in_ : CString} {after name : List Char} {beyond : Nat → Char} {c : Char}

theorem memoryAt_eq {before : List Char} {z : UInt32} (h : in_.chars = before ++ c :: after)
    (hz : z.toNat = before.length) :
    memoryAt in_ beyond z = c := by
  simp [memoryAt, h, hz, List.getD_eq_getElem?_getD]

theorem scanBrace_name (beyond : Nat → Char) (stop : UInt32) (before : List Char) (z : UInt32) (turns : Nat)
    (h : in_.chars = before ++ (name ++ '}' :: after)) (hz : z.toNat = before.length)
    (hname : '}' ∉ name) (hturns : name.length < turns) (hstop : z.toNat + name.length < stop.toNat) :
    ∃ e, scanBrace (memoryAt in_ beyond) stop turns z = some (e, name) ∧ e.toNat = z.toNat + name.length := by
  induction name generalizing before z turns with
  | nil =>
    obtain ⟨turns, rfl⟩ : ∃ n, turns = n + 1 := ⟨turns - 1, by simp at hturns; omega⟩
    have hlt : z < stop := UInt32.lt_iff_toNat_lt.mpr (by simpa using hstop)
    exact ⟨z, by simp [scanBrace, hlt, memoryAt_eq h hz], rfl⟩
  | cons c name ih =>
    obtain ⟨turns, rfl⟩ : ∃ n, turns = n + 1 := ⟨turns - 1, by simp at hturns; omega⟩
    rw [List.length_cons] at hturns hstop
    have hlt : z < stop := UInt32.lt_iff_toNat_lt.mpr (by omega)
    have hsucc := toNat_succ_of_lt hlt
    have hc : c ≠ '}' := fun hc => hname (hc ▸ List.mem_cons_self)
    have hmem : memoryAt in_ beyond z = c := memoryAt_eq h hz
    obtain ⟨e, hscan, he⟩ := ih (before ++ [c]) (z + 1) turns (by simp [h]) (by simp [hsucc, hz])
      (fun hmem => hname (List.mem_cons_of_mem _ hmem)) (by omega) (by omega)
    refine ⟨e, by simp [scanBrace, hlt, hmem, hc, hscan], ?_⟩
    rw [he, hsucc, List.length_cons]
    omega

end

/-- What the loop writes for the pieces that are left. -/
def substituted (a : ExecArgs) (inLen bound : UInt32) : Nat → UInt32 → List Piece → List (Nat × List Char)
  | _, _, [] => []
  | i, off, p :: ps =>
    if i < inLen.toNat ∧ off < bound then
      (off.toNat, (p.value a).chars.take (p.value a).strlen.toNat) ::
        substituted a inLen bound (i + p.chars.length) (off + (p.value a).strlen) ps
    else []

/-- No placeholder that the loop comes to begins so far behind that the end of
the scan for its closing brace wraps. -/
def Scanned (ps : List Piece) : Prop :=
  ∀ pre p post, ps = pre ++ .place p :: post → (spell pre).length < (template ps).strlen.toNat →
    (spell pre).length + 11 < 2 ^ 32

section
variable {in_ : CString} {before after : List Char} {inLen total : UInt32} {a : ExecArgs}
  {s : Substitution} {p : Piece} {ps : List Piece}

theorem substitutionStep_piece (beyond : Nat → Char) (h : in_.chars = before ++ (p.chars ++ after))
    (hi : s.i.toNat = before.length) (hguard : s.i < inLen ∧ s.off < total + 1)
    (hscanned : ∀ q, p = .place q → before.length + 11 < 2 ^ 32) :
    ∃ i, substitutionStep (memoryAt in_ beyond) inLen total a s = some { s.memcpy (p.value a) with i := i } ∧
      i.toNat = before.length + p.chars.length := by
  have hsucc := toNat_succ_of_lt hguard.1
  cases p with
  | text c plain =>
    have hmem : memoryAt in_ beyond s.i = c := memoryAt_eq h hi
    have hstep := substitutionStep_text (a := a) hguard (hmem ▸ plain.1)
    rw [hmem] at hstep
    exact ⟨s.i + 1, hstep, by rw [hsucc, hi]; rfl⟩
  | place q =>
    have hmem : memoryAt in_ beyond s.i = '{' := memoryAt_eq h hi
    have hin : in_.chars = (before ++ ['{']) ++ (q.name ++ '}' :: after) := by simp [h, Piece.chars]
    have hname := q.length_name
    have hwrap := hscanned q rfl
    have hstop : (s.i + 1 + 10).toNat = ((s.i + 1).toNat + 10) % 2 ^ 32 := UInt32.toNat_add _ 10
    obtain ⟨z, hscan, hz⟩ := scanBrace_name beyond (s.i + 1 + 10) (before ++ ['{']) (s.i + 1) 10
      hin (by simp [hsucc, hi]) q.brace_notMem (by omega) (by omega)
    have hstep := substitutionStep_place (a := a) hguard hmem hscan
    rw [chosen_name] at hstep
    refine ⟨z + 1, hstep, ?_⟩
    have hz' := toNat_succ_of_lt (scanBrace_place hscan).2
    simp only [hz', hz, hsucc, hi, Piece.chars, List.length_append, List.length_cons, List.length_nil]
    omega

theorem substitution_endsIn (beyond : Nat → Char) (hscanned : Scanned ps) (pre post : List Piece)
    (hps : ps = pre ++ post) (hi : s.i.toNat = (spell pre).length) :
    ∃ t, WhileLoop.EndsIn (substitutionStep (memoryAt (template ps) beyond) (template ps).strlen total a) s t ∧
      t.writes = s.writes ++ substituted a (template ps).strlen (total + 1) s.i.toNat s.off post := by
  induction post generalizing pre s with
  | nil =>
    have hend : ¬ (s.i < (template ps).strlen ∧ s.off < total + 1) := by
      rintro ⟨hlt, -⟩
      rw [UInt32.lt_iff_toNat_lt, hi, CString.strlen, UInt32.toNat_ofNat'] at hlt
      have hle := Nat.mod_le (template ps).chars.length (2 ^ 32)
      simp only [template_chars, hps, List.append_nil] at hlt hle
      omega
    exact ⟨s, (WhileLoop.endsIn_of_none (substitutionStep_stop hend)).mpr rfl, by simp [substituted]⟩
  | cons p post ih =>
    by_cases hguard : s.i < (template ps).strlen ∧ s.off < total + 1
    · have hlt := UInt32.lt_iff_toNat_lt.mp hguard.1
      have hin : (template ps).chars = spell pre ++ (p.chars ++ spell post) := by simp [hps]
      obtain ⟨i, hstep, hnext⟩ := substitutionStep_piece (a := a) beyond hin hi hguard
        fun q hq => hscanned pre q post (by rw [hps, hq]) (hi ▸ hlt)
      obtain ⟨t, hends, hwrites⟩ := ih (s := { s.memcpy (p.value a) with i := i }) (pre ++ [p]) (by simp [hps])
        (by simp [hnext, spell])
      refine ⟨t, (WhileLoop.endsIn_of_some hstep).mpr hends, ?_⟩
      have hguard' : s.i.toNat < (template ps).strlen.toNat ∧ s.off < total + 1 := ⟨hlt, hguard.2⟩
      rw [hwrites, substituted, if_pos hguard', hi, ← hnext]
      simp [Substitution.memcpy]
    · have hguard' : ¬ (s.i.toNat < (template ps).strlen.toNat ∧ s.off < total + 1) := by
        rwa [← UInt32.lt_iff_toNat_lt]
      refine ⟨s, (WhileLoop.endsIn_of_none (substitutionStep_stop hguard)).mpr rfl, ?_⟩
      rw [substituted, if_neg hguard', List.append_nil]

end

section
variable {a : ExecArgs} {ps pre post : List Piece} {p : Piece} {off inLen bound : UInt32} {i : Nat}
  {ws : List (Nat × List Char)}

/-- After these pieces the block holds what is meant, and `off` is where it ends. -/
structure Tracks (a : ExecArgs) (pre : List Piece) (off : UInt32) (ws : List (Nat × List Char)) : Prop where
  off_eq : off.toNat = (intended a pre).length % 2 ^ 32
  holds : BlockWrites.Holds nul (BlockWrites.contents nul ws) (intended a pre)

theorem tracks_nil (a : ExecArgs) : Tracks a [] 0 [] := ⟨rfl, BlockWrites.holds_contents_nil⟩

theorem CString.toNat_strlen (s : CString) : s.strlen.toNat = s.chars.length % 2 ^ 32 := UInt32.toNat_ofNat'

theorem Tracks.put (h : Tracks a pre off ws)
    (hwhole : (p.value a).chars = [] ∨ (intended a pre).length < 2 ^ 32 ∧ (p.value a).chars.length < 2 ^ 32) :
    Tracks a (pre ++ [p]) (off + (p.value a).strlen)
      (ws ++ [(off.toNat, (p.value a).chars.take (p.value a).strlen.toNat)]) := by
  have hintended : intended a (pre ++ [p]) = intended a pre ++ (p.value a).chars := by simp [intended]
  have hlen := (p.value a).toNat_strlen
  constructor
  · rw [UInt32.toNat_add, hlen, h.off_eq, hintended, List.length_append]
    omega
  · rw [BlockWrites.contents_concat, hintended]
    rcases hwhole with hnil | ⟨hoff, hvalue⟩
    · rw [hnil, List.take_nil, List.append_nil]
      exact h.holds.write_nil _
    · have hplace : off.toNat = (intended a pre).length := by rw [h.off_eq, Nat.mod_eq_of_lt hoff]
      rw [hplace, hlen, Nat.mod_eq_of_lt hvalue, List.take_length]
      exact h.holds.write _

theorem Tracks.zero_of_le (h : Tracks a pre off ws) {k : Nat} (hk : (intended a pre).length ≤ k) :
    BlockWrites.contents nul ws k = nul := by
  rw [h.holds k, List.getD_eq_default _ _ hk]

/-- How far the writes of some pieces can reach. -/
def reach (a : ExecArgs) (ps : List Piece) : Nat := (ps.map fun p => (p.value a).strlen.toNat).sum

theorem reach_le (a : ExecArgs) (ps : List Piece) : reach a ps ≤ (intended a ps).length := by
  induction ps with
  | nil => exact Nat.zero_le _
  | cons p ps ih =>
    have hlen := (p.value a).toNat_strlen
    have hmod := Nat.mod_le (p.value a).chars.length (2 ^ 32)
    simp only [reach, List.map_cons, List.sum_cons, intended_cons, List.length_append] at ih ⊢
    omega

theorem reach_cons_le (a : ExecArgs) (p : Piece) (ps : List Piece) :
    reach a (p :: ps) ≤ (p.value a).chars.length % 2 ^ 32 + (intended a ps).length := by
  have hle := reach_le a ps
  have hlen := (p.value a).toNat_strlen
  simp only [reach, List.map_cons, List.sum_cons] at hle ⊢
  omega

/-- What lies behind is left alone, even if `off` wraps. -/
theorem contents_substituted_of_le {k : Nat} (hk : off.toNat + reach a ps ≤ k) :
    BlockWrites.contents nul (ws ++ substituted a inLen bound i off ps) k = BlockWrites.contents nul ws k := by
  induction ps generalizing i off ws with
  | nil => rw [substituted, List.append_nil]
  | cons p ps ih =>
    rw [substituted]
    split
    · have hadd : (off + (p.value a).strlen).toNat = (off.toNat + (p.value a).strlen.toNat) % 2 ^ 32 :=
        UInt32.toNat_add _ _
      have hmod := Nat.mod_le (off.toNat + (p.value a).strlen.toNat) (2 ^ 32)
      have htake := List.length_take_le (p.value a).strlen.toNat (p.value a).chars
      simp only [reach, List.map_cons, List.sum_cons] at hk ih
      rw [List.append_cons, ih (by omega), BlockWrites.contents_concat,
        BlockWrites.write_of_le (by simp only; omega)]
    · rw [List.append_nil]

end

def Buffer.cells (b : Buffer) : List Char := (List.range b.size).map (BlockWrites.contents nul b.writes)

/-- The run ends without a write outside of the block, which then begins with
the intended text and a NUL. -/
def Replaced (a : ExecArgs) (ps : List Piece) (beyond : Nat → Char) : Prop :=
  ∃ fuel b, stringReplace fuel (template ps) a beyond = some b ∧ BlockWrites.Within b.size b.writes ∧
    ∃ rest, b.cells = intended a ps ++ nul :: rest

/-- Whatever is not empty begins below `in_len` and below the room that was
counted, and the whole result ends before the block does. -/
structure HasRoom (a : ExecArgs) (ps : List Piece) : Prop where
  scanned : Scanned ps
  begins : ∀ pre p post, ps = pre ++ p :: post → (p.value a).chars ≠ [] →
    (spell pre).length < (template ps).strlen.toNat ∧
      (intended a pre).length < (a.room (template ps) + 1).toNat ∧ (p.value a).chars.length < 2 ^ 32
  ends : (intended a ps).length < (a.room (template ps)).toNat + 5

section
variable {a : ExecArgs} {ps pre post : List Piece} {p : Piece} {off : UInt32} {ws : List (Nat × List Char)}

theorem HasRoom.intended_of_stop (h : HasRoom a ps) (hps : ps = pre ++ post)
    (hstop : ¬ ((spell pre).length < (template ps).strlen.toNat ∧
      (intended a pre).length < (a.room (template ps) + 1).toNat)) : intended a post = [] := by
  apply List.flatMap_eq_nil_iff.mpr
  intro p hp
  by_contra hvalue
  obtain ⟨mid, rest, rfl⟩ := List.append_of_mem hp
  obtain ⟨hplace, hoff, -⟩ := h.begins (pre ++ mid) p rest (by simp [hps]) hvalue
  simp only [spell_append, intended_append, List.length_append] at hplace hoff
  omega

theorem HasRoom.whole (h : HasRoom a ps) (hps : ps = pre ++ p :: post) : (p.value a).chars = [] ∨
    (intended a pre).length < 2 ^ 32 ∧ (p.value a).chars.length < 2 ^ 32 := by
  by_cases hvalue : (p.value a).chars = []
  · exact Or.inl hvalue
  · obtain ⟨-, hoff, hlong⟩ := h.begins pre p post hps hvalue
    exact Or.inr ⟨hoff.trans (a.room (template ps) + 1).toNat_lt, hlong⟩

theorem HasRoom.write_within (h : HasRoom a ps) (hps : ps = pre ++ p :: post) (htracks : Tracks a pre off ws)
    (hvalue : (p.value a).chars.take (p.value a).strlen.toNat ≠ []) :
    off.toNat + ((p.value a).chars.take (p.value a).strlen.toNat).length ≤ (a.room (template ps)).toNat + 5 := by
  rcases h.whole hps with hnil | ⟨hoff, hlong⟩
  · rw [hnil, List.take_nil] at hvalue
    exact absurd rfl hvalue
  · have hplace := htracks.off_eq
    have htake := (List.take_sublist (p.value a).strlen.toNat (p.value a).chars).length_le
    have hall : (intended a ps).length =
        (intended a pre).length + ((p.value a).chars.length + (intended a post).length) := by simp [hps]
    have hends := h.ends
    omega

theorem HasRoom.holds (h : HasRoom a ps) (pre post : List Piece) (hps : ps = pre ++ post)
    (htracks : Tracks a pre off ws) :
    BlockWrites.Holds nul (BlockWrites.contents nul
      (ws ++ substituted a (template ps).strlen (a.room (template ps) + 1) (spell pre).length off post))
      (intended a ps) ∧
    BlockWrites.Within ((a.room (template ps)).toNat + 5)
      (substituted a (template ps).strlen (a.room (template ps) + 1) (spell pre).length off post) := by
  induction post generalizing pre off ws with
  | nil =>
    rw [List.append_nil] at hps
    rw [hps, substituted, List.append_nil]
    exact ⟨htracks.holds, fun w hw => nomatch hw⟩
  | cons p post ih =>
    rw [substituted]
    split
    · obtain ⟨hholds, hwithin⟩ := ih (pre ++ [p]) (by simp [hps]) (htracks.put (h.whole hps))
      have hplace : (spell (pre ++ [p])).length = (spell pre).length + p.chars.length := by simp [spell]
      rw [hplace] at hholds hwithin
      constructor
      · rw [List.append_cons]
        exact hholds
      · intro w hw hne
        rcases List.mem_cons.mp hw with rfl | hw
        · exact h.write_within hps htracks hne
        · exact hwithin w hw hne
    · next hstop =>
      have hrest : intended a (p :: post) = [] := by
        apply h.intended_of_stop hps
        rintro ⟨hplace, hoff⟩
        apply hstop
        refine ⟨hplace, ?_⟩
        rw [UInt32.lt_iff_toNat_lt, htracks.off_eq]
        exact (Nat.mod_le _ _).trans_lt hoff
      have hall : intended a ps = intended a pre := by rw [hps, intended_append, hrest, List.append_nil]
      rw [hall, List.append_nil]
      exact ⟨htracks.holds, fun w hw => nomatch hw⟩

/-- If a value began or ended behind 2^32, then `off` or the length would be too
small to reach its last cell. -/
theorem Tracks.first_of_nonzero {room inLen : UInt32} {i : Nat} (htracks : Tracks a pre off ws)
    (hps : ps = pre ++ p :: post) (hoff : off < room + 1) (hends : (intended a ps).length < room.toNat + 5)
    (hcells : ∀ k < (intended a ps).length,
      BlockWrites.contents nul (ws ++ substituted a inLen (room + 1) i off (p :: post)) k ≠ nul) :
    (p.value a).chars = [] ∨ (intended a pre).length < (room + 1).toNat ∧ (p.value a).chars.length < 2 ^ 32 := by
  by_contra hnot
  obtain ⟨hvalue, hlate⟩ := not_or.mp hnot
  have hpos := List.length_pos_iff.mpr hvalue
  have hall : (intended a ps).length =
      (intended a pre).length + ((p.value a).chars.length + (intended a post).length) := by simp [hps]
  have hreach := reach_cons_le a p post
  have hplace := htracks.off_eq
  have hlt := UInt32.lt_iff_toNat_lt.mp hoff
  have hroom := room.toNat_lt
  have hbound := (room + 1).toNat_lt
  apply hcells ((intended a pre).length + (p.value a).chars.length - 1) (by omega)
  rw [contents_substituted_of_le (by omega)]
  exact htracks.zero_of_le (by omega)

/-- If no cell of the result is left zero, everything on the way began where it
had to. -/
theorem begins_of_nonzero {room : UInt32} (pre post : List Piece) (hps : ps = pre ++ post)
    (htracks : Tracks a pre off ws) (hends : (intended a ps).length < room.toNat + 5)
    (hcells : ∀ k < (intended a ps).length, BlockWrites.contents nul
      (ws ++ substituted a (template ps).strlen (room + 1) (spell pre).length off post) k ≠ nul) :
    ∀ mid p rest, post = mid ++ p :: rest → (p.value a).chars ≠ [] →
      (spell (pre ++ mid)).length < (template ps).strlen.toNat ∧
        (intended a (pre ++ mid)).length < (room + 1).toNat ∧ (p.value a).chars.length < 2 ^ 32 := by
  induction post generalizing pre off ws with
  | nil =>
    intro mid p rest hpost
    simp at hpost
  | cons q post ih =>
    intro mid p rest hpost hvalue
    by_cases hguard : (spell pre).length < (template ps).strlen.toNat ∧ off < room + 1
    · have hfirst := htracks.first_of_nonzero hps hguard.2 hends hcells
      have hput := htracks.put (p := q) (hfirst.imp_right fun hq => ⟨hq.1.trans (room + 1).toNat_lt, hq.2⟩)
      cases mid with
      | nil =>
        obtain ⟨rfl, rfl⟩ := List.cons.inj hpost
        rw [List.append_nil]
        exact ⟨hguard.1, hfirst.resolve_left hvalue⟩
      | cons r mid =>
        obtain ⟨rfl, rfl⟩ := List.cons.inj hpost
        rw [substituted, if_pos hguard] at hcells
        have hrest := ih (pre ++ [q]) (by simp [hps]) hput (by simpa [spell] using hcells)
        rw [List.append_cons]
        exact hrest mid p rest rfl hvalue
    · -- the loop has stopped, so the next cell stays zero
      exfalso
      have hpos := List.length_pos_iff.mpr hvalue
      have hmore : (intended a pre).length < (intended a ps).length := by
        simp only [hps, hpost, intended_append, intended_cons, List.length_append]
        omega
      apply hcells _ hmore
      rw [substituted, if_neg hguard, List.append_nil]
      exact htracks.zero_of_le (Nat.le_refl _)

end

section
variable {a : ExecArgs} {ps : List Piece} {beyond : Nat → Char} {fuel : Nat}

theorem nul_notMem_intended (a : ExecArgs) (ps : List Piece) : nul ∉ intended a ps := by
  intro h
  obtain ⟨p, -, hp⟩ := List.mem_flatMap.mp h
  exact (p.value a).nul_notMem hp

theorem stringReplace_eq_some_iff (beyond : Nat → Char) (h : (lengthComputation fuel (template ps) a).isSome)
    (hscanned : Scanned ps) {b : Buffer} : (∃ n, stringReplace n (template ps) a beyond = some b) ↔
      b = ⟨(a.room (template ps)).toNat + 5,
        substituted a (template ps).strlen (a.room (template ps) + 1) 0 0 ps⟩ := by
  obtain ⟨total, htotal⟩ := Option.isSome_iff_exists.mp h
  obtain ⟨hpart, rfl⟩ := lengthComputation_eq_some htotal
  obtain ⟨t, hends, hwrites⟩ := substitution_endsIn (s := ⟨0, 0, []⟩) (a := a) beyond hscanned [] ps rfl rfl
  rw [List.nil_append] at hwrites
  constructor
  · rintro ⟨n, hn⟩
    obtain ⟨total, hlength, hn⟩ := Option.bind_eq_some_iff.mp hn
    obtain ⟨-, rfl⟩ := lengthComputation_eq_some hlength
    obtain ⟨s, hs, rfl⟩ := Option.map_eq_some_iff.mp hn
    rw [WhileLoop.EndsIn.unique ⟨n, hs⟩ hends, hwrites]
    rfl
  · rintro rfl
    obtain ⟨n, hn⟩ := hends
    refine ⟨n + 2, ?_⟩
    rw [stringReplace, lengthComputation_of_notPart hpart, Option.bind_some,
      WhileLoop.exec_eq_some_of_le (Nat.le_add_right n 2) hn, Option.map_some, hwrites]
    rfl

theorem Replaced.length_lt (h : Replaced a ps beyond) :
    (intended a ps).length < (a.room (template ps)).toNat + 5 := by
  obtain ⟨n, b, hb, -, rest, hcells⟩ := h
  rw [← stringReplace_size hb]
  exact (BlockWrites.of_cells hcells).1

end

section
variable {a : ExecArgs} {ps : List Piece} {fuel : Nat}

/-- In the order of the length loops. -/
def Placeholder.all : List Placeholder := [uri, normal, large, cropped, mime, mimeAt, mtime, docrop]

theorem Placeholder.mem_all (p : Placeholder) : p ∈ all := by cases p <;> decide

theorem Piece.length_chars_pos (p : Piece) : 0 < p.chars.length := by
  cases p <;> simp [chars]

def Piece.placeholders : Piece → List Placeholder
  | .text _ _ => []
  | .place p => [p]

theorem lengthLoops_eq (a : ExecArgs) :
    a.lengthLoops = Placeholder.all.map fun p => ((Piece.place p).chars, (a.value p).strlen) := by
  obtain ⟨uri, large, normal, cropped, mimeType, mimeTypeAt, cropping, mtime⟩ := a
  cases cropping <;> rfl

theorem length_intended_le (a : ExecArgs) (ps : List Piece) : (intended a ps).length ≤
    (spell ps).length + ((ps.flatMap Piece.placeholders).map fun p => (a.value p).chars.length).sum := by
  induction ps with
  | nil => exact Nat.zero_le _
  | cons p ps ih =>
    cases p with
    | text c plain =>
      simp only [intended_cons, spell_cons, Piece.value, Piece.chars, Piece.placeholders, List.flatMap_cons,
        List.length_append, List.nil_append, List.length_cons, List.length_nil]
      omega
    | place q =>
      simp only [intended_cons, spell_cons, Piece.value, Piece.placeholders, List.flatMap_cons, List.length_append,
        List.map_append, List.sum_append, List.map_cons, List.map_nil, List.sum_cons, List.sum_nil]
      omega

theorem room_toNat (a : ExecArgs) (ps : List Piece) : (a.room (template ps)).toNat =
    ((spell ps).length + (Placeholder.all.map fun p => (a.value p).strlen.toNat).sum) % 2 ^ 32 := by
  rw [room_eq, lengthLoops_eq, List.map_map]
  rfl

/-- A template that has each placeholder at most once, as the command that is
registered by default, has the room that it needs. -/
theorem hasRoom_of_once (hnodup : (ps.flatMap Piece.placeholders).Nodup)
    (hsmall : (spell ps).length + (Placeholder.all.map fun p => (a.value p).chars.length).sum + 11 < 2 ^ 32) :
    HasRoom a ps := by
  have hvalues : ((ps.flatMap Piece.placeholders).map fun p => (a.value p).chars.length).sum ≤
      (Placeholder.all.map fun p => (a.value p).chars.length).sum := by
    obtain ⟨l, hperm, hsub⟩ := List.Nodup.subperm hnodup fun p _ => p.mem_all
    rw [← (hperm.map _).sum_eq]
    exact (hsub.map _).sum_le_sum fun _ _ => Nat.zero_le _
  have hintended := length_intended_le a ps
  have hroom : (a.room (template ps)).toNat =
      (spell ps).length + (Placeholder.all.map fun p => (a.value p).chars.length).sum := by
    rw [room_toNat]
    simp only [CString.toNat_strlen, Placeholder.all, List.map_cons, List.map_nil, List.sum_cons, List.sum_nil]
      at hsmall ⊢
    omega
  have hstrlen : (template ps).strlen.toNat = (spell ps).length := by
    rw [CString.toNat_strlen]
    exact Nat.mod_eq_of_lt (by simp only [template_chars]; omega)
  have hsucc : (a.room (template ps) + 1).toNat = ((a.room (template ps)).toNat + 1) % 2 ^ 32 :=
    UInt32.toNat_add _ 1
  refine ⟨?_, ?_, by omega⟩
  · intro pre p post _ hplace
    omega
  · rintro pre p post rfl hvalue
    have hchars := p.length_chars_pos
    have hpos := List.length_pos_iff.mpr hvalue
    rw [hstrlen, hsucc, hroom]
    simp only [spell_append, spell_cons, intended_append, intended_cons, List.length_append] at *
    omega

theorem replaced_hasRoom (beyond : Nat → Char) (h : (lengthComputation fuel (template ps) a).isSome) :
    (HasRoom a ps → Replaced a ps beyond) ∧ (Scanned ps → Replaced a ps beyond → HasRoom a ps) := by
  constructor
  · intro hroom
    obtain ⟨n, hn⟩ := (stringReplace_eq_some_iff beyond h hroom.scanned).mpr rfl
    obtain ⟨hholds, hwithin⟩ := hroom.holds [] ps rfl (tracks_nil a)
    exact ⟨n, _, hn, hwithin, hholds.cells hroom.ends⟩
  · rintro hscanned ⟨n, b, hb, -, rest, hcells⟩
    obtain rfl := (stringReplace_eq_some_iff beyond h hscanned).mp ⟨n, hb⟩
    obtain ⟨hends, hcell⟩ := BlockWrites.of_cells hcells
    have hnonzero : ∀ k < (intended a ps).length, BlockWrites.contents nul
        (substituted a (template ps).strlen (a.room (template ps) + 1) 0 0 ps) k ≠ nul := by
      intro k hk hzero
      exact nul_notMem_intended a ps (hzero ▸ hcell k hk ▸ List.getElem_mem hk)
    exact ⟨hscanned, begins_of_nonzero [] ps rfl (tracks_nil a) hends hnonzero, hends⟩

/-- The values for a picture, with thumbnail paths of their usual length. -/
def jpegArgs (uri : CString) : ExecArgs where
  uri := uri
  large := ⟨"/home/user/.thumbnails/large/d41d8cd98f00b204e9800998ecf8427e.jpeg".toList, by decide⟩
  normal := ⟨"/home/user/.thumbnails/normal/d41d8cd98f00b204e9800998ecf8427e.jpeg".toList, by decide⟩
  cropped := ⟨"/home/user/.thumbnails/cropped/d41d8cd98f00b204e9800998ecf8427e.jpeg".toList, by decide⟩
  mimeType := ⟨"image/jpeg".toList, by decide⟩
  mimeTypeAt := ⟨"image@jpeg".toList, by decide⟩
  cropping := true
  mtime := 1262304000

theorem replaced_once :
    Replaced (jpegArgs ⟨"file:///a.jpg".toList, by decide⟩)
      [.text 'x' (by decide), .text ' ' (by decide), .place .uri] fun _ => nul :=
  (replaced_hasRoom _ (show (lengthComputation 2 _ _).isSome = true by decide)).1
    (hasRoom_of_once (by decide) (by decide))

/-- A name of sixty Cyrillic letters. -/
def longUri : CString where
  chars := "file:///home/user/MyDocs/".toList ++ (List.replicate 60 "%D0%B0".toList).flatten ++ ".jpg".toList
  nul_notMem := by decide +kernel

/-- Both values are written, but room is made for one. -/
theorem not_replaced_twice : ¬ ∀ (a : ExecArgs) (ps : List Piece) (beyond : Nat → Char) (fuel : Nat),
    (lengthComputation fuel (template ps) a).isSome → Replaced a ps beyond := by
  intro h
  have hlt := (h (jpegArgs longUri) [.place .uri, .place .uri] (fun _ => nul) 2 (by decide +kernel)).length_lt
  exact absurd hlt (by decide +kernel)

end

end HildonThumbnail
