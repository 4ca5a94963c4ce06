import Mathlib.Algebra.Ring.Nat
import HildonThumbnail.Lib.Neighbours

/-! Whether a GIF file has more than one frame (`is_animated_gif` in
daemon/plugins/gdkpixbuf-plugin.c). A result of `none` is an access outside of the buffer. -/

namespace HildonThumbnail

namespace AnimatedGif

/-- A stream that was opened for reading: what is left of it, and what `feof` says. -/
structure GifFile where
  left : List UInt8
  eof : Bool

/-- A short count is the end of the file. -/
def fread (count : Nat) (file : GifFile) : List UInt8 × GifFile :=
  (file.left.take count, ⟨file.left.drop count, file.eof || decide (file.left.length < count)⟩)

/-- `gchar buffer[1024]`, with zeros behind what was read. -/
def filled (bytes : List UInt8) : List UInt8 := bytes ++ List.replicate (1024 - bytes.length) 0x00

def frameAt (buffer : List UInt8) (t frameCount : Nat) : Option Nat :=
  buffer[t]?.bind fun b =>
    if b = 0x00 then buffer[t + 1]?.map fun next => if next = 0x2C then frameCount + 1 else frameCount
    else some frameCount

def countFrames (buffer : List UInt8) : Nat → Nat → Option Nat
  | 0, frameCount => some frameCount
  | t + 1, frameCount => (countFrames buffer t frameCount).bind (frameAt buffer t)

def scanFile (file : GifFile) (frameCount : Nat) : Option Nat :=
  if file.eof = false ∧ frameCount < 2 then
    let read := fread 1024 file
    (countFrames (filled read.1) read.1.length frameCount).bind (scanFile read.2)
  else some frameCount
termination_by file.left.length + if file.eof then 0 else 1
decreasing_by
  rename_i h
  simp only [fread, h.1, Bool.false_or, decide_eq_true_eq, List.length_drop, Bool.false_eq_true, if_false]
  split <;> omega

def isAnimatedGif : Option (List UInt8) → Option Bool
  | none => some false
  | some content => (scanFile ⟨content, false⟩ 0).map fun frameCount => decide (frameCount > 1)

/-- Where an image separator follows a zero byte. -/
def isFrame (b next : UInt8) : Bool := b == 0x00 && next == 0x2C

def framesOf (content : List UInt8) : Nat := Neighbours.count isFrame content

theorem isFrame_of_ne {b : UInt8} (h : b ≠ 0x00) (next : UInt8) : isFrame b next = false := by
  simp [isFrame, h]

theorem filled_getElem?_of_lt {bytes : List UInt8} {t : Nat} (h : t < bytes.length) :
    (filled bytes)[t]? = some bytes[t] := by
  rw [filled, List.getElem?_append_left h, List.getElem?_eq_getElem h]

theorem filled_getElem?_of_ge {bytes : List UInt8} {t : Nat} (h : bytes.length ≤ t) (ht : t < 1024) :
    (filled bytes)[t]? = some 0x00 := by
  rw [filled, List.getElem?_append_right h, List.getElem?_replicate, if_pos (by omega)]

theorem filled_getElem?_eq_none {bytes : List UInt8} {t : Nat} (h : bytes.length ≤ 1024) (ht : 1024 ≤ t) :
    (filled bytes)[t]? = none := by
  apply List.getElem?_eq_none
  simp only [filled, List.length_append, List.length_replicate]
  omega

/-- One turn counts what stands at its position, also at the end of a short block. -/
theorem frameAt_filled {bytes : List UInt8} {t : Nat} (ht : t < bytes.length)
    (hlast : t + 1 < 1024 ∨ bytes[t]? ≠ some 0x00) (frameCount : Nat) :
    frameAt (filled bytes) t frameCount =
      some (frameCount + if Neighbours.relatedAt isFrame bytes t then 1 else 0) := by
  rw [frameAt, filled_getElem?_of_lt ht, Option.bind_some]
  by_cases hzero : bytes[t] = 0x00
  · have hin : t + 1 < 1024 := by
      rcases hlast with hlast | hlast
      · exact hlast
      · exact absurd (by rw [List.getElem?_eq_getElem ht, hzero]) hlast
    rw [if_pos hzero]
    by_cases hnext : t + 1 < bytes.length
    · rw [filled_getElem?_of_lt hnext,
        Neighbours.relatedAt_of_getElem? (List.getElem?_eq_getElem ht) (List.getElem?_eq_getElem hnext)]
      by_cases hsep : bytes[t + 1] = 0x2C <;> simp [isFrame, hzero, hsep]
    · rw [filled_getElem?_of_ge (by omega) hin, Neighbours.relatedAt_of_le (by omega)]
      simp
  · rw [if_neg hzero]
    have hno : Neighbours.relatedAt isFrame bytes t = false := by
      unfold Neighbours.relatedAt
      rw [List.getElem?_eq_getElem ht]
      cases bytes[t + 1]? with
      | none => rfl
      | some next => exact isFrame_of_ne hzero next
    simp [hno]

theorem countFrames_filled {bytes : List UInt8} (hlen : bytes.length ≤ 1024) (frameCount : Nat) :
    ∀ t, t ≤ bytes.length → t < 1024 ∨ bytes[1023]? ≠ some 0x00 →
      countFrames (filled bytes) t frameCount = some (frameCount + Neighbours.countBefore isFrame bytes t) := by
  intro t
  induction t with
  | zero => simp [countFrames, Neighbours.countBefore]
  | succ t ih =>
    intro ht hlast
    have hat : t + 1 < 1024 ∨ bytes[t]? ≠ some 0x00 := by
      rcases hlast with hlast | hlast
      · exact .inl hlast
      · by_cases hend : t = 1023
        · exact .inr (hend ▸ hlast)
        · exact .inl (by omega)
    rw [countFrames, ih (by omega) (.inl (by omega)), Option.bind_some, frameAt_filled (by omega) hat,
      Neighbours.countBefore_succ, Nat.add_assoc]

/-- The byte behind a full block is looked at if the block ends in a zero. -/
theorem countFrames_full {bytes : List UInt8} (hlen : bytes.length = 1024) (hlast : bytes[1023]? = some 0x00)
    (frameCount : Nat) : countFrames (filled bytes) 1024 frameCount = none := by
  have hbefore := countFrames_filled (Nat.le_of_eq hlen) frameCount 1023 (by omega) (.inl (by omega))
  have hbyte : (filled bytes)[1023]? = some 0x00 := by
    rw [filled, List.getElem?_append_left (by omega), hlast]
  have hbeyond : (filled bytes)[1024]? = none := filled_getElem?_eq_none (Nat.le_of_eq hlen) (Nat.le_refl _)
  rw [countFrames, hbefore, Option.bind_some, frameAt, hbyte, Option.bind_some, if_pos rfl, hbeyond,
    Option.map_none]

/-- Each full block that ends in a zero stands behind two frames. -/
def FramesFirst (content : List UInt8) (frameCount : Nat) : Prop :=
  ∀ k, 1024 * (k + 1) ≤ content.length → content[1024 * k + 1023]? = some 0x00 →
    2 ≤ frameCount + framesOf (content.take (1024 * k))

theorem scanFile_done {file : GifFile} {frameCount : Nat} (h : file.eof = true ∨ 2 ≤ frameCount) :
    scanFile file frameCount = some frameCount := by
  rw [scanFile, if_neg]
  rintro ⟨heof, hcount⟩
  rcases h with h | h
  · rw [heof] at h
    cases h
  · omega

theorem scanFile_short {content : List UInt8} {frameCount : Nat} (hcount : frameCount < 2)
    (h : content.length < 1024) : scanFile ⟨content, false⟩ frameCount = some (frameCount + framesOf content) := by
  rw [scanFile, if_pos ⟨rfl, hcount⟩]
  have htake : content.take 1024 = content := List.take_of_length_le (by omega)
  simp only [fread, htake]
  rw [countFrames_filled (by omega) _ _ (Nat.le_refl _) (.inl h), Option.bind_some,
    scanFile_done (.inl (by simp [h]))]
  rfl

theorem scanFile_full {content : List UInt8} {frameCount : Nat} (hcount : frameCount < 2)
    (h : 1024 ≤ content.length) :
    scanFile ⟨content, false⟩ frameCount =
      if content[1023]? = some 0x00 then none
      else scanFile ⟨content.drop 1024, false⟩ (frameCount + framesOf (content.take 1024)) := by
  have hlen : (content.take 1024).length = 1024 := by
    rw [List.length_take]
    omega
  have hlast : (content.take 1024)[1023]? = content[1023]? := List.getElem?_take_of_lt (by omega)
  have heof : (false || decide (content.length < 1024)) = false := by
    simp
    omega
  rw [scanFile, if_pos ⟨rfl, hcount⟩]
  simp only [fread, heof]
  by_cases hzero : content[1023]? = some 0x00
  · rw [if_pos hzero, hlen, countFrames_full hlen (hlast.trans hzero), Option.bind_none]
  · rw [if_neg hzero, countFrames_filled (by omega) _ _ (Nat.le_refl _) (.inr (hlast ▸ hzero)), Option.bind_some]
    rfl

theorem framesOf_block {content : List UInt8} (h : 1024 ≤ content.length) (hzero : content[1023]? ≠ some 0x00)
    (n : Nat) : framesOf (content.take (1024 + n)) =
      framesOf (content.take 1024) + framesOf ((content.drop 1024).take n) := by
  rw [List.take_add]
  apply Neighbours.count_append
  intro b hb
  apply isFrame_of_ne
  rintro rfl
  rw [List.getLast?_eq_getElem?, List.length_take, Nat.min_eq_left h, List.getElem?_take_of_lt (by omega)] at hb
  exact hzero hb

theorem framesFirst_block {content : List UInt8} {frameCount : Nat} (h : 1024 ≤ content.length)
    (hzero : content[1023]? ≠ some 0x00) :
    FramesFirst content frameCount ↔
      FramesFirst (content.drop 1024) (frameCount + framesOf (content.take 1024)) := by
  have hstep : ∀ k, frameCount + framesOf (content.take (1024 * (k + 1))) =
      frameCount + framesOf (content.take 1024) + framesOf ((content.drop 1024).take (1024 * k)) := by
    intro k
    rw [show 1024 * (k + 1) = 1024 + 1024 * k by omega, framesOf_block h hzero, Nat.add_assoc]
  have hget : ∀ k, (content.drop 1024)[1024 * k + 1023]? = content[1024 * (k + 1) + 1023]? := by
    intro k
    rw [List.getElem?_drop, show 1024 + (1024 * k + 1023) = 1024 * (k + 1) + 1023 by omega]
  constructor
  · intro hfirst k hk hbyte
    rw [List.length_drop] at hk
    rw [← hstep]
    exact hfirst (k + 1) (by omega) (hget k ▸ hbyte)
  · intro hfirst k hk hbyte
    cases k with
    | zero => exact absurd hbyte hzero
    | succ k =>
      rw [hstep]
      exact hfirst k (by rw [List.length_drop]; omega) ((hget k).trans hbyte)

/-- The induction is on the blocks that are left. -/
theorem scanFile_spec (content : List UInt8) (frameCount : Nat) :
    (FramesFirst content frameCount → ∃ frames, scanFile ⟨content, false⟩ frameCount = some frames ∧
      (2 ≤ frames ↔ 2 ≤ frameCount + framesOf content)) ∧
    (¬ FramesFirst content frameCount → scanFile ⟨content, false⟩ frameCount = none) := by
  induction hn : content.length using Nat.strongRecOn generalizing content frameCount with
  | ind n ih =>
    by_cases hcount : 2 ≤ frameCount
    · constructor
      · intro _
        exact ⟨frameCount, scanFile_done (.inr hcount), by omega⟩
      · intro hnot
        exact absurd (fun k _ _ => Nat.le_add_right_of_le hcount) hnot
    · by_cases hshort : content.length < 1024
      · constructor
        · intro _
          exact ⟨_, scanFile_short (by omega) hshort, Iff.rfl⟩
        · intro hnot
          exact absurd (fun k hk _ => absurd hk (by omega)) hnot
      · rw [scanFile_full (by omega) (by omega)]
        by_cases hzero : content[1023]? = some 0x00
        · rw [if_pos hzero]
          constructor
          · intro hfirst
            have hnone := hfirst 0 (by omega) hzero
            have hnil : framesOf (content.take (1024 * 0)) = 0 := rfl
            omega
          · intro _
            rfl
        · rw [if_neg hzero, framesFirst_block (by omega) hzero]
          have hrest := ih (content.length - 1024) (by omega) (content.drop 1024)
            (frameCount + framesOf (content.take 1024)) (List.length_drop)
          have hwhole := framesOf_block (by omega) hzero (content.length - 1024)
          rw [show 1024 + (content.length - 1024) = content.length by omega, List.take_length,
            List.take_of_length_le (i := content.length - 1024) (by rw [List.length_drop])] at hwhole
          rw [hwhole, ← Nat.add_assoc]
          exact hrest

/-- The scan stays in its buffer, and tells two frames in the file from fewer, exactly in
files where no full block that is still read ends in a zero. -/
theorem isAnimatedGif_eq_iff (content : List UInt8) :
    isAnimatedGif (some content) = some (decide (2 ≤ framesOf content)) ↔ FramesFirst content 0 := by
  have hspec := scanFile_spec content 0
  constructor
  · intro h
    by_contra hnot
    rw [isAnimatedGif, hspec.2 hnot] at h
    cases h
  · intro hfirst
    obtain ⟨frames, hframes, hiff⟩ := hspec.1 hfirst
    have hdecide : decide (frames > 1) = decide (2 ≤ framesOf content) := by
      apply decide_eq_decide.mpr
      rw [Nat.zero_add] at hiff
      exact hiff
    rw [isAnimatedGif, hframes, Option.map_some, hdecide]

example : isAnimatedGif (some [0x00, 0x2C, 0x10, 0x00, 0x2C]) = some true := by
  rw [isAnimatedGif, scanFile_short (by decide) (by decide)]
  rfl

def padded (n : Nat) : List UInt8 := List.replicate n 0x21 ++ [0x00, 0x2C, 0x00, 0x2C]

theorem padded_getElem? (n : Nat) : (padded n)[n]? = some 0x00 := by
  rw [padded, List.getElem?_append_right (by rw [List.length_replicate]), List.length_replicate, Nat.sub_self]
  rfl

theorem framesOf_padded (n : Nat) : 2 ≤ framesOf (padded n) := by
  have hlast : ∀ b, (List.replicate n (0x21 : UInt8)).getLast? = some b → ∀ next, isFrame b next = false := by
    intro b hb
    have hmem := List.eq_of_mem_replicate (List.mem_of_getLast? hb)
    exact isFrame_of_ne (by rw [hmem]; decide)
  rw [framesOf, padded, Neighbours.count_append hlast]
  exact Nat.le_add_left_of_le (by decide)

/-- The first separator stands over the end of the first block. -/
theorem padded_not_counted :
    isAnimatedGif (some (padded 1023)) ≠ some (decide (2 ≤ framesOf (padded 1023))) ∧
      2 ≤ framesOf (padded 1023) := by
  refine ⟨?_, framesOf_padded 1023⟩
  have hlen : (padded 1023).length = 1027 := by
    rw [padded, List.length_append, List.length_replicate]
    rfl
  rw [isAnimatedGif, scanFile_full (by decide) (by omega), if_pos (padded_getElem? 1023)]
  intro h
  cases h

end AnimatedGif

end HildonThumbnail
