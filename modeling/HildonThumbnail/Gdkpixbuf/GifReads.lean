import HildonThumbnail.Gdkpixbuf.AnimatedGif
import HildonThumbnail.Lib.While

/-! The scan of `is_animated_gif` with everything that `fread` can give it. After
an error `feof` still says no. -/

namespace HildonThumbnail

namespace AnimatedGif

/-- What one `fread` puts into the buffer, and what `feof` says after it. -/
structure Fread where
  bytes : List UInt8
  eof : Bool
  length_le : bytes.length ≤ 1024

/-- There is no count of the frames after an access outside of the buffer. -/
structure Scan where
  reads : Nat
  eof : Bool
  frameCount : Option Nat

def Scan.turn (stream : Nat → Fread) (s : Scan) : Option Scan :=
  s.frameCount.bind fun frameCount =>
    if s.eof = false ∧ frameCount < 2 then
      let read := stream s.reads
      some ⟨s.reads + 1, read.eof, countFrames (filled read.bytes) read.bytes.length frameCount⟩
    else none

/-- Nothing also if the turns do not suffice. -/
def scanStream (turns : Nat) : Option (Nat → Fread) → Option Bool
  | none => some false
  | some stream =>
    (WhileLoop.exec (Scan.turn stream) turns ⟨0, false, some 0⟩).bind fun s =>
      s.frameCount.map fun frameCount => decide (frameCount > 1)

/-- The byte behind the buffer is not looked at. -/
def Fread.InBuffer (read : Fread) : Prop := read.bytes[1023]? ≠ some 0x00

def framesRead (stream : Nat → Fread) (n : Nat) : Nat := ((List.range n).map fun k => framesOf (stream k).bytes).sum

/-- Some read meets the end of the file or has the second frame, and up to it
the scan stays in the buffer. -/
def ScannedToEnd (stream : Nat → Fread) : Prop :=
  ∃ n, ((stream n).eof = true ∨ 2 ≤ framesRead stream (n + 1)) ∧ ∀ k, k ≤ n → (stream k).InBuffer

/-- The reads of a file in which none fails. -/
def blocks (content : List UInt8) (k : Nat) : Fread where
  bytes := (content.drop (1024 * k)).take 1024
  eof := decide ((content.drop (1024 * k)).length < 1024)
  length_le := List.length_take_le _ _

section
variable {stream : Nat → Fread} {s t : Scan} {n k frameCount : Nat}

theorem framesRead_succ (stream : Nat → Fread) (n : Nat) :
    framesRead stream (n + 1) = framesRead stream n + framesOf (stream n).bytes := by
  simp [framesRead, List.range_succ]

theorem countFrames_inBuffer {read : Fread} (h : read.InBuffer) (frameCount : Nat) :
    countFrames (filled read.bytes) read.bytes.length frameCount = some (frameCount + framesOf read.bytes) :=
  countFrames_filled read.length_le frameCount _ (Nat.le_refl _) (.inr h)

theorem countFrames_outside {read : Fread} (h : ¬ read.InBuffer) (frameCount : Nat) :
    countFrames (filled read.bytes) read.bytes.length frameCount = none := by
  have hzero : read.bytes[1023]? = some 0x00 := not_not.mp h
  have hlt : 1023 < read.bytes.length := (List.getElem?_eq_some_iff.mp hzero).1
  have hlen : read.bytes.length = 1024 := by
    have hle := read.length_le
    omega
  rw [hlen]
  exact countFrames_full hlen hzero frameCount

theorem turn_eq_none_iff : s.turn stream = none ↔ ∀ c, s.frameCount = some c → s.eof = true ∨ 2 ≤ c := by
  rw [Scan.turn]
  cases s.frameCount with
  | none => simp
  | some c =>
    rw [Option.bind_some]
    constructor
    · intro hstop c' hc'
      obtain rfl := Option.some.inj hc'
      by_contra hnot
      obtain ⟨heof, hlt⟩ := not_or.mp hnot
      rw [if_pos ⟨Bool.eq_false_iff.mpr heof, Nat.not_le.mp hlt⟩] at hstop
      cases hstop
    · intro h
      refine if_neg ?_
      rintro ⟨heof, hlt⟩
      rcases h c rfl with heof' | hle
      · rw [heof] at heof'
        cases heof'
      · omega

theorem turn_of_lt (stream : Nat → Fread) (k : Nat) (hc : frameCount < 2) :
    Scan.turn stream ⟨k, false, some frameCount⟩ =
    some ⟨k + 1, (stream k).eof,
      countFrames (filled (stream k).bytes) (stream k).bytes.length frameCount⟩ := by
  rw [Scan.turn, Option.bind_some, if_pos ⟨rfl, hc⟩]

/-- As long as there is a count it is that of the blocks so far, which were all
looked at inside of the buffer. -/
def Counted (stream : Nat → Fread) (s : Scan) : Prop :=
  ∀ c, s.frameCount = some c → c = framesRead stream s.reads ∧ (∀ k, k < s.reads → (stream k).InBuffer) ∧
    (s.eof = true → ∃ k, s.reads = k + 1 ∧ (stream k).eof = true)

theorem counted_turn (hs : Counted stream s) (h : s.turn stream = some t) : Counted stream t := by
  obtain ⟨c, hc, h⟩ := Option.bind_eq_some_iff.mp h
  obtain ⟨hframes, hin, -⟩ := hs c hc
  rw [Option.ite_none_right_eq_some] at h
  obtain ⟨-, h⟩ := h
  obtain rfl := Option.some.inj h
  intro c' hc'
  by_cases hread : (stream s.reads).InBuffer
  · rw [countFrames_inBuffer hread] at hc'
    refine ⟨?_, ?_, ?_⟩
    · rw [framesRead_succ, ← hframes]
      exact (Option.some.inj hc').symm
    · intro k hk
      rcases Nat.lt_succ_iff_lt_or_eq.mp hk with hk | rfl
      · exact hin k hk
      · exact hread
    · exact fun heof => ⟨s.reads, rfl, heof⟩
  · rw [countFrames_outside hread] at hc'
    cases hc'

theorem scannedToEnd_of_endsIn (h : WhileLoop.EndsIn (Scan.turn stream) ⟨0, false, some 0⟩ t)
    (hc : t.frameCount = some frameCount) : ScannedToEnd stream := by
  have hstart : Counted stream ⟨0, false, some 0⟩ := by
    intro c hc
    obtain rfl := Option.some.inj hc
    exact ⟨rfl, fun k hk => absurd hk (Nat.not_lt_zero k), fun heof => nomatch heof⟩
  have hcounted := h.invariant (fun s t => counted_turn) hstart frameCount hc
  obtain ⟨hframes, hin, heof⟩ := hcounted
  rcases turn_eq_none_iff.mp h.stopped frameCount hc with hend | htwo
  · obtain ⟨k, hk, hkeof⟩ := heof hend
    exact ⟨k, .inl hkeof, fun j hj => hin j (by omega)⟩
  · cases hreads : t.reads with
    | zero =>
      rw [hframes, hreads] at htwo
      exact absurd htwo (by simp [framesRead])
    | succ k => exact ⟨k, .inr (by rw [← hreads, ← hframes]; exact htwo), fun j hj => hin j (by omega)⟩

/-- The induction is on the blocks up to the last one that is needed. -/
theorem endsIn_of_scanned (hin : ∀ k, k ≤ n → (stream k).InBuffer)
    (hlast : (stream n).eof = true ∨ 2 ≤ framesRead stream (n + 1)) (left : Nat) :
    ∀ k, k + left = n + 1 → ∀ eof, (k = n + 1 → eof = (stream n).eof) →
      ∃ t, WhileLoop.EndsIn (Scan.turn stream) ⟨k, eof, some (framesRead stream k)⟩ t ∧ t.frameCount.isSome := by
  induction left with
  | zero =>
    intro k hk eof heof
    obtain rfl : k = n + 1 := hk
    have hstop : Scan.turn stream ⟨n + 1, eof, some (framesRead stream (n + 1))⟩ = none := by
      rw [turn_eq_none_iff]
      intro c hc
      obtain rfl := Option.some.inj hc
      rw [heof rfl]
      exact hlast
    exact ⟨_, (WhileLoop.endsIn_of_none hstop).mpr rfl, rfl⟩
  | succ left ih =>
    intro k hk eof heof
    by_cases hgoes : eof = false ∧ framesRead stream k < 2
    · obtain ⟨rfl, hlt⟩ := hgoes
      have hturn := turn_of_lt stream k hlt
      rw [countFrames_inBuffer (hin k (by omega)), ← framesRead_succ] at hturn
      obtain ⟨t, ht, hcount⟩ := ih (k + 1) (by omega) (stream k).eof fun hk' => by
        obtain rfl : k = n := by omega
        rfl
      exact ⟨t, (WhileLoop.endsIn_of_some hturn).mpr ht, hcount⟩
    · have hstop : Scan.turn stream ⟨k, eof, some (framesRead stream k)⟩ = none := by
        rw [Scan.turn, Option.bind_some, if_neg hgoes]
      exact ⟨_, (WhileLoop.endsIn_of_none hstop).mpr rfl, rfl⟩

theorem scanStream_some_iff {turns : Nat} {animated : Bool} : scanStream turns (some stream) = some animated ↔
    ∃ t c, WhileLoop.exec (Scan.turn stream) turns ⟨0, false, some 0⟩ = some t ∧ t.frameCount = some c ∧
      decide (c > 1) = animated := by
  simp only [scanStream, Option.bind_eq_some_iff, Option.map_eq_some_iff]
  constructor
  · rintro ⟨t, ht, c, hc, hb⟩
    exact ⟨t, c, ht, hc, hb⟩
  · rintro ⟨t, c, ht, hc, hb⟩
    exact ⟨t, ht, c, hc, hb⟩

/-- A read error that lasts keeps the scan for ever, if it comes before the
second frame. -/
theorem scanStream_ends_iff (stream : Nat → Fread) :
    (∃ turns, (scanStream turns (some stream)).isSome) ↔ ScannedToEnd stream := by
  constructor
  · rintro ⟨turns, h⟩
    obtain ⟨animated, h⟩ := Option.isSome_iff_exists.mp h
    obtain ⟨t, c, ht, hc, -⟩ := scanStream_some_iff.mp h
    exact scannedToEnd_of_endsIn ⟨turns, ht⟩ hc
  · rintro ⟨n, hlast, hin⟩
    obtain ⟨t, ⟨turns, ht⟩, hcount⟩ := endsIn_of_scanned hin hlast (n + 1) 0 (by omega) false (by omega)
    obtain ⟨c, hc⟩ := Option.isSome_iff_exists.mp hcount
    exact ⟨turns, Option.isSome_iff_exists.mpr ⟨_, scanStream_some_iff.mpr ⟨t, c, ht, hc, rfl⟩⟩⟩

theorem scanStream_mono {opened : Option (Nat → Fread)} {turns more : Nat} {animated : Bool} (hle : turns ≤ more)
    (h : scanStream turns opened = some animated) : scanStream more opened = some animated := by
  cases opened with
  | none => exact h
  | some stream =>
    obtain ⟨t, c, ht, hc, hb⟩ := scanStream_some_iff.mp h
    exact scanStream_some_iff.mpr ⟨t, c, WhileLoop.exec_eq_some_of_le hle ht, hc, hb⟩

end

/-- Without errors the loop is the one over the content. The induction is on what
is left of the file. -/
theorem endsIn_blocks (content : List UInt8) (k frameCount : Nat) :
    ∃ t, WhileLoop.EndsIn (Scan.turn (blocks content)) ⟨k, false, some frameCount⟩ t ∧
      t.frameCount = scanFile ⟨content.drop (1024 * k), false⟩ frameCount := by
  induction hn : (content.drop (1024 * k)).length using Nat.strongRecOn generalizing k frameCount with
  | ind n ih =>
    by_cases hcount : frameCount < 2
    · have hturn := turn_of_lt (blocks content) k hcount
      have hnext : (content.drop (1024 * k)).drop 1024 = content.drop (1024 * (k + 1)) := by
        rw [List.drop_drop, Nat.mul_succ]
      rw [scanFile, if_pos ⟨rfl, hcount⟩]
      simp only [fread, Bool.false_or, hnext]
      cases hblock : countFrames (filled (blocks content k).bytes) (blocks content k).bytes.length frameCount with
      | none =>
        rw [hblock] at hturn
        have hstop : Scan.turn (blocks content) ⟨k + 1, (blocks content k).eof, none⟩ = none := rfl
        refine ⟨_, (WhileLoop.endsIn_of_some hturn).mpr ((WhileLoop.endsIn_of_none hstop).mpr rfl), ?_⟩
        exact (congrArg (Option.bind · _) hblock).symm
      | some c =>
        rw [hblock] at hturn
        have hrest : ∃ t, WhileLoop.EndsIn (Scan.turn (blocks content)) ⟨k + 1, (blocks content k).eof, some c⟩ t ∧
            t.frameCount = scanFile ⟨content.drop (1024 * (k + 1)), (blocks content k).eof⟩ c := by
          cases heof : (blocks content k).eof with
          | true =>
            have hstop : Scan.turn (blocks content) ⟨k + 1, true, some c⟩ = none :=
              turn_eq_none_iff.mpr fun c' _ => .inl rfl
            refine ⟨_, (WhileLoop.endsIn_of_none hstop).mpr rfl, ?_⟩
            rw [scanFile_done (.inl rfl)]
          | false =>
            have hlong : ¬ (content.drop (1024 * k)).length < 1024 := of_decide_eq_false heof
            refine ih _ ?_ (k + 1) c rfl
            rw [← hnext, List.length_drop]
            omega
        obtain ⟨t, ht, hframes⟩ := hrest
        refine ⟨t, (WhileLoop.endsIn_of_some hturn).mpr ht, hframes.trans ?_⟩
        exact (congrArg (Option.bind · _) hblock).symm
    · have hstop : Scan.turn (blocks content) ⟨k, false, some frameCount⟩ = none := by
        rw [Scan.turn, Option.bind_some, if_neg fun h => hcount h.2]
      refine ⟨_, (WhileLoop.endsIn_of_none hstop).mpr rfl, ?_⟩
      rw [scanFile_done (.inr (by omega))]

theorem scanStream_blocks (content : List UInt8) (animated : Bool) :
    (∃ turns, scanStream turns (some (blocks content)) = some animated) ↔
      isAnimatedGif (some content) = some animated := by
  obtain ⟨t, hends, hframes⟩ := endsIn_blocks content 0 0
  rw [Nat.mul_zero, List.drop_zero] at hframes
  rw [isAnimatedGif, Option.map_eq_some_iff, ← hframes]
  constructor
  · rintro ⟨turns, h⟩
    obtain ⟨t', c, ht', hc, hb⟩ := scanStream_some_iff.mp h
    obtain rfl := hends.unique ⟨turns, ht'⟩
    exact ⟨c, hc, hb⟩
  · rintro ⟨c, hc, hb⟩
    obtain ⟨turns, ht⟩ := hends
    exact ⟨turns, scanStream_some_iff.mpr ⟨t, c, ht, hc, hb⟩⟩

/-- For a file that is read without errors this is the condition on its content. -/
theorem scannedToEnd_blocks (content : List UInt8) : ScannedToEnd (blocks content) ↔ FramesFirst content 0 := by
  rw [← scanStream_ends_iff]
  simp only [Option.isSome_iff_exists]
  rw [exists_comm]
  simp only [scanStream_blocks]
  constructor
  · rintro ⟨animated, h⟩
    by_contra hnot
    rw [isAnimatedGif, (scanFile_spec content 0).2 hnot] at h
    cases h
  · intro hfirst
    obtain ⟨frames, hframes, -⟩ := (scanFile_spec content 0).1 hfirst
    exact ⟨_, by rw [isAnimatedGif, hframes, Option.map_some]⟩

end AnimatedGif

end HildonThumbnail
