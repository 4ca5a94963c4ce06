import HildonThumbnail.Lib.While
import Mathlib.Algebra.Ring.Nat
import Mathlib.Logic.Function.Iterate

/-! The decision of the video thumbnailer to go on with a stream, and the size it
asks for (`stream_continue_callback` in
thumbnailers/gst-video-thumbnailer/gst-thumb-pipe.c). -/

namespace HildonThumbnail

namespace ThumberPipe

/-- `width` and `height` are those that are integers. -/
structure GstStructure where
  name : String
  width : Option Int
  height : Option Int

/-- The size of a GstCaps is a guint. -/
structure GstCaps where
  structures : List GstStructure
  size_lt : structures.length < 2 ^ 32

namespace GstCaps

def getSize (caps : GstCaps) : UInt32 := UInt32.ofNat caps.structures.length

/-- NULL outside of the caps. -/
def getStructure (caps : GstCaps) (index : UInt32) : Option GstStructure := caps.structures[index.toNat]?

def newSimple (mediaType : String) (size : Int × Int) : GstCaps :=
  ⟨[⟨mediaType, some size.1, some size.2⟩], by simp⟩

end GstCaps

def GstStructure.size (str : GstStructure) : Option (Int × Int) :=
  str.width.bind fun width => str.height.map fun height => (width, height)

def strcasecmpEq (a b : String) : Bool := a.toList.map Char.toLower == b.toList.map Char.toLower

/-- Because of some inconsistencies (audio/?? container containing video) we have a blacklist here. -/
def blacklisted (name : String) : Bool :=
  strcasecmpEq name "audio/mpeg" || strcasecmpEq name "audio/amr" || strcasecmpEq name "audio/amr-wb"

/-- A call of `gst_caps_get_structure`, on the caps that the callback was given or on others. -/
structure Ask where
  given : Bool
  index : UInt32

/-- The variables of the loop. `given` tells whether `caps` is still the argument, and `asked`
is what the loop has asked for. -/
structure Continuing where
  i : UInt32
  caps : GstCaps
  given : Bool
  asked : List Ask

namespace Continuing

def start (caps : GstCaps) : Continuing := ⟨caps.getSize - 1, caps, true, []⟩

section
-- `(int)(width*scale)` and `(int)(height*scale)`
variable (scaled : Int → Int → Int × Int)

def turn (s : Continuing) : Continuing :=
  let next := { s with i := s.i - 1, asked := s.asked ++ [⟨s.given, s.i⟩] }
  match (s.caps.getStructure s.i).bind GstStructure.size with
  | none => next
  | some (width, height) => { next with caps := .newSimple "video/x-raw-rgb" (scaled width height), given := false }

def step (s : Continuing) : Option Continuing := if s.i ≥ 0 then some (s.turn scaled) else none

end

end Continuing

/-- The answer, and what the loop has asked for. The name of no structure is NULL, and
cannot be compared. -/
def streamContinueCallback (scaled : Int → Int → Int × Int) (fuel : Nat) (caps : GstCaps) :
    Option (Bool × List Ask) :=
  (caps.getStructure 0).bind fun str =>
    if blacklisted str.name then some (false, [])
    else (WhileLoop.exec (Continuing.step scaled) fuel (Continuing.start caps)).map fun s => (true, s.asked)

def Ask.InRange (caps : GstCaps) (ask : Ask) : Prop := ask.given = true ∧ ask.index.toNat < caps.structures.length

/-- The callback gets through its loop, and the loop asks for structures of the given caps. -/
def Continues (scaled : Int → Int → Int × Int) (caps : GstCaps) : Prop :=
  ∃ fuel continues asked, streamContinueCallback scaled fuel caps = some (continues, asked) ∧
    ∀ ask ∈ asked, ask.InRange caps

section
variable {scaled : Int → Int → Int × Int} {caps : GstCaps} {s : Continuing}

namespace Continuing

/-- No unsigned index is below zero. -/
theorem not_ends (s : Continuing) : ¬ WhileLoop.Ends (step scaled) s := by
  have hturn : ∀ s : Continuing, True → ∃ t, step scaled s = some t ∧ True :=
    fun s _ => ⟨s.turn scaled, if_pos (UInt32.zero_le), trivial⟩
  exact WhileLoop.not_ends_of_invariant hturn trivial

end Continuing

theorem getStructure_zero (caps : GstCaps) : caps.getStructure 0 = caps.structures.head? :=
  List.head?_eq_getElem?.symm

theorem blacklisted_of_continues (h : Continues scaled caps) :
    ∃ str, caps.structures.head? = some str ∧ blacklisted str.name = true := by
  obtain ⟨fuel, continues, asked, hreturn, _⟩ := h
  obtain ⟨str, hstr, hanswer⟩ := Option.bind_eq_some_iff.mp hreturn
  refine ⟨str, getStructure_zero caps ▸ hstr, ?_⟩
  by_contra hname
  rw [if_neg hname] at hanswer
  obtain ⟨s, hends, _⟩ := Option.map_eq_some_iff.mp hanswer
  exact Continuing.not_ends _ ⟨s, fuel, hends⟩

/-- No call comes out of the loop, so that the callback must not get there. -/
theorem continues_iff (scaled : Int → Int → Int × Int) (caps : GstCaps) :
    Continues scaled caps ↔ ∃ str, caps.structures.head? = some str ∧ blacklisted str.name = true := by
  constructor
  · exact blacklisted_of_continues
  · rintro ⟨str, hstr, hname⟩
    refine ⟨0, false, [], ?_, fun ask hask => nomatch hask⟩
    rw [streamContinueCallback, getStructure_zero, hstr, Option.bind_some, if_pos hname]

theorem not_continues : ¬ ∀ (scaled : Int → Int → Int × Int) (caps : GstCaps), Continues scaled caps := by
  intro hall
  obtain ⟨str, hstr, hname⟩ := blacklisted_of_continues
    (hall (fun _ _ => (341, 256)) (.newSimple "video/x-raw-yuv" (640, 480)))
  obtain rfl := Option.some.inj hstr
  have hvideo : blacklisted "video/x-raw-yuv" = false := rfl
  exact Bool.false_ne_true (hvideo.symm.trans hname)

end

end ThumberPipe

end HildonThumbnail
