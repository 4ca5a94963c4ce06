import Mathlib.Data.List.DropRight

/-! The clean-up of artist and album names (`strip_characters` in daemon/utils.c). -/

namespace HildonThumbnail

/-- The positions of the first opening character and of the next closing one. -/
def stripFindNextBlock (original : List Char) (openChar closeChar : Char) : Option (Nat × Nat) :=
  match original.findIdx? (· == openChar) with
  | none => none
  | some p1 =>
    ((original.drop (p1 + 1)).findIdx? (· == closeChar)).map fun k => (p1, p1 + 1 + k)

def blocks : List (Char × Char) := [('(', ')'), ('{', '}'), ('[', ']'), ('<', '>')]

def earliestBlock (p : List Char) : Option (Nat × Nat) :=
  blocks.foldl (fun pos b =>
    match stripFindNextBlock p b.1 b.2, pos with
    | none, _ => pos
    | some new, none => some new
    | some new, some old => if new.1 < old.1 then some new else some old) none

def stripBlocks (p : List Char) : List Char :=
  match _h : earliestBlock p with
  | none => p
  | some (pos1, pos2) =>
    let rest := p.drop (pos2 + 1)
    p.take pos1 ++ if rest = [] then [] else stripBlocks rest
termination_by p.length
decreasing_by
  have hp : p ≠ [] := by
    rintro rfl
    have hnil : earliestBlock [] = none := rfl
    simp [hnil] at _h
  have hlen := List.length_pos_iff.mpr hp
  rw [List.length_drop]
  omega

def gStrdelimit (s delimiters : List Char) (newDelimiter : Char) : List Char :=
  s.map fun c => if c ∈ delimiters then newDelimiter else c

/-- What stands before and after the first occurrence of the needle. -/
def strstr (needle : List Char) : List Char → Option (List Char × List Char)
  | [] => if needle = [] then some ([], []) else none
  | c :: s =>
    if needle.isPrefixOf (c :: s) then some ([], (c :: s).drop needle.length)
    else (strstr needle s).map fun found => (c :: found.1, found.2)

/-- The loop of `g_strsplit`; each turn takes at least one character. -/
def splitTokens (delimiter : List Char) : Nat → List Char → List (List Char)
  | 0, s => [s]
  | n + 1, s =>
    match strstr delimiter s with
    | none => [s]
    | some (token, remainder) => token :: splitTokens delimiter n remainder

def gStrsplit (s delimiter : List Char) : List (List Char) :=
  if s = [] then [] else splitTokens delimiter s.length s

def gStrjoinv (separator : List Char) (strv : List (List Char)) : List Char := separator.intercalate strv

def gAsciiIsspace (c : Char) : Bool := c ∈ [' ', '\t', '\n', '\x0c', '\r']

def gStrstrip (s : List Char) : List Char := (s.dropWhile gAsciiIsspace).rdropWhile gAsciiIsspace

def invalidChars : List Char := "()[]<>{}_!@#$^&*+=|\\/\"'?~".toList

def stripCharacters (utf8Strdown : String → String) (original : String) : String :=
  let str := (utf8Strdown (String.ofList (stripBlocks original.toList))).toList
  let str := gStrdelimit str invalidChars '*'
  let str := gStrjoinv [] (gStrsplit str ['*'])
  let str := gStrdelimit str ['\t'] ' '
  let str := gStrjoinv [' '] (gStrsplit str [' '])
  let str := gStrjoinv [' '] (gStrsplit str [' ', ' '])
  String.ofList (gStrstrip str)

end HildonThumbnail
