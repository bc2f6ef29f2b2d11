import StationNaming.Unicode.LetterCase
/-!
# Pattern fragments

A search term is kept as a fragment of a pattern: a backslash makes the next character literal,
`.*` stands for any run of characters, `.` for exactly one, and every other character for itself up
to case.

**What is exact.** `Fragment.parts` reads a fragment left to right, and `occursIn` holds when some
stretch of a text matches it. Between two runs of any length only fixed cells remain, so it is
enough to look for the leftmost place of each block of cells in turn.
-/

namespace StationNaming.Search

open StationNaming.Unicode (sameLetter)

/-! ## Writing fragments -/

/-- A character of an escaped token as the fragment shows it. -/
def expandChar (c : Char) : List Char :=
  if c == '*' then ['.', '*'] else if c == '?' then ['.'] else [c]

/-- **The fragment for an escaped token.** -/
def expand (token : List Char) : List Char := token.flatMap expandChar

/-! ## Reading fragments -/

/-- One place of a text: a letter, or any character. -/
inductive Cell where
  | letter (c : Char)
  | any
  deriving DecidableEq, Repr

/-- A part of a fragment: one place, or a run of any length. -/
inductive Part where
  | cell (c : Cell)
  | run
  deriving DecidableEq, Repr

/-- **The parts of a fragment.** A backslash at the very end is a letter. -/
def parts : List Char → List Part
  | [] => []
  | '\\' :: c :: cs => .cell (.letter c) :: parts cs
  | '.' :: '*' :: cs => .run :: parts cs
  | '.' :: cs => .cell .any :: parts cs
  | c :: cs => .cell (.letter c) :: parts cs

/-- The blocks of cells between the runs; there is one more of them than there are runs. -/
def blocks : List Part → List (List Cell)
  | [] => [[]]
  | .run :: ps => [] :: blocks ps
  | .cell c :: ps =>
    match blocks ps with
    | [] => [[c]]
    | b :: bs => (c :: b) :: bs

/-! ## Matching -/

/-- Whether a cell takes a character. -/
def Cell.takes : Cell → Char → Bool
  | .any, _ => true
  | .letter c, d => sameLetter c d

/-- What is left of a text that starts with a block. -/
def stripBlock? : List Cell → List Char → Option (List Char)
  | [], cs => some cs
  | _ :: _, [] => none
  | b :: bs, c :: cs => if b.takes c then stripBlock? bs cs else none

/-- What is left of a text after the leftmost place of a block in it. -/
def findBlock? (block : List Cell) : List Char → Option (List Char)
  | [] => stripBlock? block []
  | c :: cs =>
    match stripBlock? block (c :: cs) with
    | some rest => some rest
    | none => findBlock? block cs

/-- Whether a text holds the blocks one after the other. -/
def holdsBlocks : List (List Cell) → List Char → Bool
  | [], _ => true
  | b :: bs, cs =>
    match findBlock? b cs with
    | some rest => holdsBlocks bs rest
    | none => false

/-- **Whether some stretch of a text matches a fragment.** -/
def occursIn (fragment : List Char) (text : List Char) : Bool :=
  holdsBlocks (blocks (parts fragment)) text

end StationNaming.Search
