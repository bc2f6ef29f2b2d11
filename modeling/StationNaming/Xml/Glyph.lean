/-!
# Glyphs and positions

A document is read as a list of glyphs: characters, and the places where the bytes of the file spell
no character. Keeping these places in the list lets an error be reported only when reading comes to
it.

**What is exact.** Lines are counted from 1 and columns from 0. A line feed, a carriage return and
the two together each end one line; every other glyph, the byte order mark included, is one column.
In the text of an entity a carriage return ends no line, as line ends were made line feeds when the
entity was declared.
-/

namespace StationNaming.Xml

/-- **A unit of a document**: a character, a carriage return that ends no line, bytes that spell no
character, or a character whose last bytes are missing at the end of the file. -/
inductive Glyph where
  | char (c : Char)
  | bareReturn
  | malformed
  | cut
  deriving DecidableEq, Repr

/-- The glyphs of a text. -/
def glyphs (cs : List Char) : List Glyph := cs.map .char

/-- **The glyphs of an entity's text**, in which no carriage return ends a line. -/
def entityGlyphs (cs : List Char) : List Glyph :=
  cs.map fun c => if c == '\r' then .bareReturn else .char c

/-- White space between the parts of a tag. -/
def isSpace (c : Char) : Bool := c == ' ' || c == '\t' || c == '\n' || c == '\r'

/-- The glyphs after any white space. -/
def dropSpace : List Glyph → List Glyph
  | .char c :: cs => if isSpace c then dropSpace cs else .char c :: cs
  | .bareReturn :: cs => dropSpace cs
  | cs => cs

theorem length_dropSpace_le (cs : List Glyph) : (dropSpace cs).length ≤ cs.length := by
  fun_induction dropSpace cs <;> grind

/-! ## Positions -/

/-- **A place in a document.** -/
structure Position where
  line : Nat := 1
  column : Nat := 0
  deriving DecidableEq, Repr

/-- The place reached after some glyphs. -/
def Position.after (p : Position) : List Glyph → Position
  | [] => p
  | .char '\r' :: .char '\n' :: cs => Position.after ⟨p.line + 1, 0⟩ cs
  | .char '\r' :: cs => Position.after ⟨p.line + 1, 0⟩ cs
  | .char '\n' :: cs => Position.after ⟨p.line + 1, 0⟩ cs
  | _ :: cs => Position.after ⟨p.line, p.column + 1⟩ cs

/-- **The place where a rest of a document begins.** -/
def Position.of (document rest : List Glyph) : Position :=
  Position.after {} (document.take (document.length - rest.length))

end StationNaming.Xml
