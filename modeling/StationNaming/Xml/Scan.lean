import StationNaming.Xml.Fault
import StationNaming.Xml.NameClass
/-!
# Scanning

The small readers that all markup is scanned with: names, references, comments, processing
instructions and quoted values.

**What is exact.** A reader takes the longest stretch it can and leaves the rest. It fails in one of
three ways: at a glyph that does not fit, at the end of the document, or at a character that is cut
off by that end; the last two are faults of the whole token.
-/

namespace StationNaming.Xml

/-! ## Results -/

/-- **Why a token cannot be scanned**: a glyph that does not fit, or a token that does not end. -/
inductive Flaw where
  | invalid (rest : List Glyph)
  | unclosed
  | cutShort
  deriving DecidableEq, Repr

/-- The fault of a flawed token that starts at `start`. -/
def Flaw.toFault (start : List Glyph) : Flaw → Fault
  | .invalid rest => ⟨.invalidToken, rest⟩
  | .unclosed => ⟨.unclosedToken, start⟩
  | .cutShort => ⟨.partialCharacter, start⟩

/-- The flaw of a glyph that fits nothing here. -/
def misfit : List Glyph → Flaw
  | [] => .unclosed
  | cs => .invalid cs

/-- The flaw of a glyph where any character might have stood. -/
def misread : List Glyph → Flaw
  | [] => .unclosed
  | .cut :: _ => .cutShort
  | cs => .invalid cs

/-! ## Names -/

/-- The name characters in front, and the rest. -/
def spanName : List Glyph → List Char × List Glyph
  | .char c :: cs =>
    if isNameChar c then (c :: (spanName cs).1, (spanName cs).2) else ([], .char c :: cs)
  | cs => ([], cs)

theorem length_spanName_le (cs : List Glyph) : (spanName cs).2.length ≤ cs.length := by
  fun_induction spanName cs <;> grind

/-- The characters of a name after its first one. -/
def scanNameRest (cs : List Glyph) : Except Flaw (List Char × List Glyph) :=
  match spanName cs with
  | (_, .cut :: _) => .error .cutShort
  | (name, rest) => .ok (name, rest)

theorem length_of_scanNameRest {cs rest : List Glyph} {name : List Char}
    (h : scanNameRest cs = .ok (name, rest)) : rest.length ≤ cs.length := by
  unfold scanNameRest at h
  have := length_spanName_le cs
  split at h <;> simp_all

/-- **A name without a colon.** -/
def scanName : List Glyph → Except Flaw (List Char × List Glyph)
  | .char c :: cs =>
    if isNameStart c then
      match scanNameRest cs with
      | .error flaw => .error flaw
      | .ok (name, rest) => .ok (c :: name, rest)
    else .error (.invalid (.char c :: cs))
  | cs => .error (misread cs)

theorem length_of_scanName {cs rest : List Glyph} {name : List Char}
    (h : scanName cs = .ok (name, rest)) : rest.length < cs.length := by
  unfold scanName at h
  grind [→ length_of_scanNameRest]

/-- **A name with at most one colon**, each side of which is a name. -/
def scanQName (cs : List Glyph) : Except Flaw (List Char × List Glyph) :=
  match scanName cs with
  | .ok (first, .char ':' :: rest) =>
    match scanName rest with
    | .error flaw => .error flaw
    | .ok (second, rest) => .ok (first ++ ':' :: second, rest)
  | scanned => scanned

theorem length_of_scanQName {cs rest : List Glyph} {name : List Char}
    (h : scanQName cs = .ok (name, rest)) : rest.length < cs.length := by
  unfold scanQName at h
  grind [→ length_of_scanName]

/-! ## References -/

/-- A reference after an ampersand. -/
inductive Reference where
  | character (code : Nat)
  | entity (name : String)
  deriving DecidableEq, Repr

/-- The value of a digit up to `f`. -/
def digitValue (c : Char) : Nat :=
  if c ≤ '9' then c.toNat - 48 else if c ≤ 'F' then c.toNat - 55 else c.toNat - 87

/-- A decimal digit. -/
def isDecimal (c : Char) : Bool := '0' ≤ c && c ≤ '9'

/-- A hexadecimal digit. -/
def isHexadecimal (c : Char) : Bool :=
  isDecimal c || ('a' ≤ c && c ≤ 'f') || ('A' ≤ c && c ≤ 'F')

/-- More digits of a character reference, and the semicolon. -/
def scanDigits (base : Nat) (isDigit : Char → Bool) (value : Nat) :
    List Glyph → Except Flaw (Reference × List Glyph)
  | .char c :: cs =>
    if isDigit c then scanDigits base isDigit (value * base + digitValue c) cs
    else if c == ';' then .ok (.character value, cs)
    else .error (.invalid (.char c :: cs))
  | cs => .error (misfit cs)

/-- The digits of a character reference, at least one, and the semicolon. -/
def scanNumber (base : Nat) (isDigit : Char → Bool) :
    List Glyph → Except Flaw (Reference × List Glyph)
  | .char c :: cs =>
    if isDigit c then scanDigits base isDigit (digitValue c) cs
    else .error (.invalid (.char c :: cs))
  | cs => .error (misfit cs)

theorem length_of_scanDigits {base value : Nat} {isDigit : Char → Bool} {cs rest : List Glyph}
    {r : Reference} (h : scanDigits base isDigit value cs = .ok (r, rest)) :
    rest.length < cs.length := by
  fun_induction scanDigits base isDigit value cs <;> grind

theorem length_of_scanNumber {base : Nat} {isDigit : Char → Bool} {cs rest : List Glyph}
    {r : Reference} (h : scanNumber base isDigit cs = .ok (r, rest)) :
    rest.length < cs.length := by
  unfold scanNumber at h
  grind [→ length_of_scanDigits]

/-- **A reference**, after its ampersand. -/
def scanReference : List Glyph → Except Flaw (Reference × List Glyph)
  | .char '#' :: .char 'x' :: cs => scanNumber 16 isHexadecimal cs
  | .char '#' :: cs => scanNumber 10 isDecimal cs
  | cs =>
    match scanName cs with
    | .error flaw => .error flaw
    | .ok (name, .char ';' :: rest) => .ok (.entity (String.ofList name), rest)
    | .ok (_, rest) => .error (misfit rest)

theorem length_of_scanReference {cs rest : List Glyph} {r : Reference}
    (h : scanReference cs = .ok (r, rest)) : rest.length < cs.length := by
  unfold scanReference at h
  grind [→ length_of_scanNumber, → length_of_scanName]

/-- The character that a reference to a code point stands for, if it may stand in a document. -/
def referenced? (code : Nat) : Option Char :=
  if code ≥ 0x110000 || (0xD800 ≤ code && code ≤ 0xDFFF) || code == 0xFFFE || code == 0xFFFF ||
    (code < 0x20 && code != 9 && code != 10 && code != 13) then none
  else some (Char.ofNat code)

/-- The five entities that every document has. -/
def predefined? : String → Option Char
  | "lt" => some '<'
  | "gt" => some '>'
  | "amp" => some '&'
  | "quot" => some '"'
  | "apos" => some '\''
  | _ => none

/-! ## Comments and instructions -/

/-- **A comment**, after its opening dashes; two dashes inside must be its end. -/
def skipComment : List Glyph → Except Flaw (List Glyph)
  | [] => .error .unclosed
  | .char '-' :: .char '-' :: .char '>' :: cs => .ok cs
  | .char '-' :: .char '-' :: cs => .error (misfit cs)
  | .char _ :: cs => skipComment cs
  | .bareReturn :: cs => skipComment cs
  | cs => .error (misread cs)

theorem length_of_skipComment {cs rest : List Glyph} (h : skipComment cs = .ok rest) :
    rest.length < cs.length := by
  fun_induction skipComment cs <;> grind

/-- A comment after the first of its opening dashes. -/
def scanComment : List Glyph → Except Flaw (List Glyph)
  | .char '-' :: cs => skipComment cs
  | cs => .error (misfit cs)

theorem length_of_scanComment {cs rest : List Glyph} (h : scanComment cs = .ok rest) :
    rest.length < cs.length := by
  unfold scanComment at h
  grind [→ length_of_skipComment]

/-- The rest after the end of a processing instruction. -/
def skipInstruction : List Glyph → Except Flaw (List Glyph)
  | [] => .error .unclosed
  | .char '?' :: .char '>' :: cs => .ok cs
  | .char _ :: cs => skipInstruction cs
  | .bareReturn :: cs => skipInstruction cs
  | cs => .error (misread cs)

theorem length_of_skipInstruction {cs rest : List Glyph} (h : skipInstruction cs = .ok rest) :
    rest.length < cs.length := by
  fun_induction skipInstruction cs <;> grind

/-- Whether an instruction is the XML declaration; other spellings of that name are not allowed. -/
def declares? (target : List Char) : Option Bool :=
  if target == ['x', 'm', 'l'] then some true
  else if target.map Char.toLower == ['x', 'm', 'l'] then none
  else some false

/-- The end of an instruction whose target is followed by `cs`. -/
def endInstruction : List Glyph → Except Flaw (List Glyph)
  | .char '?' :: .char '>' :: cs => .ok cs
  | .char '?' :: cs => .error (misfit cs)
  | .char c :: cs => if isSpace c then skipInstruction cs else .error (.invalid (.char c :: cs))
  | .bareReturn :: cs => skipInstruction cs
  | cs => .error (misfit cs)

theorem length_of_endInstruction {cs rest : List Glyph} (h : endInstruction cs = .ok rest) :
    rest.length < cs.length := by
  unfold endInstruction at h
  grind [→ length_of_skipInstruction]

/-- Whether the name of an instruction can end here. -/
def endsTarget : List Glyph → Bool
  | .char c :: _ => isSpace c || c == '?'
  | .bareReturn :: _ => true
  | _ => false

/-- **A processing instruction** after its opening mark, and whether it is the XML declaration. -/
def scanInstruction (cs : List Glyph) : Except Flaw (Bool × List Glyph) :=
  match scanName cs with
  | .error flaw => .error flaw
  | .ok (target, rest) =>
    if endsTarget rest then
      match declares? target with
      | none => .error (.invalid rest)
      | some isDeclaration =>
        match endInstruction rest with
        | .error flaw => .error flaw
        | .ok rest => .ok (isDeclaration, rest)
    else .error (misfit rest)

theorem length_of_scanInstruction {cs rest : List Glyph} {b : Bool}
    (h : scanInstruction cs = .ok (b, rest)) : rest.length < cs.length := by
  unfold scanInstruction at h
  grind [→ length_of_scanName, → length_of_endInstruction]

end StationNaming.Xml
