import StationNaming.Xml.Scan
/-!
# Tokens outside the root element

Before and after the root element, and inside a document type declaration, a document is a sequence
of white space, comments, instructions, declarations, names, literals and single marks.

**What is exact.** A name must be followed by white space or by a mark that may follow a name; a
literal likewise. White space is one token however long it is.
-/

namespace StationNaming.Xml

/-- The single marks of a declaration. -/
inductive Mark where
  | comma
  | bar
  | openBracket
  | closeBracket
  | openParen
  | closeParen
  | closeParenStar
  | closeParenQuestion
  | closeParenPlus
  | percent
  | close
  | openSection
  | closeSection
  deriving DecidableEq, Repr

/-- **A token outside the root element.** -/
inductive PrologToken where
  | space
  | ignored
  | xmlDeclaration (content : List Glyph)
  | opening (keyword : String)
  | rootStart
  | name (s : String)
  | qualified (s : String)
  | nameToken (s : String)
  | repeated (s : String)
  | pound (s : String)
  | literal (content rest : List Glyph)
  | parameter (s : String)
  | mark (m : Mark)
  deriving Repr

/-! ## Small readers -/

/-- A declaration's keyword, after its opening mark. -/
def spanKeyword : List Glyph → List Char × List Glyph
  | .char c :: cs =>
    if c.toNat < 0x80 && isNameStart c then (c :: (spanKeyword cs).1, (spanKeyword cs).2)
    else ([], .char c :: cs)
  | cs => ([], cs)

theorem length_spanKeyword_le (cs : List Glyph) : (spanKeyword cs).2.length ≤ cs.length := by
  fun_induction spanKeyword cs <;> grind

theorem length_of_spanKeyword_cons {cs rest : List Glyph} {keyword : List Char}
    (h : spanKeyword cs = (keyword, rest)) (hne : keyword ≠ []) : rest.length < cs.length := by
  unfold spanKeyword at h
  split at h
  · next c cs' =>
    have := length_spanKeyword_le cs'
    grind
  · grind

/-- Whether a keyword can end before these glyphs; a parameter entity may begin right after it. -/
def endsKeyword : List Glyph → Except Flaw Unit
  | [] => .error .unclosed
  | [.char '%'] => .error .unclosed
  | .char '%' :: .char c :: cs =>
    if isSpace c || c == '%' then .error (.invalid (.char '%' :: .char c :: cs)) else .ok ()
  | .char c :: cs =>
    if isSpace c || c == '%' then .ok () else .error (.invalid (.char c :: cs))
  | cs => .error (.invalid cs)

/-- **The opening of a declaration**, after its bracket and exclamation mark. -/
def scanOpening (cs : List Glyph) : Except Flaw (PrologToken × List Glyph) :=
  match cs with
  | .char '-' :: rest =>
    match scanComment rest with
    | .error flaw => .error flaw
    | .ok rest => .ok (.ignored, rest)
  | .char '[' :: rest => .ok (.mark .openSection, rest)
  | _ =>
    match spanKeyword cs with
    | ([], rest) => .error (misfit rest)
    | (keyword, rest) =>
      match endsKeyword rest with
      | .error flaw => .error flaw
      | .ok () => .ok (.opening (String.ofList keyword), rest)

theorem length_of_scanOpening {cs rest : List Glyph} {t : PrologToken}
    (h : scanOpening cs = .ok (t, rest)) : rest.length < cs.length := by
  unfold scanOpening at h
  split at h
  · grind [→ length_of_scanComment]
  · grind
  · split at h
    · simp at h
    · next keyword rest' hne hs =>
      split at h
      · simp at h
      · simp only [Except.ok.injEq, Prod.mk.injEq] at h
        rw [← h.2]
        exact length_of_spanKeyword_cons hs (by simpa using hne)

/-- The glyphs of an XML declaration between its name and its end, which is two glyphs before
`rest`; `cs` begins with the name. -/
def declarationContent (cs rest : List Glyph) : List Glyph :=
  (cs.drop 3).take (cs.length - 5 - rest.length)

/-- An instruction outside the root element. -/
def scanPrologInstruction (cs : List Glyph) : Except Flaw (PrologToken × List Glyph) :=
  match scanInstruction cs with
  | .error flaw => .error flaw
  | .ok (true, rest) => .ok (.xmlDeclaration (declarationContent cs rest), rest)
  | .ok (false, rest) => .ok (.ignored, rest)

theorem length_of_scanPrologInstruction {cs rest : List Glyph} {t : PrologToken}
    (h : scanPrologInstruction cs = .ok (t, rest)) : rest.length < cs.length := by
  unfold scanPrologInstruction at h
  grind [→ length_of_scanInstruction]

/-- Whether a literal can end before these glyphs. -/
def endsLiteral : List Glyph → Bool
  | [] => true
  | .char c :: _ => isSpace c || c == '>' || c == '%' || c == '['
  | _ => false

/-- A literal after its opening quote: its glyphs and what follows its closing quote. -/
def spanLiteral (quote : Char) : List Glyph → Except Flaw (List Glyph × List Glyph)
  | [] => .error .unclosed
  | .char c :: cs =>
    if c == quote then .ok ([], cs)
    else
      match spanLiteral quote cs with
      | .error flaw => .error flaw
      | .ok (content, rest) => .ok (.char c :: content, rest)
  | cs => .error (misread cs)

theorem length_of_spanLiteral {quote : Char} {cs content rest : List Glyph}
    (h : spanLiteral quote cs = .ok (content, rest)) : rest.length < cs.length := by
  fun_induction spanLiteral quote cs generalizing content rest <;> grind

/-- **A literal**, after its opening quote. -/
def scanLiteral (quote : Char) (cs : List Glyph) : Except Flaw (PrologToken × List Glyph) :=
  match spanLiteral quote cs with
  | .error flaw => .error flaw
  | .ok (content, rest) =>
    if endsLiteral rest then .ok (.literal content (.char quote :: rest), rest)
    else .error (.invalid rest)

theorem length_of_scanLiteral {quote : Char} {cs rest : List Glyph} {t : PrologToken}
    (h : scanLiteral quote cs = .ok (t, rest)) : rest.length < cs.length := by
  unfold scanLiteral at h
  grind [→ length_of_spanLiteral]

/-- A percent sign, or a reference to a parameter entity, after the sign. -/
def scanPercent : List Glyph → Except Flaw (PrologToken × List Glyph)
  | .char c :: cs =>
    if isSpace c || c == '%' then .ok (.mark .percent, .char c :: cs)
    else
      match scanName (.char c :: cs) with
      | .error flaw => .error flaw
      | .ok (name, .char ';' :: rest) => .ok (.parameter (String.ofList name), rest)
      | .ok (_, rest) => .error (misfit rest)
  | cs => .error (misread cs)

theorem length_of_scanPercent {cs rest : List Glyph} {t : PrologToken}
    (h : scanPercent cs = .ok (t, rest)) : rest.length ≤ cs.length := by
  unfold scanPercent at h
  grind [→ length_of_scanName]

/-- Whether a name after a number sign can end before these glyphs. -/
def endsPound : List Glyph → Bool
  | [] => true
  | .char c :: _ => isSpace c || c == ')' || c == '>' || c == '%' || c == '|'
  | _ => false

/-- A name after a number sign. -/
def scanPound (cs : List Glyph) : Except Flaw (PrologToken × List Glyph) :=
  match scanName cs with
  | .error flaw => .error flaw
  | .ok (name, rest) =>
    if endsPound rest then .ok (.pound (String.ofList name), rest) else .error (.invalid rest)

theorem length_of_scanPound {cs rest : List Glyph} {t : PrologToken}
    (h : scanPound cs = .ok (t, rest)) : rest.length < cs.length := by
  unfold scanPound at h
  grind [→ length_of_scanName]

/-- A closing parenthesis, after it. -/
def scanCloseParen : List Glyph → Except Flaw (PrologToken × List Glyph)
  | [] => .ok (.mark .closeParen, [])
  | .char '*' :: cs => .ok (.mark .closeParenStar, cs)
  | .char '?' :: cs => .ok (.mark .closeParenQuestion, cs)
  | .char '+' :: cs => .ok (.mark .closeParenPlus, cs)
  | .char c :: cs =>
    if isSpace c || c == '>' || c == ',' || c == '|' || c == ')' then
      .ok (.mark .closeParen, .char c :: cs)
    else .error (.invalid (.char c :: cs))
  | cs => .error (.invalid cs)

theorem length_of_scanCloseParen {cs rest : List Glyph} {t : PrologToken}
    (h : scanCloseParen cs = .ok (t, rest)) : rest.length ≤ cs.length := by
  unfold scanCloseParen at h
  grind

/-- A closing bracket, after it; two and a closing angle bracket end a conditional section. -/
def scanCloseBracket : List Glyph → Except Flaw (PrologToken × List Glyph)
  | .char ']' :: .char '>' :: cs => .ok (.mark .closeSection, cs)
  | [.char ']'] => .error .unclosed
  | cs => .ok (.mark .closeBracket, cs)

theorem length_of_scanCloseBracket {cs rest : List Glyph} {t : PrologToken}
    (h : scanCloseBracket cs = .ok (t, rest)) : rest.length ≤ cs.length := by
  unfold scanCloseBracket at h
  grind

/-! ## Names -/

/-- The kinds of names, by the colons in them. -/
inductive NameKind where
  | plain
  | qualified
  | token
  deriving DecidableEq, Repr

/-- The kind of name after a colon, given what follows it. -/
def NameKind.colon : NameKind → List Glyph → NameKind
  | .plain, .char c :: _ => if isNameChar c then .qualified else .token
  | .plain, _ => .token
  | _, _ => .token

/-- The token of a name. -/
def NameKind.token? (kind : NameKind) (name : List Char) : PrologToken :=
  match kind with
  | .plain => .name (String.ofList name)
  | .qualified => .qualified (String.ofList name)
  | .token => .nameToken (String.ofList name)

/-- Whether a name can end before this character. -/
def endsName (c : Char) : Bool :=
  isSpace c || c == '>' || c == ')' || c == ',' || c == '|' || c == '[' || c == '%'

/-- **The rest of a name**, with its first characters in `acc`, last one first. -/
def scanPrologName (kind : NameKind) (acc : List Char) :
    List Glyph → Except Flaw (PrologToken × List Glyph)
  | [] => .ok (kind.token? acc.reverse, [])
  | .char c :: cs =>
    if isNameChar c then scanPrologName kind (c :: acc) cs
    else if c == ':' then
      if kind = .plain && cs.isEmpty then .error .unclosed
      else if kind = .plain && cs.head? == some .cut then .error .cutShort
      else scanPrologName (kind.colon cs) (c :: acc) cs
    else if endsName c then .ok (kind.token? acc.reverse, .char c :: cs)
    else if c == '+' || c == '*' || c == '?' then
      if kind = .token then .error (.invalid (.char c :: cs))
      else .ok (.repeated (String.ofList acc.reverse), cs)
    else .error (.invalid (.char c :: cs))
  | cs => .error (misread cs)

theorem length_of_scanPrologName {kind : NameKind} {acc : List Char} {cs rest : List Glyph}
    {t : PrologToken} (h : scanPrologName kind acc cs = .ok (t, rest)) :
    rest.length ≤ cs.length := by
  induction cs generalizing kind acc with
  | nil =>
    unfold scanPrologName at h
    grind
  | cons g cs ih =>
    unfold scanPrologName at h
    grind

/-! ## All tokens -/

/-- Whether a bracket here starts the root element. -/
def startsRoot : List Glyph → Bool
  | .char c :: _ => isNameStart c || 0x80 ≤ c.toNat
  | .cut :: _ => true
  | _ => false

/-- A token that starts with an angle bracket, given what follows it. -/
def scanAngle (cs rest : List Glyph) : Except Flaw (PrologToken × List Glyph) :=
  match rest with
  | .char '!' :: rest => scanOpening rest
  | .char '?' :: rest => scanPrologInstruction rest
  | _ => if startsRoot rest then .ok (.rootStart, cs) else .error (misfit rest)

/-- **The next token outside the root element.** The start of the root element is left in place. -/
def scanProlog (cs : List Glyph) : Except Flaw (PrologToken × List Glyph) :=
  match cs with
  | .char '<' :: rest => scanAngle cs rest
  | .char '"' :: rest => scanLiteral '"' rest
  | .char '\'' :: rest => scanLiteral '\'' rest
  | .char '%' :: rest => scanPercent rest
  | .char ',' :: rest => .ok (.mark .comma, rest)
  | .char '[' :: rest => .ok (.mark .openBracket, rest)
  | .char ']' :: rest => scanCloseBracket rest
  | .char '(' :: rest => .ok (.mark .openParen, rest)
  | .char ')' :: rest => scanCloseParen rest
  | .char '|' :: rest => .ok (.mark .bar, rest)
  | .char '>' :: rest => .ok (.mark .close, rest)
  | .char '#' :: rest => scanPound rest
  | .char c :: rest =>
    if isSpace c then .ok (.space, dropSpace rest)
    else if isNameStart c then scanPrologName .plain [c] rest
    else if isNameChar c || c == ':' then scanPrologName .token [c] rest
    else .error (.invalid cs)
  | cs => .error (misread cs)

/-- Whether a token is the start of the root element. -/
def PrologToken.isRootStart : PrologToken → Bool
  | .rootStart => true
  | _ => false

theorem length_of_scanAngle {cs rest rest' : List Glyph} {t : PrologToken}
    (h : scanAngle cs rest = .ok (t, rest')) (ht : t.isRootStart = false) :
    rest'.length < rest.length := by
  unfold scanAngle at h
  split at h
  · have := length_of_scanOpening h; grind
  · have := length_of_scanPrologInstruction h; grind
  · grind [PrologToken.isRootStart]

/-- **Every token but the start of the root element takes at least one glyph.** -/
theorem length_of_scanProlog {cs rest : List Glyph} {t : PrologToken}
    (h : scanProlog cs = .ok (t, rest)) (ht : t.isRootStart = false) :
    rest.length < cs.length := by
  unfold scanProlog at h
  split at h
  · have := length_of_scanAngle h ht; grind
  · have := length_of_scanLiteral h; grind
  · have := length_of_scanLiteral h; grind
  · have := length_of_scanPercent h; grind
  · grind
  · grind
  · have := length_of_scanCloseBracket h; grind
  · grind
  · have := length_of_scanCloseParen h; grind
  · grind
  · grind
  · have := length_of_scanPound h; grind
  · grind [length_dropSpace_le, → length_of_scanPrologName]
  · simp at h

end StationNaming.Xml
