import StationNaming.Xml.Scan
/-!
# Tokens of element content

Between the start and the end of the root element a document is a sequence of tags, references,
text, comments, instructions and literal sections.

**What is exact.** Attribute names and the values after them are kept as glyphs together with what
follows, so that a fault inside a value has a place. The order of the checks is the order of the
glyphs: an attribute must be followed by white space or the end of its tag, and a value may
hold no opening angle bracket.
-/

namespace StationNaming.Xml

/-! ## Attributes of a tag -/

/-- **An attribute as it is written**: where its name starts, the name, the glyphs of its value, and
what follows the value. -/
structure RawAttribute where
  start : List Glyph
  name : String
  value : List Glyph
  rest : List Glyph
  deriving DecidableEq, Repr

/-- The glyphs up to a closing quote, and the rest from that quote on. -/
def scanValue (quote : Char) : List Glyph → Except Flaw (List Glyph × List Glyph)
  | [] => .error .unclosed
  | .char c :: cs =>
    if c == quote then .ok ([], .char c :: cs)
    else if c == '<' then .error (.invalid (.char c :: cs))
    else if c == '&' then
      match scanReference cs with
      | .error flaw => .error flaw
      | .ok _ =>
        match scanValue quote cs with
        | .error flaw => .error flaw
        | .ok (value, rest) => .ok (.char c :: value, rest)
    else
      match scanValue quote cs with
      | .error flaw => .error flaw
      | .ok (value, rest) => .ok (.char c :: value, rest)
  | .bareReturn :: cs =>
    match scanValue quote cs with
    | .error flaw => .error flaw
    | .ok (value, rest) => .ok (.bareReturn :: value, rest)
  | cs => .error (misread cs)

theorem length_of_scanValue {quote : Char} {cs value rest : List Glyph}
    (h : scanValue quote cs = .ok (value, rest)) : rest.length ≤ cs.length := by
  fun_induction scanValue quote cs generalizing value rest <;> grind

/-- The glyphs after an equals sign and white space around it. -/
def afterEquals (cs : List Glyph) : Except Flaw (List Glyph) :=
  match dropSpace cs with
  | .char '=' :: rest => .ok (dropSpace rest)
  | rest => .error (misfit rest)

theorem length_of_afterEquals {cs rest : List Glyph} (h : afterEquals cs = .ok rest) :
    rest.length < cs.length := by
  unfold afterEquals at h
  have h1 := length_dropSpace_le cs
  split at h
  · next r hr =>
    have h2 := length_dropSpace_le r
    simp only [Except.ok.injEq] at h
    simp only [hr, List.length_cons] at h1
    subst h
    omega
  · simp at h

/-- A value in quotes of either kind, and what follows its closing quote. -/
def scanQuoted : List Glyph → Except Flaw ((List Glyph × List Glyph) × List Glyph)
  | .char c :: cs =>
    if c == '"' || c == '\'' then
      match scanValue c cs with
      | .ok (value, quote :: rest) => .ok ((value, quote :: rest), rest)
      | .ok (_, []) => .error .unclosed
      | .error flaw => .error flaw
    else .error (.invalid (.char c :: cs))
  | cs => .error (misfit cs)

theorem length_of_scanQuoted {cs rest : List Glyph} {v : List Glyph × List Glyph}
    (h : scanQuoted cs = .ok (v, rest)) : rest.length < cs.length := by
  unfold scanQuoted at h
  grind [→ length_of_scanValue]

/-- **One attribute**, and what follows its closing quote. -/
def scanAttribute (cs : List Glyph) : Except Flaw (RawAttribute × List Glyph) :=
  match scanQName cs with
  | .error flaw => .error flaw
  | .ok (name, rest) =>
    match afterEquals rest with
    | .error flaw => .error flaw
    | .ok rest =>
      match scanQuoted rest with
      | .error flaw => .error flaw
      | .ok ((value, after), rest) => .ok (⟨cs, String.ofList name, value, after⟩, rest)

theorem length_of_scanAttribute {cs rest : List Glyph} {a : RawAttribute}
    (h : scanAttribute cs = .ok (a, rest)) : rest.length < cs.length := by
  unfold scanAttribute at h
  grind [→ length_of_scanQName, → length_of_afterEquals, → length_of_scanQuoted]

/-- What is said about the end of a tag: its attributes, and whether the element is empty. -/
abbrev TagEnd := List RawAttribute × Bool

/-- The glyphs after the bracket that ends an empty element, after its slash. -/
def endEmpty : List Glyph → Except Flaw (TagEnd × List Glyph)
  | .char '>' :: cs => .ok (([], true), cs)
  | cs => .error (misfit cs)

theorem length_of_endEmpty {cs rest : List Glyph} {e : TagEnd} (h : endEmpty cs = .ok (e, rest)) :
    rest.length < cs.length := by
  unfold endEmpty at h
  grind

/-- **The attributes of a tag and its end**; `spaced` says whether white space precedes. -/
def scanAttributes (spaced : Bool) (cs : List Glyph) : Except Flaw (TagEnd × List Glyph) :=
  match cs with
  | .char '>' :: rest => .ok (([], false), rest)
  | .char '/' :: rest => endEmpty rest
  | .char c :: rest =>
    if isSpace c then scanAttributes true rest
    else if spaced then
      match _h : scanAttribute (.char c :: rest) with
      | .error flaw => .error flaw
      | .ok (a, rest') =>
        match scanAttributes false rest' with
        | .error flaw => .error flaw
        | .ok ((more, isEmpty), rest'') => .ok ((a :: more, isEmpty), rest'')
    else .error (.invalid (.char c :: rest))
  | .bareReturn :: rest => scanAttributes true rest
  | .cut :: _ => .error (if spaced then .cutShort else .invalid cs)
  | cs => .error (misfit cs)
  termination_by cs.length
  decreasing_by
    · simp
    · exact length_of_scanAttribute _h
    · simp

theorem length_of_scanAttributes {spaced : Bool} {cs rest : List Glyph} {e : TagEnd}
    (h : scanAttributes spaced cs = .ok (e, rest)) : rest.length < cs.length := by
  fun_induction scanAttributes spaced cs generalizing e rest <;>
    grind [→ length_of_endEmpty, → length_of_scanAttribute]

/-! ## Text -/

/-- Whether a character ends a run of text. -/
def endsText (c : Char) : Bool := c == '<' || c == '&' || c == '\r' || c == '\n'

/-- **A run of text**; the mark that ends a literal section must not stand in it. -/
def scanText : List Glyph → Except Flaw (List Char × List Glyph)
  | .char ']' :: .char ']' :: .char '>' :: cs => .error (.invalid (.char '>' :: cs))
  | .char c :: cs =>
    if endsText c then .ok ([], .char c :: cs)
    else
      match scanText cs with
      | .error flaw => .error flaw
      | .ok (text, rest) => .ok (c :: text, rest)
  | .bareReturn :: cs =>
    match scanText cs with
    | .error flaw => .error flaw
    | .ok (text, rest) => .ok ('\r' :: text, rest)
  | cs => .ok ([], cs)

theorem length_of_scanText {cs rest : List Glyph} {text : List Char}
    (h : scanText cs = .ok (text, rest)) : rest.length ≤ cs.length := by
  fun_induction scanText cs generalizing text rest <;> grind

theorem length_of_scanText_cons {cs rest : List Glyph} {text : List Char}
    (h : scanText cs = .ok (text, rest)) (hne : text ≠ []) : rest.length < cs.length := by
  unfold scanText at h
  split at h
  · simp at h
  · next c cs' _ =>
    split at h
    · grind
    · split at h
      · simp at h
      · next hs =>
        have := length_of_scanText hs
        grind
  · grind [→ length_of_scanText]
  · grind

/-- **A literal section** after its opening mark; line ends are line feeds. -/
def scanLiteralSection : List Glyph → Except Fault (List Char × List Glyph)
  | [] => .error ⟨.unclosedCData, []⟩
  | .char ']' :: .char ']' :: .char '>' :: cs => .ok ([], cs)
  | [.char ']', .char ']'] => .error ⟨.unclosedCData, [.char ']', .char ']']⟩
  | [.char ']'] => .error ⟨.unclosedCData, [.char ']']⟩
  | [.char '\r'] => .error ⟨.unclosedCData, [.char '\r']⟩
  | .char '\r' :: .char '\n' :: cs =>
    match scanLiteralSection cs with
    | .error fault => .error fault
    | .ok (text, rest) => .ok ('\n' :: text, rest)
  | .char c :: cs =>
    match scanLiteralSection cs with
    | .error fault => .error fault
    | .ok (text, rest) => .ok ((if c == '\r' then '\n' else c) :: text, rest)
  | .bareReturn :: cs =>
    match scanLiteralSection cs with
    | .error fault => .error fault
    | .ok (text, rest) => .ok ('\r' :: text, rest)
  | cs => .error ((misread cs).toFault cs)

theorem length_of_scanLiteralSection {cs rest : List Glyph} {text : List Char}
    (h : scanLiteralSection cs = .ok (text, rest)) : rest.length < cs.length := by
  fun_induction scanLiteralSection cs generalizing text rest <;> grind

/-! ## Tokens -/

/-- **A token of element content.** -/
inductive ContentToken where
  | text (cs : List Char)
  | reference (r : Reference)
  | start (name : String) (attributes : List RawAttribute) (isEmpty : Bool)
  | stop (name : String) (here : List Glyph)
  | ignored
  | declaration
  deriving Repr

/-- A start tag, after its opening bracket. -/
def scanStartTag (cs : List Glyph) : Except Flaw (ContentToken × List Glyph) :=
  match scanQName cs with
  | .error flaw => .error flaw
  | .ok (name, rest) =>
    match scanAttributes false rest with
    | .error flaw => .error flaw
    | .ok ((attributes, isEmpty), rest) =>
      .ok (.start (String.ofList name) attributes isEmpty, rest)

theorem length_of_scanStartTag {cs rest : List Glyph} {t : ContentToken}
    (h : scanStartTag cs = .ok (t, rest)) : rest.length < cs.length := by
  unfold scanStartTag at h
  grind [→ length_of_scanQName, → length_of_scanAttributes]

/-- The rest of a name in an end tag, in which colons stand anywhere. -/
def spanEndName : List Glyph → List Char × List Glyph
  | .char c :: cs =>
    if isNameChar c || c == ':' then (c :: (spanEndName cs).1, (spanEndName cs).2)
    else ([], .char c :: cs)
  | cs => ([], cs)

theorem length_spanEndName_le (cs : List Glyph) : (spanEndName cs).2.length ≤ cs.length := by
  fun_induction spanEndName cs <;> grind

/-- The bracket of an end tag, after its name. -/
def closeEndTag (cs : List Glyph) : Except Flaw (List Glyph) :=
  match cs, dropSpace cs with
  | .cut :: _, _ => .error .cutShort
  | _, .char '>' :: rest => .ok rest
  | _, rest => .error (misfit rest)

theorem length_of_closeEndTag {cs rest : List Glyph} (h : closeEndTag cs = .ok rest) :
    rest.length < cs.length := by
  unfold closeEndTag at h
  grind [length_dropSpace_le]

/-- An end tag, after its opening bracket and slash. -/
def scanEndTag : List Glyph → Except Flaw (ContentToken × List Glyph)
  | .char c :: cs =>
    if isNameStart c then
      match closeEndTag (spanEndName cs).2 with
      | .error flaw => .error flaw
      | .ok rest => .ok (.stop (String.ofList (c :: (spanEndName cs).1)) (.char c :: cs), rest)
    else .error (.invalid (.char c :: cs))
  | cs => .error (misread cs)

theorem length_of_scanEndTag {cs rest : List Glyph} {t : ContentToken}
    (h : scanEndTag cs = .ok (t, rest)) : rest.length < cs.length := by
  unfold scanEndTag at h
  grind [→ length_of_closeEndTag, length_spanEndName_le]

/-- The glyphs after a keyword; `cs` is where a mismatch is looked for. -/
def skipKeyword : List Char → List Glyph → Except Flaw (List Glyph)
  | [], cs => .ok cs
  | k :: ks, .char c :: cs =>
    if c == k then skipKeyword ks cs else .error (.invalid (.char c :: cs))
  | _ :: _, cs => .error (misfit cs)

theorem length_of_skipKeyword {ks : List Char} {cs rest : List Glyph}
    (h : skipKeyword ks cs = .ok rest) : rest.length ≤ cs.length := by
  fun_induction skipKeyword ks cs <;> grind

/-- The mark that opens a literal section, after its first bracket. -/
def openLiteralSection (cs : List Glyph) : Except Flaw (List Glyph) :=
  if cs.length < 6 then .error .unclosed else skipKeyword ['C', 'D', 'A', 'T', 'A', '['] cs

theorem length_of_openLiteralSection {cs rest : List Glyph}
    (h : openLiteralSection cs = .ok rest) : rest.length ≤ cs.length := by
  unfold openLiteralSection at h
  grind [→ length_of_skipKeyword]

/-- Wraps a scan that yields nothing. -/
def ignoring (scan : Except Flaw (List Glyph)) : Except Flaw (ContentToken × List Glyph) :=
  match scan with
  | .error flaw => .error flaw
  | .ok rest => .ok (.ignored, rest)

/-- An instruction in content. -/
def scanContentInstruction (cs : List Glyph) : Except Flaw (ContentToken × List Glyph) :=
  match scanInstruction cs with
  | .error flaw => .error flaw
  | .ok (isDeclaration, rest) => .ok (if isDeclaration then .declaration else .ignored, rest)

/-- A literal section in content, whose faults have places of their own. -/
def scanContentSection (start cs : List Glyph) : Except Fault (ContentToken × List Glyph) :=
  match openLiteralSection cs with
  | .error flaw => .error (flaw.toFault start)
  | .ok rest =>
    match scanLiteralSection rest with
    | .error fault => .error fault
    | .ok (text, rest) => .ok (.text text, rest)

/-- Gives a flaw its place. -/
def placed {α : Type} (start : List Glyph) : Except Flaw α → Except Fault α
  | .error flaw => .error (flaw.toFault start)
  | .ok a => .ok a

/-- A reference in content. -/
def scanContentReference (cs : List Glyph) : Except Flaw (ContentToken × List Glyph) :=
  match scanReference cs with
  | .error flaw => .error flaw
  | .ok (r, rest) => .ok (.reference r, rest)

/-- Text in content, at least one character of it. -/
def scanContentText (cs : List Glyph) : Except Flaw (ContentToken × List Glyph) :=
  match scanText cs with
  | .error flaw => .error flaw
  | .ok ([], _) =>
    match cs with
    | .char c :: cs => .ok (.text [c], cs)
    | cs => .error (misread cs)
  | .ok (text, rest) => .ok (.text text, rest)

/-- **The next token of element content.** -/
def scanContent (cs : List Glyph) : Except Fault (ContentToken × List Glyph) :=
  match cs with
  | .char '<' :: .char '!' :: .char '-' :: rest => placed cs (ignoring (scanComment rest))
  | .char '<' :: .char '!' :: .char '[' :: rest => scanContentSection cs rest
  | .char '<' :: .char '!' :: rest => .error ((misfit rest).toFault cs)
  | .char '<' :: .char '?' :: rest => placed cs (scanContentInstruction rest)
  | .char '<' :: .char '/' :: rest => placed cs (scanEndTag rest)
  | .char '<' :: rest => placed cs (scanStartTag rest)
  | .char '&' :: rest => placed cs (scanContentReference rest)
  | .char '\r' :: .char '\n' :: rest => .ok (.text ['\n'], rest)
  | .char '\r' :: rest => .ok (.text ['\n'], rest)
  | .char '\n' :: rest => .ok (.text ['\n'], rest)
  | _ => placed cs (scanContentText cs)

theorem length_of_scanContentText {cs rest : List Glyph} {t : ContentToken}
    (h : scanContentText cs = .ok (t, rest)) : rest.length < cs.length := by
  unfold scanContentText at h
  split at h
  · simp at h
  · split at h
    · simp only [Except.ok.injEq, Prod.mk.injEq] at h
      simp [← h.2]
    · simp at h
  · next text rest' hne hs =>
    simp only [Except.ok.injEq, Prod.mk.injEq] at h
    rw [← h.2]
    exact length_of_scanText_cons hs hne

theorem length_of_ignoring {scan : Except Flaw (List Glyph)} {rest : List Glyph} {t : ContentToken}
    (h : ignoring scan = .ok (t, rest)) : scan = .ok rest := by
  unfold ignoring at h
  grind

theorem length_of_scanContentInstruction {cs rest : List Glyph} {t : ContentToken}
    (h : scanContentInstruction cs = .ok (t, rest)) : rest.length < cs.length := by
  unfold scanContentInstruction at h
  grind [→ length_of_scanInstruction]

theorem length_of_scanContentSection {start cs rest : List Glyph} {t : ContentToken}
    (h : scanContentSection start cs = .ok (t, rest)) : rest.length < cs.length := by
  unfold scanContentSection at h
  grind [→ length_of_openLiteralSection, → length_of_scanLiteralSection]

theorem length_of_scanContentReference {cs rest : List Glyph} {t : ContentToken}
    (h : scanContentReference cs = .ok (t, rest)) : rest.length < cs.length := by
  unfold scanContentReference at h
  grind [→ length_of_scanReference]

theorem placed_eq_ok {α : Type} {start : List Glyph} {scan : Except Flaw α} {a : α} :
    placed start scan = .ok a ↔ scan = .ok a := by
  cases scan <;> simp [placed]

/-- **Every token takes at least one glyph.** -/
theorem length_of_scanContent {cs rest : List Glyph} {t : ContentToken}
    (h : scanContent cs = .ok (t, rest)) : rest.length < cs.length := by
  unfold scanContent at h
  split at h <;> try simp only [placed_eq_ok] at h
  · have := length_of_scanComment (length_of_ignoring h); grind
  · have := length_of_scanContentSection h; grind
  · simp at h
  · have := length_of_scanContentInstruction h; grind
  · have := length_of_scanEndTag h; grind
  · have := length_of_scanStartTag h; grind
  · have := length_of_scanContentReference h; grind
  · grind
  · grind
  · grind
  · exact length_of_scanContentText h

end StationNaming.Xml
