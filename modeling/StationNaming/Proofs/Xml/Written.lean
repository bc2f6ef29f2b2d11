import StationNaming.Proofs.Xml.Markup
import StationNaming.Xml.Reader
/-!
# Reading documents as they are written

A written document is an XML declaration and an element. Reading its bytes gives the events of that
element.

**What is exact.** `read_written` covers every element that can be written with runs of name
characters for names: reading fails exactly if the element is not one that can be read
(`Markup.element?`).
-/

namespace StationNaming.Xml

/-! ## Elements as markup -/

mutual

/-- **An element as markup**, with some attributes in front of its own. -/
def Element.markup (writeName : Name → String) (declarations : List WrittenAttribute) :
    Element → Markup
  | .mk n as t cs tl =>
    .mk (writeName n) (declarations ++ as.map fun a => (writeName a.1, a.2)) t
      (markups writeName cs) tl

/-- Neighbours as markup. -/
def Element.markups (writeName : Name → String) : List Element → List Markup
  | [] => []
  | c :: cs => markup writeName [] c :: markups writeName cs

end

@[simp] theorem Element.tail_markup (writeName : Name → String) (ds : List WrittenAttribute)
    (e : Element) : (e.markup writeName ds).tail = e.tail := by
  cases e
  rfl

/-- Attributes as they are written. -/
def writtenAttributes (as : List WrittenAttribute) : String :=
  String.join (as.map fun a => writtenAttribute a.1 a.2)

theorem glyphs_writtenAttribute (a : WrittenAttribute) :
    glyphs (writtenAttribute a.1 a.2).toList = attributeGlyphs a := by
  simp [writtenAttribute, attributeGlyphs, toList_escapeValue]

theorem glyphs_writtenAttributes (as : List WrittenAttribute) :
    glyphs (writtenAttributes as).toList = attributesGlyphs as := by
  rw [writtenAttributes, String.toList_join]
  induction as with
  | nil => rfl
  | cons a as ih =>
    rw [List.map_cons, List.flatMap_cons, glyphs_append, ih, glyphs_writtenAttribute,
      attributesGlyphs_cons]

theorem glyphs_escapeText (text : String) :
    glyphs (escapeText text).toList = textGlyphs text.toList := by
  rw [escapeText, String.toList_ofList, textGlyphs]

mutual

/-- **What is written is the markup**, and the tail after it. -/
theorem glyphs_writeElement (writeName : Name → String) (ds : List WrittenAttribute) :
    (e : Element) →
    glyphs (writeElement writeName (writtenAttributes ds) e).toList =
      (e.markup writeName ds).glyphs ++ textGlyphs e.tail.toList
  | .mk n as t cs tl => by
    have hattributes : String.join (as.map fun a => writtenAttribute (writeName a.1) a.2) =
        writtenAttributes (as.map fun a => (writeName a.1, a.2)) := by
      rw [writtenAttributes, List.map_map]
      rfl
    have htag : attributesGlyphs (ds ++ as.map fun a => (writeName a.1, a.2)) =
        attributesGlyphs ds ++ attributesGlyphs (as.map fun a => (writeName a.1, a.2)) :=
      List.flatMap_append
    have hempty : (Element.markups writeName cs).isEmpty = cs.isEmpty := by
      cases cs <;> rfl
    rw [writeElement, writtenStart, Element.markup, Markup.glyphs, hempty, hattributes]
    split
    · simp [glyphs_writtenAttributes, htag, startTagGlyphs, tagEnd, glyphs_escapeText,
        Element.tail]
    · simp [glyphs_writtenAttributes, htag, startTagGlyphs, tagEnd, glyphs_escapeText,
        Element.tail, glyphs_writeElements writeName cs]

theorem glyphs_writeElements (writeName : Name → String) : (cs : List Element) →
    glyphs (writeElements writeName cs).toList = Markup.glyphsAll (Element.markups writeName cs)
  | [] => rfl
  | c :: cs => by
    have hc := glyphs_writeElement writeName [] c
    rw [show writtenAttributes [] = "" from rfl] at hc
    rw [writeElements, String.toList_append, glyphs_append, hc, glyphs_writeElements writeName cs,
      Element.markups, Markup.glyphsAll, Element.tail_markup, List.append_assoc]

end

/-! ## What may stand in a document -/

theorem legible_of_isQToken {cs : List Char} (h : IsQToken cs) : Legible (glyphs cs) := by
  rw [legible_glyphs]
  intro c hc
  rcases h with h | ⟨p, l, rfl, hp, hl⟩
  · exact isDocumentChar_of_isNameChar (h.2 c hc)
  · rcases List.mem_append.mp hc with hc | hc
    · exact isDocumentChar_of_isNameChar (hp.2 c hc)
    · rcases List.mem_cons.mp hc with rfl | hc
      · decide
      · exact isDocumentChar_of_isNameChar (hl.2 c hc)

/-- A reference is spelled with characters that may stand in a document. -/
theorem isDocumentChar_of_mem_spelling {s : String}
    (hs : (s.toList.all fun c => decide (IsDocumentChar c)) = true)
    {d : Char} (hd : d ∈ s.toList) : IsDocumentChar d := isDocumentText_of_all hs d hd

theorem isDocumentChar_of_mem_escapeTextChar {c d : Char} (hc : IsDocumentChar c)
    (hd : d ∈ escapeTextChar c) : IsDocumentChar d := by
  unfold escapeTextChar at hd
  split_ifs at hd
  case neg => exact List.mem_singleton.mp hd ▸ hc
  all_goals exact isDocumentChar_of_mem_spelling (by decide) hd

theorem isDocumentChar_of_mem_escapeValueChar {c d : Char} (hc : IsDocumentChar c)
    (hd : d ∈ escapeValueChar c) : IsDocumentChar d := by
  unfold escapeValueChar at hd
  split_ifs at hd
  case neg => exact isDocumentChar_of_mem_escapeTextChar hc hd
  all_goals exact isDocumentChar_of_mem_spelling (by decide) hd

theorem legible_textGlyphs {text : String} (h : IsDocumentText text) :
    Legible (textGlyphs text.toList) := by
  rw [textGlyphs, legible_glyphs]
  intro d hd
  obtain ⟨c, hc, hmem⟩ := List.mem_flatMap.mp hd
  exact isDocumentChar_of_mem_escapeTextChar (h c hc) hmem

theorem legible_attributeGlyphs {a : WrittenAttribute} (hname : IsQToken a.1.toList)
    (hvalue : IsDocumentText a.2) : Legible (attributeGlyphs a) := by
  have hvalue' : Legible (valueGlyphs a.2.toList) := by
    rw [valueGlyphs, legible_glyphs]
    intro d hd
    obtain ⟨c, hc, hmem⟩ := List.mem_flatMap.mp hd
    exact isDocumentChar_of_mem_escapeValueChar (hvalue c hc) hmem
  have hquote : Legible (glyphs "\"".toList) :=
    legible_glyphs.mpr (isDocumentText_of_all (by decide))
  refine Legible.cons ((legible_of_isQToken hname).append ?_) (by decide)
  exact ((hvalue'.append hquote).cons (by decide)).cons (by decide)

theorem legible_startTagGlyphs {tag : String} {as : List WrittenAttribute}
    (htag : IsQToken tag.toList)
    (has : ∀ a ∈ as, IsQToken a.1.toList ∧ IsDocumentText a.2) (isEmpty : Bool) :
    Legible (startTagGlyphs tag as isEmpty) := by
  have hend : Legible (tagEnd isEmpty) := by
    cases isEmpty with
    | true => exact legible_glyphs.mpr (@isDocumentText_of_all " />" (by decide))
    | false => exact legible_glyphs.mpr (@isDocumentText_of_all ">" (by decide))
  refine (legible_of_isQToken htag).append (Legible.append (fun c hc => ?_) hend)
  obtain ⟨a, ha, hmem⟩ := List.mem_flatMap.mp hc
  exact legible_attributeGlyphs (has a ha).1 (has a ha).2 c hmem

mutual

/-- **Markup with legible parts is legible.** -/
theorem legible_markup : (m : Markup) → m.Spelled → Legible m.glyphs
  | .mk tag as t cs tl, ⟨htag, has, ht, _, hcs⟩ => by
    rw [Markup.glyphs]
    split
    · exact (legible_startTagGlyphs htag has true).cons (by decide)
    · have hclose : Legible (glyphs tag.toList ++ [.char '>']) :=
        (legible_of_isQToken htag).append
          (legible_glyphs.mpr (@isDocumentText_of_all ">" (by decide)))
      refine Legible.cons ((legible_startTagGlyphs htag has false).append ?_) (by decide)
      refine (legible_textGlyphs ht).append ((legible_markups cs hcs).append ?_)
      exact (hclose.cons (by decide)).cons (by decide)

theorem legible_markups : (cs : List Markup) → Markup.SpelledAll cs → Legible (Markup.glyphsAll cs)
  | [], _ => fun c hc => absurd hc List.not_mem_nil
  | .mk tag as t ds tl :: cs, ⟨hc, hcs⟩ => by
    have htail : IsDocumentText tl := hc.2.2.2.1
    exact (legible_markup _ hc).append ((legible_textGlyphs htail).append (legible_markups cs hcs))

end

/-! ## Whole documents -/

/-- The glyphs of the XML declaration that documents are written with, between its name and its
end. -/
def declarationText : String := " version='1.0' encoding='utf-8'"

theorem scanInstruction_writtenDeclaration (more : List Glyph) :
    scanInstruction (glyphs ("xml" ++ declarationText).toList ++ .char '?' :: .char '>' :: more) =
      .ok (true, more) := rfl

theorem scanProlog_writtenDeclaration (more : List Glyph) :
    scanProlog (glyphs writtenDeclaration.toList ++ more) =
      .ok (.xmlDeclaration (glyphs declarationText.toList), .char '\n' :: more) := by
  have hcontent : declarationContent (glyphs ("xml" ++ declarationText).toList ++
      .char '?' :: .char '>' :: .char '\n' :: more) (.char '\n' :: more) =
        glyphs declarationText.toList := by
    have hlength : (glyphs ("xml" ++ declarationText).toList).length = 34 := rfl
    rw [declarationContent, List.length_append, hlength]
    simp only [List.length_cons]
    rw [show 34 + (more.length + 1 + 1 + 1) - 5 - (more.length + 1) = 31 by omega]
    rfl
  have hscan := scanInstruction_writtenDeclaration (.char '\n' :: more)
  show scanPrologInstruction (glyphs ("xml" ++ declarationText).toList ++
    .char '?' :: .char '>' :: .char '\n' :: more) = _
  rw [scanPrologInstruction, hscan]
  simp only [hcontent]

theorem read_declarationText : ∃ place, Declaration.read (glyphs declarationText.toList) =
    .ok { encoding := some ("utf-8", place) } := ⟨_, rfl⟩

theorem declaredEncoding_utf8 : declaredEncoding .utf8 "utf-8" = .found .utf8 := by
  decide +kernel

theorem detect_written (s : String) : detect (writtenDeclaration ++ s).toUTF8.toList = {} := by
  rw [toList_toUTF8, String.toList_append, List.flatMap_append]
  rfl

/-- **Decoding what was written** leaves the text after the declaration. -/
theorem ofBytes_written {s : String} (h : IsDocumentText s) :
    ∃ d : Decoded, Decoded.ofBytes (writtenDeclaration ++ s).toUTF8.toList = .ok d ∧
      d.body = .char '\n' :: glyphs s.toList ∧ d.start = { expect := .doctypeOrRoot } ∧
      d.isTorn = false := by
  have htext : IsDocumentText (writtenDeclaration ++ s) := by
    intro c hc
    rw [String.toList_append] at hc
    have hdeclaration : IsDocumentText writtenDeclaration := isDocumentText_of_all (by decide)
    exact (List.mem_append.mp hc).elim (hdeclaration c) (h c)
  obtain ⟨place, hread⟩ := read_declarationText
  have hdecode : Encoding.decode .utf8 (writtenDeclaration ++ s).toUTF8.toList =
      (glyphs (writtenDeclaration ++ s).toList, false) := by
    rw [Encoding.decode, decodeUtf8_toUTF8 htext]
  rw [Decoded.ofBytes, detect_written]
  simp only [Bool.false_eq_true, if_false, hdecode, if_true, String.toList_append, glyphs_append,
    scanProlog_writtenDeclaration, Decoded.declared, hread, declaredEncoding_utf8]
  exact ⟨_, rfl, rfl, rfl, rfl⟩

/-! ## The root element -/

theorem scanProlog_space {cs : List Glyph} (h : dropSpace cs = cs) :
    scanProlog (.char '\n' :: cs) = .ok (.space, cs) := by
  simp [scanProlog, isSpace, h]

theorem exists_glyphs_eq (m : Markup) : ∃ tag as t cs tl isEmpty more, m = .mk tag as t cs tl ∧
    m.glyphs = .char '<' :: (startTagGlyphs tag as isEmpty ++ more) := by
  obtain ⟨tag, as, t, cs, tl⟩ := m
  rw [Markup.glyphs]
  split
  · exact ⟨tag, as, t, cs, tl, true, [], rfl, by rw [List.append_nil]⟩
  · exact ⟨tag, as, t, cs, tl, false, _, rfl, rfl⟩

/-- A bracket before a run of name characters starts the root element, unless nothing can start
there. -/
theorem scanProlog_startTag {tag : String} (htag : IsQToken tag.toList) (as : List WrittenAttribute)
    (isEmpty : Bool) (more : List Glyph) :
    scanProlog (.char '<' :: (startTagGlyphs tag as isEmpty ++ more)) =
      if startsRoot (glyphs tag.toList) then
        .ok (.rootStart, .char '<' :: (startTagGlyphs tag as isEmpty ++ more))
      else .error (misfit (startTagGlyphs tag as isEmpty ++ more)) := by
  obtain ⟨c, cs, hcons, hc⟩ := htag.exists_cons
  have hne : c ≠ '!' ∧ c ≠ '?' := by
    refine ⟨?_, ?_⟩ <;> rintro rfl <;> exact absurd hc (by decide)
  have hglyphs : startTagGlyphs tag as isEmpty ++ more =
      .char c :: (glyphs cs ++ (attributesGlyphs as ++ tagEnd isEmpty) ++ more) := by
    rw [startTagGlyphs, hcons]
    rfl
  rw [hglyphs, hcons]
  simp [scanProlog, scanAngle, hne.1, hne.2, startsRoot]

theorem startsRoot_of_isQName {cs : List Char} (h : IsQName cs) :
    startsRoot (glyphs cs) = true := by
  obtain ⟨c, rest, rfl, hstart, -⟩ := h.exists_cons
  simp [startsRoot, hstart]

/-- White space between the declaration and the root element is passed over. -/
theorem readProlog_space {isTorn : Bool} {st : PrologState} {g : Glyph} {gs rest : List Glyph}
    (hscan : scanProlog (g :: gs) = .ok (.space, rest)) (hexpect : st.expect ≠ .anything) :
    readProlog isTorn st (g :: gs) = readProlog isTorn st rest := by
  have hstep : st.step .space (g :: gs) = .ok st := by simp [PrologState.step, hexpect]
  rw [readProlog]
  split <;> simp_all [PrologToken.isRootStart]

/-- The root element starts where it may. -/
theorem readProlog_root {isTorn : Bool} {st : PrologState} {g : Glyph} {gs rest : List Glyph}
    (hscan : scanProlog (g :: gs) = .ok (.rootStart, rest)) (hroot : st.allowsRoot = true) :
    readProlog isTorn st (g :: gs) = .ok (st.doctype, g :: gs) := by
  rw [readProlog]
  split <;> simp_all [PrologToken.isRootStart]

theorem readProlog_of_flawed {isTorn : Bool} {st : PrologState} {g : Glyph} {gs : List Glyph}
    {flaw : Flaw} (hscan : scanProlog (g :: gs) = .error flaw) :
    readProlog isTorn st (g :: gs) = .error (flaw.toFault (g :: gs)) := by
  rw [readProlog]
  split <;> simp_all

/-- **Before the root element stands a line feed only.** -/
theorem readProlog_written {tag : String} (htag : IsQToken tag.toList) (as : List WrittenAttribute)
    (isEmpty : Bool) (more : List Glyph) :
    readProlog false { expect := .doctypeOrRoot }
        (.char '\n' :: .char '<' :: (startTagGlyphs tag as isEmpty ++ more)) =
      if startsRoot (glyphs tag.toList) then
        .ok ({}, .char '<' :: (startTagGlyphs tag as isEmpty ++ more))
      else .error ((misfit (startTagGlyphs tag as isEmpty ++ more)).toFault
        (.char '<' :: (startTagGlyphs tag as isEmpty ++ more))) := by
  have hscan := scanProlog_startTag htag as isEmpty more
  rw [readProlog_space (scanProlog_space rfl) (by decide)]
  split_ifs at hscan ⊢ with hroot
  · exact readProlog_root hscan rfl
  · exact readProlog_of_flawed hscan

theorem isQName_of_element? {scope : Scope} {tag t tl : String} {as : List WrittenAttribute}
    {cs : List Markup} {e : Element} (h : (Markup.mk tag as t cs tl).element? scope = some e) :
    IsQName tag.toList := by
  rw [Markup.element?] at h
  obtain ⟨said, hsaid, -⟩ := Option.bind_eq_some_iff.mp h
  exact (names_of_readableTag hsaid).1

/-- **Reading a written document** gives the element that it says, with its bindings, or fails. -/
theorem read_written {m : Markup} (hm : m.Spelled) {s : String} (hs : glyphs s.toList = m.glyphs) :
    match m.element? Scope.initial with
    | some e => ∃ es taken, read (writtenDeclaration ++ s).toUTF8.toList = ⟨es, none, taken⟩ ∧
        Element.ofEvents? es = some e ∧ bindingsIn es = m.bindings
    | none => ∃ es failure taken,
        read (writtenDeclaration ++ s).toUTF8.toList = ⟨es, some failure, taken⟩ := by
  have htext : IsDocumentText s := by
    have hlegible := legible_markup m hm
    rw [← hs] at hlegible
    exact legible_glyphs.mp hlegible
  obtain ⟨d, hbytes, hbody, hstart, htorn⟩ := ofBytes_written htext
  obtain ⟨tag, as, t, cs, tl, isEmpty, more, rfl, hglyphs⟩ := exists_glyphs_eq m
  have hread := readsAs (s := ⟨{}, false⟩) rfl rfl [] _ hm {} []
  have hscope : ContentState.scope {} = Scope.initial := rfl
  rw [ReadsAs, List.append_nil, hscope] at hread
  have hprolog := readProlog_written hm.1 as isEmpty more
  rw [← hglyphs, ← hs] at hprolog
  rw [read, hbytes]
  simp only [Decoded.read, hbody, hstart, htorn, hprolog]
  cases he : (Markup.mk tag as t cs tl).element? Scope.initial with
  | none =>
    rw [he] at hread
    obtain ⟨f, hf⟩ := hread
    by_cases hroot : startsRoot (glyphs tag.toList) = true
    · simp only [if_pos hroot, hs, hf]
      exact ⟨_, _, _, rfl⟩
    · simp only [if_neg hroot]
      exact ⟨_, _, _, rfl⟩
  | some e =>
    rw [he] at hread
    obtain ⟨said, inside, f, hmakes, rfl, hbindings, hcontent⟩ := hread
    have hroot : startsRoot (glyphs tag.toList) = true :=
      startsRoot_of_isQName (isQName_of_element? he)
    have htail : readTail false [] = none := by rw [readTail]; rfl
    refine ⟨_, d.sizeBefore [], ?_, Element.ofEvents?_eventsOf said hmakes, hbindings⟩
    simp only [if_pos hroot, hs, hcontent, readOn, ContentState.opened_pushAll, List.isEmpty_nil,
      if_true, htail]
    simp [ContentState.pushAll]

/-- **The tree of a file**, if the file can be read. -/
def parse? (bytes : List UInt8) : Option Element :=
  if (read bytes).failure.isNone then Element.ofEvents? (read bytes).events else none

/-- **The tree of a written document** is the element that it says. -/
theorem parse?_written {m : Markup} (hm : m.Spelled) {s : String}
    (hs : glyphs s.toList = m.glyphs) :
    parse? (writtenDeclaration ++ s).toUTF8.toList = m.element? Scope.initial := by
  have hread := read_written hm hs
  cases he : m.element? Scope.initial with
  | none =>
    rw [he] at hread
    obtain ⟨es, failure, taken, hread⟩ := hread
    rw [parse?, hread]
    rfl
  | some e =>
    rw [he] at hread
    obtain ⟨es, taken, hread, htree, -⟩ := hread
    rw [parse?, hread]
    exact htree

end StationNaming.Xml
