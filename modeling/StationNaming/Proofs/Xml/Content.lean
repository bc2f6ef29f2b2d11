import StationNaming.Proofs.Xml.Escapes
import StationNaming.Xml.Event
/-!
# Reading content step by step

What reading content does with one token, and with a text as it is written.

**What is exact.** Each step is an equation: reading before a token is reading after it, from the
state that the token leads to. A written text is read in pieces, which together are the text with
its line ends made line feeds (`readContent_textGlyphs`).
-/

namespace StationNaming.Xml

/-! ## One token -/

namespace ContentState

/-- More events, in their order. -/
def pushAll (st : ContentState) (es : List Event) : ContentState :=
  { st with events := es.reverse ++ st.events }

@[simp] theorem pushAll_nil (st : ContentState) : st.pushAll [] = st := rfl

@[simp] theorem opened_pushAll (st : ContentState) (es : List Event) :
    (st.pushAll es).opened = st.opened := rfl

theorem pushAll_cons (st : ContentState) (e : Event) (es : List Event) :
    st.pushAll (e :: es) = (st.push e).pushAll es := by
  simp [pushAll, push]

theorem pushAll_append (st : ContentState) (es es' : List Event) :
    st.pushAll (es ++ es') = (st.pushAll es).pushAll es' := by
  simp [pushAll]

end ContentState

section OneToken

variable {s : Setting} {available : Entities} {st st' : ContentState} {g : Glyph}
  {gs rest : List Glyph}

theorem readContent_text {text : List Char} (hmore : gs ≠ [])
    (hscan : scanContent (g :: gs) = .ok (.text text, rest)) :
    readContent s available 0 st (g :: gs) =
      readContent s available 0 (st.push (.text text)) rest := by
  rw [readContent]
  split
  · simp_all
  · split <;> simp_all

theorem readContent_reference {c : Char} {r : Reference} (hmore : gs ≠ []) (hstands : r.StandsFor c)
    (hscan : scanContent (g :: gs) = .ok (.reference r, rest)) :
    readContent s available 0 st (g :: gs) =
      readContent s available 0 (st.push (.text [c])) rest := by
  rw [readContent]
  split
  · simp_all
  · cases r with
    | character code =>
      have hcode : referenced? code = some c := hstands
      split <;> simp_all
    | entity name =>
      have hname : resolveEntity s.doctype available name = .character c := by
        simp only [resolveEntity, show predefined? name = some c from hstands]
      split <;> simp_all
      split <;> simp_all

theorem readContent_start {name : String} {attributes : List RawAttribute} {isEmpty : Bool}
    (hmore : gs ≠ []) (hscan : scanContent (g :: gs) = .ok (.start name attributes isEmpty, rest))
    (hstart : st.start s.doctype (g :: gs) name attributes isEmpty = .ok st') :
    readContent s available 0 st (g :: gs) =
      if st'.opened.isEmpty then .ok (st', rest) else readContent s available 0 st' rest := by
  rw [readContent]
  split
  · simp_all
  · split <;> simp_all

theorem readContent_stop {name : String} {nameAt : List Glyph}
    (hmore : gs ≠ []) (hscan : scanContent (g :: gs) = .ok (.stop name nameAt, rest))
    (hstop : st.stop 0 (g :: gs) nameAt name = .ok st') :
    readContent s available 0 st (g :: gs) =
      if st'.opened.isEmpty then .ok (st', rest) else readContent s available 0 st' rest := by
  rw [readContent]
  split
  · simp_all
  · split <;> simp_all

theorem readContent_of_flawed {fault : Fault} (hscan : scanContent (g :: gs) = .error fault) :
    ∃ f, readContent s available 0 st (g :: gs) = .error f := by
  rw [readContent]
  split
  · exact ⟨_, rfl⟩
  · split <;> simp_all

theorem readContent_of_refused {name : String} {attributes : List RawAttribute} {isEmpty : Bool}
    {f : EventFault} (hscan : scanContent (g :: gs) = .ok (.start name attributes isEmpty, rest))
    (hstart : st.start s.doctype (g :: gs) name attributes isEmpty = .error f) :
    ∃ f, readContent s available 0 st (g :: gs) = .error f := by
  rw [readContent]
  split
  · exact ⟨_, rfl⟩
  · split <;> simp_all

end OneToken

/-! ## Text -/

/-- **Line ends made line feeds**: a carriage return and a line feed in a row, or a carriage return
alone. -/
def lineEnds : List Char → List Char
  | '\r' :: '\n' :: cs => '\n' :: lineEnds cs
  | '\r' :: cs => '\n' :: lineEnds cs
  | c :: cs => c :: lineEnds cs
  | [] => []

theorem lineEnds_cons {c : Char} (h : c ≠ '\r') (cs : List Char) :
    lineEnds (c :: cs) = c :: lineEnds cs := by
  rw [lineEnds] <;> simp_all

theorem lineEnds_append {run : List Char} (h : ∀ c ∈ run, c ≠ '\r') (cs : List Char) :
    lineEnds (run ++ cs) = run ++ lineEnds cs := by
  induction run with
  | nil => rfl
  | cons c run ih =>
    obtain ⟨hc, hrun⟩ := List.forall_mem_cons.mp h
    rw [List.cons_append, lineEnds_cons hc, ih hrun, List.cons_append]

theorem lineEnds_return {cs : List Char} (h : cs.head? ≠ some '\n') :
    lineEnds ('\r' :: cs) = '\n' :: lineEnds cs := by
  rw [lineEnds]
  rintro rest rfl
  exact h rfl

/-- The written characters of a text. -/
def textGlyphs (text : List Char) : List Glyph := glyphs (text.flatMap escapeTextChar)

theorem textGlyphs_cons (c : Char) (cs : List Char) :
    textGlyphs (c :: cs) = glyphs (escapeTextChar c) ++ textGlyphs cs := by
  rw [textGlyphs, List.flatMap_cons, glyphs_append, textGlyphs]

/-- A character that a run of text is read with. -/
def isPlain (c : Char) : Bool := !endsText c && c != '>'

theorem escapeTextChar_of_isPlain {c : Char} (h : isPlain c = true) : escapeTextChar c = [c] := by
  simp [isPlain, endsText] at h
  simp [escapeTextChar, h]

theorem textGlyphs_append_of_isPlain {run : List Char} (h : ∀ c ∈ run, isPlain c = true)
    (cs : List Char) : textGlyphs (run ++ cs) = glyphs run ++ textGlyphs cs := by
  induction run with
  | nil => rfl
  | cons c run ih =>
    obtain ⟨hc, hrun⟩ := List.forall_mem_cons.mp h
    rw [List.cons_append, textGlyphs_cons, escapeTextChar_of_isPlain hc, ih hrun]
    rfl

theorem endsText_of_mem {c : Char} (h : isPlain c = true) : endsText c = false ∧ c ≠ '>' := by
  simpa [isPlain] using h

/-- A run of text is read up to the next character that ends it. -/
theorem scanText_glyphs {run : List Char} (h : ∀ c ∈ run, isPlain c = true) {e : Char}
    (hend : endsText e = true) (more : List Glyph) :
    scanText (glyphs run ++ .char e :: more) = .ok (run, .char e :: more) := by
  induction run with
  | nil =>
    have hbracket : e ≠ ']' := by
      rintro rfl
      exact absurd hend (by decide)
    rw [glyphs_nil, List.nil_append, scanText] <;> simp_all
  | cons c run ih =>
    obtain ⟨hc, hrun⟩ := List.forall_mem_cons.mp h
    obtain ⟨hends, -⟩ := endsText_of_mem hc
    have hrest := ih hrun
    rw [glyphs_cons, List.cons_append, scanText]
    · rw [hends, hrest]
      rfl
    · -- The mark that ends a literal section would need a bracket that stands in no run.
      intro cs hsection _
      cases run with
      | nil =>
        simp only [glyphs_nil, List.nil_append, List.cons.injEq, Glyph.char.injEq] at hsection
        exact absurd (hsection.1 ▸ hend) (by decide)
      | cons d run =>
        cases run with
        | nil =>
          simp only [glyphs_cons, glyphs_nil, List.cons_append, List.nil_append, List.cons.injEq,
            Glyph.char.injEq] at hsection
          exact absurd (hsection.2.1 ▸ hend) (by decide)
        | cons d' run =>
          simp only [glyphs_cons, List.cons_append, List.cons.injEq, Glyph.char.injEq] at hsection
          exact (endsText_of_mem (hrun d' (by simp))).2 hsection.2.1

/-- What does not go on as a run of text begins with a character that ends it. -/
theorem exists_textGlyphs_eq {cs : List Char} (h : ∀ c ∈ cs.head?, isPlain c = false)
    (more : List Glyph) :
    ∃ e more', endsText e = true ∧ textGlyphs cs ++ .char '<' :: more = .char e :: more' := by
  cases cs with
  | nil => exact ⟨'<', more, by decide, rfl⟩
  | cons c cs =>
    have hc : isPlain c = false := h c (by simp)
    rw [textGlyphs_cons, List.append_assoc]
    rcases escapeTextChar_cases c with ⟨⟨body, r, heq, -⟩, -⟩ | ⟨heq, -, -, hgt⟩
    · exact ⟨'&', _, by decide, by rw [heq]; rfl⟩
    · refine ⟨c, _, ?_, by rw [heq]; rfl⟩
      simpa [isPlain, hgt] using hc

/-- What follows a carriage return begins with a line feed only if it did so before it was
written. -/
theorem head?_textGlyphs_ne {cs : List Char} (h : cs.head? ≠ some '\n') (more : List Glyph) :
    (textGlyphs cs ++ .char '<' :: more).head? ≠ some (.char '\n') := by
  cases cs with
  | nil => simp [textGlyphs]
  | cons c cs =>
    rw [textGlyphs_cons]
    rcases escapeTextChar_cases c with ⟨⟨body, r, heq, -⟩, -⟩ | ⟨heq, -⟩
    · simp [heq]
    · simpa [heq] using h

theorem ne_return_of_isPlain {c : Char} (h : isPlain c = true) : c ≠ '\r' := by
  rintro rfl
  exact absurd h (by decide)

/-- A text as a run and what follows it. -/
theorem exists_run (text : List Char) : ∃ run rest, text = run ++ rest ∧
    (∀ c ∈ run, isPlain c = true) ∧ ∀ c ∈ rest.head?, isPlain c = false := by
  refine ⟨text.takeWhile isPlain, text.dropWhile isPlain, List.takeWhile_append_dropWhile.symm,
    fun c hc => List.mem_takeWhile_imp hc, fun c hc => ?_⟩
  cases hrest : text.dropWhile isPlain with
  | nil => rw [hrest] at hc; cases hc
  | cons d rest =>
    rw [hrest, List.head?_cons, Option.mem_some_iff] at hc
    subst hc
    have := List.head_dropWhile_not (p := isPlain) (l := text)
      (by rw [hrest]; exact List.cons_ne_nil _ _)
    simpa [hrest] using this

theorem scanContent_reference {gs rest : List Glyph} {r : Reference}
    (hscan : scanReference gs = .ok (r, rest)) :
    scanContent (.char '&' :: gs) = .ok (.reference r, rest) := by
  simp [scanContent, scanContentReference, hscan, placed]

theorem scanContent_return_feed (gs : List Glyph) :
    scanContent (.char '\r' :: .char '\n' :: gs) = .ok (.text ['\n'], gs) := rfl

theorem scanContent_feed (gs : List Glyph) :
    scanContent (.char '\n' :: gs) = .ok (.text ['\n'], gs) := rfl

theorem scanContent_return {gs : List Glyph} (h : gs.head? ≠ some (.char '\n')) :
    scanContent (.char '\r' :: gs) = .ok (.text ['\n'], gs) := by
  unfold scanContent
  split <;> simp_all

theorem scanContent_run {c : Char} {run : List Char}
    (h : ∀ d ∈ c :: run, isPlain d = true) {e : Char}
    (hend : endsText e = true) (more : List Glyph) :
    scanContent (.char c :: (glyphs run ++ .char e :: more)) =
      .ok (.text (c :: run), .char e :: more) := by
  have hscan := scanText_glyphs h hend more
  have hc := (endsText_of_mem (h c List.mem_cons_self)).1
  simp only [endsText, Bool.or_eq_false_iff, beq_eq_false_iff_ne] at hc
  rw [glyphs_cons, List.cons_append] at hscan
  unfold scanContent
  split <;> simp_all [scanContentText, placed]

/-- One piece more in front. -/
theorem exists_pieces_cons {s : Setting} {available : Entities} {st : ContentState}
    {cs cs' more : List Glyph} {piece read : List Char}
    (hstep : readContent s available 0 st cs =
      readContent s available 0 (st.push (.text piece)) cs')
    (hrest : ∃ pieces : List (List Char), pieces.flatten = read ∧
      readContent s available 0 (st.push (.text piece)) cs' =
        readContent s available 0 ((st.push (.text piece)).pushAll (pieces.map .text)) more) :
    ∃ pieces : List (List Char), pieces.flatten = piece ++ read ∧
      readContent s available 0 st cs =
        readContent s available 0 (st.pushAll (pieces.map .text)) more := by
  obtain ⟨pieces, hpieces, hread⟩ := hrest
  refine ⟨piece :: pieces, by rw [List.flatten_cons, hpieces], ?_⟩
  rw [hstep, hread, List.map_cons, ContentState.pushAll_cons]

/-- **A run of plain characters is read as one piece.** -/
theorem readContent_run (s : Setting) (available : Entities) {c : Char} {run rest : List Char}
    (hrun : ∀ d ∈ c :: run, isPlain d = true) (hrest : ∀ d ∈ rest.head?, isPlain d = false)
    (more : List Glyph) (st : ContentState) :
    readContent s available 0 st (textGlyphs (c :: (run ++ rest)) ++ .char '<' :: more) =
      readContent s available 0 (st.push (.text (c :: run)))
      (textGlyphs rest ++ .char '<' :: more) := by
  obtain ⟨e, more', hend, heq⟩ := exists_textGlyphs_eq hrest more
  rw [← List.cons_append, textGlyphs_append_of_isPlain hrun, List.append_assoc, heq, glyphs_cons,
    List.cons_append]
  exact readContent_text (by simp) (scanContent_run hrun hend more')

/-- **The first piece of a text**: one character that is escaped, one line end, or a run of plain
characters. -/
theorem exists_first_piece (s : Setting) (available : Entities) (c : Char) (text : List Char)
    (more : List Glyph) (st : ContentState) :
    ∃ piece rest : List Char, rest.length ≤ text.length ∧ lineEnds (c :: text) = piece ++
      lineEnds rest ∧
      readContent s available 0 st (textGlyphs (c :: text) ++ .char '<' :: more) =
        readContent s available 0 (st.push (.text piece))
        (textGlyphs rest ++ .char '<' :: more) := by
  have hmore : ∀ cs, textGlyphs cs ++ .char '<' :: more ≠ [] := fun cs => by simp
  rcases escapeTextChar_cases c with ⟨⟨body, r, heq, -, hscan, hstands⟩, hc⟩ | ⟨heq, hamp, hlt, hgt⟩
  · refine ⟨[c], text, le_rfl, lineEnds_cons hc text, ?_⟩
    rw [textGlyphs_cons, List.append_assoc, heq, glyphs_cons, List.cons_append]
    exact readContent_reference (by simp) hstands (scanContent_reference (hscan _))
  · have hglyphs : ∀ cs, textGlyphs (c :: cs) ++ .char '<' :: more =
        .char c :: (textGlyphs cs ++ .char '<' :: more) := fun cs => by
          rw [textGlyphs_cons, heq]; rfl
    by_cases hreturn : c = '\r'
    · subst hreturn
      by_cases hnext : text.head? = some '\n'
      · obtain ⟨text, rfl⟩ := List.head?_eq_some_iff.mp hnext
        refine ⟨['\n'], text, by simp, rfl, ?_⟩
        rw [hglyphs]
        exact readContent_text (List.cons_ne_nil _ _) (scanContent_return_feed _)
      · refine ⟨['\n'], text, le_rfl, lineEnds_return hnext, ?_⟩
        rw [hglyphs]
        exact readContent_text (hmore text) (scanContent_return (head?_textGlyphs_ne hnext more))
    · by_cases hfeed : c = '\n'
      · subst hfeed
        refine ⟨['\n'], text, le_rfl, lineEnds_cons hreturn text, ?_⟩
        rw [hglyphs]
        exact readContent_text (hmore text) (scanContent_feed _)
      · have hplain : isPlain c = true := by
          simp [isPlain, endsText, hamp, hlt, hgt, hreturn, hfeed]
        obtain ⟨run, rest, rfl, hrun, hrest⟩ := exists_run text
        have hall : ∀ d ∈ c :: run, isPlain d = true := List.forall_mem_cons.mpr ⟨hplain, hrun⟩
        refine ⟨c :: run, rest, by simp, ?_, readContent_run s available hall hrest more st⟩
        rw [← List.cons_append, lineEnds_append fun d hd => ne_return_of_isPlain (hall d hd)]

/-- **A written text is read in pieces**, which together are the text with its line ends made line
feeds. -/
theorem readContent_textGlyphs (s : Setting) (available : Entities) (text : List Char)
    (more : List Glyph) (st : ContentState) :
    ∃ pieces : List (List Char), pieces.flatten = lineEnds text ∧
      readContent s available 0 st (textGlyphs text ++ .char '<' :: more) =
        readContent s available 0 (st.pushAll (pieces.map .text)) (.char '<' :: more) := by
  -- The induction is on the length, since a run is read as a whole.
  induction hlength : text.length using Nat.strong_induction_on generalizing text st with
  | _ n ih =>
    subst hlength
    cases text with
    | nil => exact ⟨[], rfl, rfl⟩
    | cons c text =>
      obtain ⟨piece, rest, hle, hends, hstep⟩ := exists_first_piece s available c text more st
      rw [hends]
      exact exists_pieces_cons hstep
        (ih rest.length (Nat.lt_succ_of_le hle) rest (st.push (.text piece)) rfl)

end StationNaming.Xml
