import StationNaming.Proofs.Xml.Names
import StationNaming.Xml.Writer
/-!
# Escaped characters

A character that is escaped is written as a reference to itself, so reading an escaped value gives
the value.

**What is exact.** `attributeValue_escapeValue` covers every value, whatever characters it holds.
White space other than a blank is always escaped in a value, which is why normalising the value
leaves it as it was.
-/

namespace StationNaming.Xml

/-! ## References -/

/-- Whether a reference stands for a character in every document. -/
def Reference.StandsFor (c : Char) : Reference → Prop
  | .character code => referenced? code = some c
  | .entity name => predefined? name = some c

/-- **A written reference to a character**, whatever follows it. -/
def IsReferenceTo (c : Char) (cs : List Char) : Prop :=
  ∃ body r, cs = '&' :: body ∧ (∀ d ∈ body, d ≠ '"' ∧ d ≠ '<' ∧ d ≠ '&') ∧
    (∀ rest, scanReference (glyphs body ++ rest) = .ok (r, rest)) ∧ r.StandsFor c

theorem isReferenceTo_amp : IsReferenceTo '&' "&amp;".toList :=
  ⟨['a', 'm', 'p', ';'], .entity "amp", by simp, by simp, fun _ => rfl, rfl⟩

theorem isReferenceTo_lt : IsReferenceTo '<' "&lt;".toList :=
  ⟨['l', 't', ';'], .entity "lt", by simp, by simp, fun _ => rfl, rfl⟩

theorem isReferenceTo_gt : IsReferenceTo '>' "&gt;".toList :=
  ⟨['g', 't', ';'], .entity "gt", by simp, by simp, fun _ => rfl, rfl⟩

theorem isReferenceTo_quot : IsReferenceTo '"' "&quot;".toList :=
  ⟨['q', 'u', 'o', 't', ';'], .entity "quot", by simp, by simp, fun _ => rfl, rfl⟩

theorem isReferenceTo_return : IsReferenceTo '\r' "&#13;".toList :=
  ⟨['#', '1', '3', ';'], .character 13, by simp, by simp, fun _ => rfl, rfl⟩

theorem isReferenceTo_feed : IsReferenceTo '\n' "&#10;".toList :=
  ⟨['#', '1', '0', ';'], .character 10, by simp, by simp, fun _ => rfl, rfl⟩

theorem isReferenceTo_tab : IsReferenceTo '\t' "&#09;".toList :=
  ⟨['#', '0', '9', ';'], .character 9, by simp, by simp, fun _ => rfl, rfl⟩

/-- **A character of text is written as a reference or as it is**; a carriage return is as it is. -/
theorem escapeTextChar_cases (c : Char) :
    (IsReferenceTo c (escapeTextChar c) ∧ c ≠ '\r') ∨
      (escapeTextChar c = [c] ∧ c ≠ '&' ∧ c ≠ '<' ∧ c ≠ '>') := by
  unfold escapeTextChar
  split_ifs with hamp hlt hgt
  · rw [beq_iff_eq.mp hamp]
    exact .inl ⟨isReferenceTo_amp, by decide⟩
  · rw [beq_iff_eq.mp hlt]
    exact .inl ⟨isReferenceTo_lt, by decide⟩
  · rw [beq_iff_eq.mp hgt]
    exact .inl ⟨isReferenceTo_gt, by decide⟩
  · exact .inr ⟨rfl, by simpa using hamp, by simpa using hlt, by simpa using hgt⟩

/-- **A character of a value is written as a reference or as it is**, and it is as it is only if it
is no white space but a blank. -/
theorem escapeValueChar_cases (c : Char) :
    IsReferenceTo c (escapeValueChar c) ∨
      (escapeValueChar c = [c] ∧ c ≠ '&' ∧ c ≠ '<' ∧ c ≠ '"' ∧ (isSpace c = true → c = ' ')) := by
  unfold escapeValueChar
  split_ifs with hquot hreturn hfeed htab
  · rw [beq_iff_eq.mp hquot]
    exact .inl isReferenceTo_quot
  · rw [beq_iff_eq.mp hreturn]
    exact .inl isReferenceTo_return
  · rw [beq_iff_eq.mp hfeed]
    exact .inl isReferenceTo_feed
  · rw [beq_iff_eq.mp htab]
    exact .inl isReferenceTo_tab
  · refine (escapeTextChar_cases c).imp And.left fun ⟨heq, hamp, hlt, _⟩ => ?_
    refine ⟨heq, hamp, hlt, by simpa using hquot, fun hspace => ?_⟩
    simp only [isSpace, Bool.or_eq_true] at hspace
    simp_all

/-! ## Values -/

/-- The written characters of a value. -/
def valueGlyphs (value : List Char) : List Glyph := glyphs (value.flatMap escapeValueChar)

theorem toList_escapeValue (value : String) :
    glyphs (escapeValue value).toList = valueGlyphs value.toList := by
  rw [escapeValue, String.toList_ofList, valueGlyphs]

theorem valueGlyphs_cons (c : Char) (cs : List Char) :
    valueGlyphs (c :: cs) = glyphs (escapeValueChar c) ++ valueGlyphs cs := by
  rw [valueGlyphs, List.flatMap_cons, glyphs_append, valueGlyphs]

/-- Characters that are nothing special in a value are read as they are. -/
theorem scanValue_glyphs_append {cs : List Char} (h : ∀ d ∈ cs, d ≠ '"' ∧ d ≠ '<' ∧ d ≠ '&')
    {rest value after : List Glyph} (hrest : scanValue '"' rest = .ok (value, after)) :
    scanValue '"' (glyphs cs ++ rest) = .ok (glyphs cs ++ value, after) := by
  induction cs with
  | nil => exact hrest
  | cons c cs ih =>
    obtain ⟨⟨hquot, hlt, hamp⟩, hcs⟩ := List.forall_mem_cons.mp h
    simp [scanValue, hquot, hlt, hamp, ih hcs]

/-- **A written value is read up to its closing quote.** -/
theorem scanValue_valueGlyphs (value : List Char) (more : List Glyph) :
    scanValue '"' (valueGlyphs value ++ .char '"' :: more) =
      .ok (valueGlyphs value, .char '"' :: more) := by
  induction value with
  | nil => rfl
  | cons c value ih =>
    rw [valueGlyphs_cons, List.append_assoc]
    rcases escapeValueChar_cases c with ⟨body, r, heq, hbody, hscan, -⟩ | ⟨heq, hamp, hlt, hquot, -⟩
    · rw [heq, glyphs_cons, List.cons_append, List.cons_append, scanValue]
      simp [hscan, scanValue_glyphs_append hbody ih]
    · rw [heq]
      exact scanValue_glyphs_append (by simp [hamp, hlt, hquot]) ih

/-- Where a value is no list of tokens, every blank counts. -/
@[simp] theorem pushBlank_false (acc : List Char) : pushBlank false acc = ' ' :: acc := by
  cases acc <;> simp [pushBlank]

/-- A reference in a value is read as the character it stands for. -/
theorem normalize_reference {d : Doctype} {c : Char} {r : Reference} {after rest : List Glyph}
    (hscan : scanReference after = .ok (r, rest)) (hstands : r.StandsFor c) (acc : List Char) :
    normalize d false [] acc (.char '&' :: after) = normalize d false [] (c :: acc) rest := by
  cases r with
  | character code =>
    have hcode : referenced? code = some c := hstands
    rw [normalize]
    by_cases hblank : c = ' ' <;> split <;> simp_all
  | entity name =>
    have hname : predefined? name = some c := hstands
    rw [normalize]
    split <;> simp_all

/-- A character that is nothing special is read as it is. -/
theorem normalize_char {d : Doctype} {c : Char} (hamp : c ≠ '&') (hlt : c ≠ '<')
    (hblank : isSpace c = true → c = ' ') (acc : List Char) (rest : List Glyph) :
    normalize d false [] acc (.char c :: rest) = normalize d false [] (c :: acc) rest := by
  have hreturn : c ≠ '\r' := by
    rintro rfl
    exact absurd (hblank (by decide)) (by decide)
  rw [normalize]
  · by_cases hspace : isSpace c = true
    · rw [if_pos hspace, pushBlank_false, hblank hspace]
    · simp [hspace]
  all_goals simp_all

/-- One written character of a value is read as that character. -/
theorem normalize_escapeValueChar {d : Doctype} (c : Char) (acc : List Char) (rest : List Glyph) :
    normalize d false [] acc (glyphs (escapeValueChar c) ++ rest) =
      normalize d false [] (c :: acc) rest := by
  rcases escapeValueChar_cases c with ⟨body, r, heq, -, hscan, hstands⟩ |
    ⟨heq, hamp, hlt, -, hblank⟩
  · rw [heq, glyphs_cons, List.cons_append, normalize_reference (hscan rest) hstands]
  · rw [heq, glyphs_cons, glyphs_nil, List.cons_append, List.nil_append,
      normalize_char hamp hlt hblank]

/-- **Reading a written value gives the value.** -/
theorem attributeValue_escapeValue {d : Doctype} (hd : d.entities = []) (value : String) :
    attributeValue d false (glyphs (escapeValue value).toList) = .ok value := by
  have hread : ∀ (cs acc : List Char), normalize d false [] acc (valueGlyphs cs) =
      .ok (cs.reverse ++ acc) := by
    intro cs
    induction cs with
    | nil => intro acc; simp [valueGlyphs, normalize]
    | cons c cs ih =>
      intro acc
      rw [valueGlyphs_cons, normalize_escapeValueChar, ih, List.reverse_cons, List.append_assoc]
      rfl
  rw [attributeValue, hd, toList_escapeValue, hread]
  simp

end StationNaming.Xml
