import StationNaming.Proofs.Xml.Characters
import StationNaming.Xml.ContentToken
import StationNaming.Xml.PrologToken
/-!
# What is scanned from legible glyphs

Every reader leaves a part of what it was given, so what is legible stays so. The names in its
tokens are names, and the texts and values in them are legible.

**What is exact.** `sound_of_scanContent` and `sound_of_scanProlog` cover every token that is
scanned from legible glyphs.
-/

namespace StationNaming.Xml

/-! ## Legible glyphs -/

@[grind =]
theorem legible_cons_char {c : Char} {cs : List Glyph} :
    Legible (.char c :: cs) ↔ IsDocumentChar c ∧ Legible cs := by
  refine ⟨fun h => ⟨h c List.mem_cons_self, fun d hd => h d (List.mem_cons_of_mem _ hd)⟩, ?_⟩
  exact fun h => h.2.cons h.1

theorem Legible.tail {g : Glyph} {cs : List Glyph} (h : Legible (g :: cs)) : Legible cs :=
  fun c hc => h c (List.mem_cons_of_mem g hc)

@[grind =]
theorem legible_cons_bareReturn {cs : List Glyph} : Legible (.bareReturn :: cs) ↔ Legible cs :=
  ⟨Legible.tail, fun h c hc => h c ((List.mem_cons.mp hc).resolve_left nofun)⟩

@[grind .]
theorem legible_nil : Legible [] := fun _ hc => absurd hc List.not_mem_nil

/-- Some characters that may all stand in a document. -/
def AllDocument (cs : List Char) : Prop := ∀ c ∈ cs, IsDocumentChar c

@[grind .]
theorem allDocument_nil : AllDocument [] := List.forall_mem_nil _

@[grind =]
theorem allDocument_cons {c : Char} {cs : List Char} :
    AllDocument (c :: cs) ↔ IsDocumentChar c ∧ AllDocument cs := List.forall_mem_cons

/-- What line ends are read as may stand in a document. -/
theorem isDocumentChar_feed : IsDocumentChar '\n' := by decide

/-- What a carriage return that ends no line is read as may stand in a document. -/
theorem isDocumentChar_return : IsDocumentChar '\r' := by decide

theorem legible_dropSpace {cs : List Glyph} (h : Legible cs) : Legible (dropSpace cs) := by
  fun_induction dropSpace cs <;> grind

/-! ## Names -/

theorem spanName_spec {cs : List Glyph} (h : Legible cs) :
    (∀ c ∈ (spanName cs).1, isNameChar c = true) ∧ Legible (spanName cs).2 := by
  fun_induction spanName cs <;> grind

theorem scanNameRest_spec {cs rest : List Glyph} {name : List Char} (h : Legible cs)
    (hscan : scanNameRest cs = .ok (name, rest)) :
    (∀ c ∈ name, isNameChar c = true) ∧ Legible rest := by
  have hspan := spanName_spec h
  unfold scanNameRest at hscan
  split at hscan
  · cases hscan
  · next heq =>
    rw [heq] at hspan
    cases hscan
    exact hspan

/-- **What is scanned as a name is one.** -/
theorem scanName_spec {cs rest : List Glyph} {name : List Char} (h : Legible cs)
    (hscan : scanName cs = .ok (name, rest)) : IsName name ∧ Legible rest := by
  unfold scanName at hscan
  split at hscan
  · next c cs' =>
    split_ifs at hscan with hstart
    split at hscan
    · cases hscan
    · next hrest =>
      obtain ⟨hchars, hlegible⟩ := scanNameRest_spec (legible_cons_char.mp h).2 hrest
      cases hscan
      exact ⟨⟨c, _, rfl, hstart, hchars⟩, hlegible⟩
  · cases hscan

theorem scanQName_spec {cs rest : List Glyph} {name : List Char} (h : Legible cs)
    (hscan : scanQName cs = .ok (name, rest)) : IsQName name ∧ Legible rest := by
  unfold scanQName at hscan
  split at hscan
  · next first rest' hfirst =>
    obtain ⟨hname, hrest⟩ := scanName_spec h hfirst
    split at hscan
    · cases hscan
    · next second rest'' hsecond =>
      obtain ⟨hname', hrest'⟩ := scanName_spec (legible_cons_char.mp hrest).2 hsecond
      cases hscan
      exact ⟨.inr ⟨first, second, rfl, hname, hname'⟩, hrest'⟩
  · obtain ⟨hname, hrest⟩ := scanName_spec h hscan
    exact ⟨.inl hname, hrest⟩

/-- The characters of a name may stand in a document. -/
theorem IsName.allDocument {name : List Char} (h : IsName name) : AllDocument name :=
  fun c hc => isDocumentChar_of_isNameChar (h.isToken.2 c hc)

/-! ## References -/

theorem legible_of_scanDigits {base value : Nat} {isDigit : Char → Bool} {cs rest : List Glyph}
    {r : Reference}
    (h : Legible cs) (hscan : scanDigits base isDigit value cs = .ok (r, rest)) : Legible rest := by
  fun_induction scanDigits base isDigit value cs <;> grind

theorem legible_of_scanNumber {base : Nat} {isDigit : Char → Bool} {cs rest : List Glyph}
    {r : Reference}
    (h : Legible cs) (hscan : scanNumber base isDigit cs = .ok (r, rest)) : Legible rest := by
  unfold scanNumber at hscan
  grind [→ legible_of_scanDigits]

theorem legible_of_scanReference {cs rest : List Glyph} {r : Reference} (h : Legible cs)
    (hscan : scanReference cs = .ok (r, rest)) : Legible rest := by
  unfold scanReference at hscan
  grind [→ legible_of_scanNumber, → scanName_spec]

theorem scanDigits_ne_entity {base value : Nat} {isDigit : Char → Bool} {cs rest : List Glyph}
    (name : String) :
    scanDigits base isDigit value cs ≠ .ok (.entity name, rest) := by
  fun_induction scanDigits base isDigit value cs <;> simp_all

/-- **An entity is referred to by a name.** -/
theorem allDocument_of_scanReference {cs rest : List Glyph} {name : String} (h : Legible cs)
    (hscan : scanReference cs = .ok (.entity name, rest)) : AllDocument name.toList := by
  have hnumber : ∀ {base : Nat} {isDigit : Char → Bool} {ds : List Glyph},
      scanNumber base isDigit ds ≠ .ok (.entity name, rest) := by
    intro base isDigit ds
    unfold scanNumber
    split
    · split_ifs
      · exact scanDigits_ne_entity name
      · exact nofun
    · exact nofun
  unfold scanReference at hscan
  split at hscan
  · exact absurd hscan hnumber
  · exact absurd hscan hnumber
  · split at hscan
    · cases hscan
    · next hname =>
      cases hscan
      rw [String.toList_ofList]
      exact (scanName_spec h hname).1.allDocument
    · cases hscan

/-- **A character that is referred to by its code** may stand in a document. -/
theorem isDocumentChar_of_referenced? {code : Nat} {c : Char} (h : referenced? code = some c) :
    IsDocumentChar c := by
  unfold referenced? at h
  split_ifs at h with hbad
  simp only [Bool.or_eq_true, Bool.and_eq_true, decide_eq_true_eq, bne_iff_ne, beq_iff_eq] at hbad
  have hvalid : code.isValidChar := by
    simp only [Nat.isValidChar]
    omega
  have hcode : (Char.ofNat code).toNat = code := by
    rw [Char.ofNat, dif_pos hvalid]
    rfl
  rw [← Option.some.inj h, isDocumentChar_iff, hcode]
  omega

theorem isDocumentChar_of_predefined? {name : String} {c : Char} (h : predefined? name = some c) :
    IsDocumentChar c := by
  have hpredefined : c = '<' ∨ c = '>' ∨ c = '&' ∨ c = '"' ∨ c = '\'' := by
    unfold predefined? at h
    grind
  rcases hpredefined with rfl | rfl | rfl | rfl | rfl <;> decide

/-! ## Comments and instructions -/

theorem legible_of_skipComment {cs rest : List Glyph} (h : Legible cs)
    (hscan : skipComment cs = .ok rest) :
    Legible rest := by
  fun_induction skipComment cs <;> grind

theorem legible_of_scanComment {cs rest : List Glyph} (h : Legible cs)
    (hscan : scanComment cs = .ok rest) :
    Legible rest := by
  unfold scanComment at hscan
  grind [→ legible_of_skipComment]

theorem legible_of_skipInstruction {cs rest : List Glyph} (h : Legible cs)
    (hscan : skipInstruction cs = .ok rest) : Legible rest := by
  fun_induction skipInstruction cs <;> grind

theorem legible_of_endInstruction {cs rest : List Glyph} (h : Legible cs)
    (hscan : endInstruction cs = .ok rest) : Legible rest := by
  unfold endInstruction at hscan
  grind [→ legible_of_skipInstruction]

theorem legible_of_scanInstruction {cs rest : List Glyph} {b : Bool} (h : Legible cs)
    (hscan : scanInstruction cs = .ok (b, rest)) : Legible rest := by
  unfold scanInstruction at hscan
  grind [→ scanName_spec, → legible_of_endInstruction]

/-! ## Tags -/

theorem scanValue_spec {quote : Char} {cs value rest : List Glyph} (h : Legible cs)
    (hscan : scanValue quote cs = .ok (value, rest)) : Legible value ∧ Legible rest := by
  fun_induction scanValue quote cs generalizing value rest <;> grind

theorem legible_of_afterEquals {cs rest : List Glyph} (h : Legible cs)
    (hscan : afterEquals cs = .ok rest) :
    Legible rest := by
  unfold afterEquals at hscan
  grind [→ legible_dropSpace]

theorem scanQuoted_spec {cs value after rest : List Glyph} (h : Legible cs)
    (hscan : scanQuoted cs = .ok ((value, after), rest)) : Legible value ∧ Legible rest := by
  unfold scanQuoted at hscan
  grind [→ scanValue_spec, → Legible.tail]

/-- **An attribute that was scanned** has a name, and its value is legible. -/
structure RawAttribute.Sound (a : RawAttribute) : Prop where
  name : IsQName a.name.toList
  value : Legible a.value

theorem scanAttribute_spec {cs rest : List Glyph} {a : RawAttribute} (h : Legible cs)
    (hscan : scanAttribute cs = .ok (a, rest)) : a.Sound ∧ Legible rest := by
  unfold scanAttribute at hscan
  split at hscan
  · cases hscan
  · next hscanned =>
    obtain ⟨hname, hafter⟩ := scanQName_spec h hscanned
    split at hscan
    · cases hscan
    · next hequals =>
      have hquoted := legible_of_afterEquals hafter hequals
      split at hscan
      · cases hscan
      · next hscanned =>
        obtain ⟨hvalue, hrest⟩ := scanQuoted_spec hquoted hscanned
        cases hscan
        exact ⟨⟨by rwa [String.toList_ofList], hvalue⟩, hrest⟩

theorem endEmpty_spec {cs rest : List Glyph} {as : List RawAttribute} {isEmpty : Bool}
    (h : Legible cs)
    (hscan : endEmpty cs = .ok ((as, isEmpty), rest)) : as = [] ∧ Legible rest := by
  unfold endEmpty at hscan
  grind

theorem scanAttributes_spec {spaced isEmpty : Bool} {cs rest : List Glyph} {as : List RawAttribute}
    (h : Legible cs) (hscan : scanAttributes spaced cs = .ok ((as, isEmpty), rest)) :
    (∀ a ∈ as, a.Sound) ∧ Legible rest := by
  fun_induction scanAttributes spaced cs generalizing as isEmpty rest <;>
    grind [→ endEmpty_spec, → scanAttribute_spec]

/-! ## Text -/

theorem scanText_spec {cs rest : List Glyph} {text : List Char} (h : Legible cs)
    (hscan : scanText cs = .ok (text, rest)) : AllDocument text ∧ Legible rest := by
  have hreturn := isDocumentChar_return
  fun_induction scanText cs generalizing text rest <;> grind

theorem scanLiteralSection_spec {cs rest : List Glyph} {text : List Char} (h : Legible cs)
    (hscan : scanLiteralSection cs = .ok (text, rest)) : AllDocument text ∧ Legible rest := by
  have hfeed := isDocumentChar_feed
  have hreturn := isDocumentChar_return
  fun_induction scanLiteralSection cs generalizing text rest <;> grind

theorem legible_of_skipKeyword {ks : List Char} {cs rest : List Glyph} (h : Legible cs)
    (hscan : skipKeyword ks cs = .ok rest) : Legible rest := by
  fun_induction skipKeyword ks cs <;> grind

theorem legible_of_openLiteralSection {cs rest : List Glyph} (h : Legible cs)
    (hscan : openLiteralSection cs = .ok rest) : Legible rest := by
  unfold openLiteralSection at hscan
  grind [→ legible_of_skipKeyword]

/-! ## Tokens of content -/

/-- **A token that was scanned from legible glyphs.** -/
def ContentToken.Sound : ContentToken → Prop
  | .text cs => AllDocument cs
  | .start name attributes _ => IsQName name.toList ∧ ∀ a ∈ attributes, a.Sound
  | _ => True

theorem scanStartTag_spec {cs rest : List Glyph} {t : ContentToken} (h : Legible cs)
    (hscan : scanStartTag cs = .ok (t, rest)) : t.Sound ∧ Legible rest := by
  unfold scanStartTag at hscan
  split at hscan
  · cases hscan
  · next hscanned =>
    obtain ⟨hname, hafter⟩ := scanQName_spec h hscanned
    split at hscan
    · cases hscan
    · next hscanned' =>
      obtain ⟨hattributes, hrest⟩ := scanAttributes_spec hafter hscanned'
      cases hscan
      exact ⟨⟨by rwa [String.toList_ofList], hattributes⟩, hrest⟩

theorem legible_spanEndName {cs : List Glyph} (h : Legible cs) : Legible (spanEndName cs).2 := by
  fun_induction spanEndName cs <;> grind

theorem scanEndTag_spec {cs rest : List Glyph} {t : ContentToken} (h : Legible cs)
    (hscan : scanEndTag cs = .ok (t, rest)) : t.Sound ∧ Legible rest := by
  have hclose : ∀ {ds rest : List Glyph}, Legible ds → closeEndTag ds = .ok rest →
    Legible rest := by
    intro ds rest hds hclosed
    unfold closeEndTag at hclosed
    grind [→ legible_dropSpace]
  unfold scanEndTag at hscan
  grind [ContentToken.Sound, → legible_spanEndName]

theorem scanContentText_spec {cs rest : List Glyph} {t : ContentToken} (h : Legible cs)
    (hscan : scanContentText cs = .ok (t, rest)) : t.Sound ∧ Legible rest := by
  unfold scanContentText at hscan
  grind [ContentToken.Sound, → scanText_spec]

theorem scanContentSection_spec {start cs rest : List Glyph} {t : ContentToken} (h : Legible cs)
    (hscan : scanContentSection start cs = .ok (t, rest)) : t.Sound ∧ Legible rest := by
  unfold scanContentSection at hscan
  grind [ContentToken.Sound, → legible_of_openLiteralSection, → scanLiteralSection_spec]

/-- **Every token of content** is sound, and what follows it is legible. -/
theorem sound_of_scanContent {cs rest : List Glyph} {t : ContentToken} (h : Legible cs)
    (hscan : scanContent cs = .ok (t, rest)) : t.Sound ∧ Legible rest := by
  unfold scanContent at hscan
  split at hscan
  case h_1 more =>
    rw [placed_eq_ok] at hscan
    unfold ignoring at hscan
    grind [ContentToken.Sound, → legible_of_scanComment]
  case h_2 more => exact scanContentSection_spec h.tail.tail.tail hscan
  case h_3 => cases hscan
  case h_4 more =>
    rw [placed_eq_ok] at hscan
    unfold scanContentInstruction at hscan
    grind [ContentToken.Sound, → legible_of_scanInstruction]
  case h_5 more => exact scanEndTag_spec h.tail.tail (placed_eq_ok.mp hscan)
  case h_6 more _ _ _ _ _ => exact scanStartTag_spec h.tail (placed_eq_ok.mp hscan)
  case h_7 more =>
    rw [placed_eq_ok] at hscan
    unfold scanContentReference at hscan
    grind [ContentToken.Sound, → legible_of_scanReference]
  case h_8 | h_9 | h_10 =>
    cases hscan
    exact ⟨List.forall_mem_singleton.mpr isDocumentChar_feed, by grind⟩
  case h_11 => exact scanContentText_spec h (placed_eq_ok.mp hscan)

/-! ## Tokens outside the root element -/

/-- **A token outside the root element that was scanned from legible glyphs.** -/
def PrologToken.Sound : PrologToken → Prop
  | .name s | .qualified s => IsQToken s.toList
  | .literal content _ => Legible content
  | _ => True

theorem legible_spanKeyword {cs : List Glyph} (h : Legible cs) : Legible (spanKeyword cs).2 := by
  fun_induction spanKeyword cs <;> grind

theorem scanOpening_spec {cs rest : List Glyph} {t : PrologToken} (h : Legible cs)
    (hscan : scanOpening cs = .ok (t, rest)) : t.Sound ∧ Legible rest := by
  have hkeyword := legible_spanKeyword h
  unfold scanOpening at hscan
  grind [PrologToken.Sound, → legible_of_scanComment]

theorem scanPrologInstruction_spec {cs rest : List Glyph} {t : PrologToken} (h : Legible cs)
    (hscan : scanPrologInstruction cs = .ok (t, rest)) : t.Sound ∧ Legible rest := by
  unfold scanPrologInstruction at hscan
  grind [PrologToken.Sound, → legible_of_scanInstruction]

theorem spanLiteral_spec {quote : Char} {cs content rest : List Glyph} (h : Legible cs)
    (hscan : spanLiteral quote cs = .ok (content, rest)) : Legible content ∧ Legible rest := by
  fun_induction spanLiteral quote cs generalizing content rest <;> grind

theorem scanLiteral_spec {quote : Char} {cs rest : List Glyph} {t : PrologToken} (h : Legible cs)
    (hscan : scanLiteral quote cs = .ok (t, rest)) : t.Sound ∧ Legible rest := by
  unfold scanLiteral at hscan
  grind [PrologToken.Sound, → spanLiteral_spec]

theorem scanPercent_spec {cs rest : List Glyph} {t : PrologToken} (h : Legible cs)
    (hscan : scanPercent cs = .ok (t, rest)) : t.Sound ∧ Legible rest := by
  unfold scanPercent at hscan
  grind [PrologToken.Sound, → scanName_spec]

theorem scanPound_spec {cs rest : List Glyph} {t : PrologToken} (h : Legible cs)
    (hscan : scanPound cs = .ok (t, rest)) : t.Sound ∧ Legible rest := by
  unfold scanPound at hscan
  grind [PrologToken.Sound, → scanName_spec]

theorem scanCloseParen_spec {cs rest : List Glyph} {t : PrologToken} (h : Legible cs)
    (hscan : scanCloseParen cs = .ok (t, rest)) : t.Sound ∧ Legible rest := by
  unfold scanCloseParen at hscan
  grind [PrologToken.Sound]

theorem scanCloseBracket_spec {cs rest : List Glyph} {t : PrologToken} (h : Legible cs)
    (hscan : scanCloseBracket cs = .ok (t, rest)) : t.Sound ∧ Legible rest := by
  unfold scanCloseBracket at hscan
  grind [PrologToken.Sound]

/-! ## Names outside the root element -/

/-- **What has been read of a name**, its last character first, and what follows it: a run of name
characters, or two with a colon between them, the second of which may be about to begin. -/
def NameKind.Fits (acc : List Char) (cs : List Glyph) : NameKind → Prop
  | .plain => IsToken acc.reverse
  | .qualified => ∃ p l, acc.reverse = p ++ ':' :: l ∧ IsToken p ∧ (∀ c ∈ l, isNameChar c = true) ∧
      (l = [] → ∃ c more, cs = .char c :: more ∧ isNameChar c = true)
  | .token => True

/-- One more name character. -/
theorem NameKind.Fits.cons {kind : NameKind} {acc : List Char} {c : Char} {cs : List Glyph}
    (h : kind.Fits acc (.char c :: cs)) (hc : isNameChar c = true) : kind.Fits (c :: acc) cs := by
  cases kind with
  | plain =>
    refine ⟨by simp, fun d hd => ?_⟩
    rcases List.mem_cons.mp (List.mem_reverse.mp hd) with rfl | hd
    · exact hc
    · exact h.2 d (List.mem_reverse.mpr hd)
  | qualified =>
    obtain ⟨p, l, heq, hp, hl, -⟩ := h
    refine ⟨p, l ++ [c], by simp [heq], hp, ?_, fun hnil => absurd hnil (by simp)⟩
    exact List.forall_mem_append.mpr ⟨hl, List.forall_mem_singleton.mpr hc⟩
  | token => trivial

/-- A colon. -/
theorem NameKind.Fits.colon {kind : NameKind} {acc : List Char} {cs : List Glyph}
    (h : kind.Fits acc (.char ':' :: cs)) : (kind.colon cs).Fits (':' :: acc) cs := by
  unfold NameKind.colon
  split
  · next c more =>
    split_ifs with hc
    · exact ⟨acc.reverse, [], by simp, h, List.forall_mem_nil _, fun _ => ⟨c, more, rfl, hc⟩⟩
    · trivial
  · trivial
  · trivial

/-- **A name that ends is one.** -/
theorem NameKind.Fits.sound {kind : NameKind} {acc : List Char} {cs : List Glyph}
    (h : kind.Fits acc cs) (hend : ∀ c more, cs = .char c :: more → isNameChar c = false) :
      (kind.token? acc.reverse).Sound := by
  cases kind with
  | plain =>
    refine Or.inl ?_
    rw [String.toList_ofList]
    exact h
  | qualified =>
    obtain ⟨p, l, heq, hp, hl, hnext⟩ := h
    refine Or.inr ⟨p, l, ?_, hp, ?_, hl⟩
    · rw [String.toList_ofList, heq]
    · intro hnil
      obtain ⟨c, more, hcs, hc⟩ := hnext hnil
      rw [hend c more hcs] at hc
      cases hc
  | token => trivial

theorem scanPrologName_spec {kind : NameKind} {acc : List Char} {cs rest : List Glyph}
    {t : PrologToken} (h : Legible cs) (hfits : kind.Fits acc cs)
    (hscan : scanPrologName kind acc cs = .ok (t, rest)) :
    t.Sound ∧ Legible rest := by
  induction cs generalizing kind acc with
  | nil =>
    cases hscan
    exact ⟨hfits.sound nofun, legible_nil⟩
  | cons g cs ih =>
    unfold scanPrologName at hscan
    split at hscan
    · next heq => cases heq
    · next c more heq =>
      obtain ⟨rfl, rfl⟩ := List.cons.inj heq
      split_ifs at hscan with hname hcolon hunclosed hcut hends hrepeat htoken
      · exact ih h.tail (hfits.cons hname) hscan
      · obtain rfl : c = ':' := beq_iff_eq.mp hcolon
        exact ih h.tail hfits.colon hscan
      · cases hscan
        refine ⟨hfits.sound ?_, h⟩
        rintro d more heq
        obtain ⟨hd, -⟩ := List.cons.inj heq
        exact Glyph.char.inj hd ▸ Bool.eq_false_iff.mpr hname
      · cases hscan
        exact ⟨trivial, h.tail⟩
    · cases hscan

/-- **Every token outside the root element** is sound, and what follows it is legible. -/
theorem sound_of_scanProlog {cs rest : List Glyph} {t : PrologToken} (h : Legible cs)
    (hscan : scanProlog cs = .ok (t, rest)) : t.Sound ∧ Legible rest := by
  unfold scanProlog at hscan
  split at hscan
  case h_1 more =>
    unfold scanAngle at hscan
    split at hscan
    · exact scanOpening_spec h.tail.tail hscan
    · exact scanPrologInstruction_spec h.tail.tail hscan
    · split_ifs at hscan
      cases hscan
      exact ⟨trivial, h⟩
  case h_2 | h_3 => exact scanLiteral_spec h.tail hscan
  case h_4 => exact scanPercent_spec h.tail hscan
  case h_7 => exact scanCloseBracket_spec h.tail hscan
  case h_9 => exact scanCloseParen_spec h.tail hscan
  case h_12 => exact scanPound_spec h.tail hscan
  case h_13 c more _ _ _ _ _ _ _ _ _ _ _ _ =>
    split_ifs at hscan with hspace hstart hchar
    · cases hscan
      exact ⟨trivial, legible_dropSpace h.tail⟩
    · have hfits : NameKind.plain.Fits [c] more :=
        ⟨List.cons_ne_nil _ _, List.forall_mem_singleton.mpr (isNameChar_of_isNameStart hstart)⟩
      exact scanPrologName_spec h.tail hfits hscan
    · exact @scanPrologName_spec .token _ _ _ _ h.tail trivial hscan
  case h_14 => cases hscan
  all_goals
    cases hscan
    exact ⟨trivial, h.tail⟩

end StationNaming.Xml
