import Mathlib.Data.List.TakeDrop
import Mathlib.Data.List.TakeWhile
import Mathlib.Tactic.Common
import StationNaming.Xml.Namespace
/-!
# Names in a document

Names told apart from other runs of name characters: a name begins with a letter or an underscore,
and may have one colon between two names. Only names are scanned as such.

**What is exact.** `scanQName_of_isQName` and `scanQName_of_not_isQName` cover every run of name
characters with at most one colon inside: if it is a name it is scanned whole, up to what ends it,
and otherwise scanning fails.
-/

namespace StationNaming.Xml

/-! ## Glyphs -/

@[simp] theorem glyphs_nil : glyphs [] = [] := rfl

@[simp] theorem glyphs_cons (c : Char) (cs : List Char) : glyphs (c :: cs) = .char c :: glyphs cs :=
  rfl

@[simp] theorem glyphs_append (cs ds : List Char) : glyphs (cs ++ ds) = glyphs cs ++ glyphs ds :=
  List.map_append

/-! ## Names and tokens -/

/-- **A run of name characters**, not empty. -/
def IsToken (cs : List Char) : Prop := cs ≠ [] ∧ ∀ c ∈ cs, isNameChar c = true

/-- **A name without a colon.** -/
def IsName (cs : List Char) : Prop :=
  ∃ c rest, cs = c :: rest ∧ isNameStart c = true ∧ ∀ d ∈ rest, isNameChar d = true

/-- A token, or two with a colon between them. -/
def IsQToken (cs : List Char) : Prop :=
  IsToken cs ∨ ∃ p l, cs = p ++ ':' :: l ∧ IsToken p ∧ IsToken l

/-- **A name with at most one colon**, each side of which is a name. -/
def IsQName (cs : List Char) : Prop :=
  IsName cs ∨ ∃ p l, cs = p ++ ':' :: l ∧ IsName p ∧ IsName l

theorem isNameChar_of_isNameStart {c : Char} (h : isNameStart c = true) : isNameChar c = true := by
  unfold isNameStart at h
  unfold isNameChar
  split at h
  · next hascii =>
    rw [if_pos hascii]
    simp only [Bool.or_eq_true] at h ⊢
    tauto
  · next hascii =>
    rw [if_neg hascii, h, Bool.true_or]

theorem IsName.isToken {cs : List Char} (h : IsName cs) : IsToken cs := by
  obtain ⟨c, rest, rfl, hstart, hrest⟩ := h
  exact ⟨List.cons_ne_nil c rest,
    List.forall_mem_cons.mpr ⟨isNameChar_of_isNameStart hstart, hrest⟩⟩

theorem IsQName.isQToken {cs : List Char} (h : IsQName cs) : IsQToken cs := by
  rcases h with h | ⟨p, l, rfl, hp, hl⟩
  · exact .inl h.isToken
  · exact .inr ⟨p, l, rfl, hp.isToken, hl.isToken⟩

/-- A token is a name exactly if its first character may start one. -/
theorem isName_cons_iff {c : Char} {cs : List Char} (h : IsToken (c :: cs)) :
    IsName (c :: cs) ↔ isNameStart c = true := by
  constructor
  · rintro ⟨d, rest, heq, hstart, -⟩
    obtain ⟨rfl, -⟩ := List.cons_eq_cons.mp heq
    exact hstart
  · intro hstart
    exact ⟨c, cs, rfl, hstart, (List.forall_mem_cons.mp h.2).2⟩

theorem colon_notMem_of_isToken {cs : List Char} (h : IsToken cs) : ':' ∉ cs :=
  fun hmem => absurd (h.2 ':' hmem) (by decide)

/-! ## Scanning names -/

/-- A character that ends every name. -/
def EndsName (c : Char) : Prop := isNameChar c = false ∧ c ≠ ':'

theorem spanName_glyphs {cs : List Char} (h : ∀ c ∈ cs, isNameChar c = true) {e : Char}
    (hend : isNameChar e = false) (more : List Glyph) :
    spanName (glyphs cs ++ .char e :: more) = (cs, .char e :: more) := by
  induction cs with
  | nil => simp [spanName, hend]
  | cons c cs ih =>
    obtain ⟨hc, hcs⟩ := List.forall_mem_cons.mp h
    simp [spanName, hc, ih hcs]

theorem scanName_glyphs {c : Char} {cs : List Char} (h : IsToken (c :: cs)) {e : Char}
    (hend : isNameChar e = false) (more : List Glyph) :
    scanName (glyphs (c :: cs) ++ .char e :: more) =
      if isNameStart c = true then .ok (c :: cs, .char e :: more)
      else .error (.invalid (glyphs (c :: cs) ++ .char e :: more)) := by
  have hspan := spanName_glyphs (List.forall_mem_cons.mp h.2).2 hend more
  simp only [glyphs_cons, List.cons_append, scanName, scanNameRest, hspan]

/-- A name is scanned up to what ends it. -/
theorem scanName_of_isName {cs : List Char} (h : IsName cs) {e : Char} (hend : isNameChar e = false)
    (more : List Glyph) : scanName (glyphs cs ++ .char e :: more) = .ok (cs, .char e :: more) := by
  have htoken := h.isToken
  obtain ⟨c, rest, rfl, hstart, -⟩ := h
  rw [scanName_glyphs htoken hend, if_pos hstart]

/-- A token that is no name is not scanned. -/
theorem scanName_of_not_isName {cs : List Char} (htoken : IsToken cs) (h : ¬ IsName cs) {e : Char}
    (hend : isNameChar e = false) (more : List Glyph) :
    ∃ flaw, scanName (glyphs cs ++ .char e :: more) = .error flaw := by
  cases cs with
  | nil => exact absurd rfl htoken.1
  | cons c cs =>
    rw [scanName_glyphs htoken hend, if_neg (mt (isName_cons_iff htoken).mpr h)]
    exact ⟨_, rfl⟩

/-- **A name with at most one colon is scanned whole.** -/
theorem scanQName_of_isQName {cs : List Char} (h : IsQName cs) {e : Char} (hend : EndsName e)
    (more : List Glyph) : scanQName (glyphs cs ++ .char e :: more) = .ok (cs, .char e :: more) := by
  rcases h with h | ⟨p, l, rfl, hp, hl⟩
  · rw [scanQName, scanName_of_isName h hend.1]
    split
    · next heq =>
      simp only [Except.ok.injEq, Prod.mk.injEq, List.cons.injEq, Glyph.char.injEq] at heq
      exact absurd heq.2.1 hend.2
    · rfl
  · rw [scanQName, glyphs_append, glyphs_cons, List.append_assoc, List.cons_append,
      scanName_of_isName hp (by decide)]
    simp only [scanName_of_isName hl hend.1]

/-- **What is no name is not scanned as one.** -/
theorem scanQName_of_not_isQName {cs : List Char} (htoken : IsQToken cs)
    (h : ¬ IsQName cs) {e : Char} (hend : EndsName e) (more : List Glyph) :
    ∃ flaw, scanQName (glyphs cs ++ .char e :: more) = .error flaw := by
  rcases htoken with htoken | ⟨p, l, rfl, hp, hl⟩
  · obtain ⟨flaw, hflaw⟩ := scanName_of_not_isName htoken (fun hname => h (.inl hname)) hend.1 more
    exact ⟨flaw, by rw [scanQName, hflaw]⟩
  · rw [scanQName, glyphs_append, glyphs_cons, List.append_assoc, List.cons_append]
    by_cases hname : IsName p
    · have hnot : ¬ IsName l := fun hl' => h (.inr ⟨p, l, rfl, hname, hl'⟩)
      obtain ⟨flaw, hflaw⟩ := scanName_of_not_isName hl hnot hend.1 more
      rw [scanName_of_isName hname (by decide)]
      exact ⟨flaw, by simp only [hflaw]⟩
    · obtain ⟨flaw, hflaw⟩ :=
        scanName_of_not_isName hp hname (show isNameChar ':' = false by decide)
          (glyphs l ++ .char e :: more)
      exact ⟨flaw, by rw [hflaw]⟩

/-- The rest of a name in an end tag is read up to what ends it. -/
theorem spanEndName_glyphs {cs : List Char} (h : ∀ c ∈ cs, isNameChar c = true ∨ c = ':') {e : Char}
    (hend : EndsName e) (more : List Glyph) :
    spanEndName (glyphs cs ++ .char e :: more) = (cs, .char e :: more) := by
  induction cs with
  | nil => simp [spanEndName, hend.1, hend.2]
  | cons c cs ih =>
    obtain ⟨hc, hcs⟩ := List.forall_mem_cons.mp h
    simp [spanEndName, hc, ih hcs]

/-! ## Splitting names -/

theorem span_append_cons {α : Type} [DecidableEq α] {a : α} {before : List α} (h : a ∉ before)
    (after : List α) :
    (before ++ a :: after).span (· != a) = (before, a :: after) := by
  have hall : ∀ b ∈ before, (b != a) = true := fun b hb => by
    rw [bne_iff_ne]
    rintro rfl
    exact h hb
  rw [List.span_eq_takeWhile_dropWhile, List.takeWhile_append_of_pos hall,
    List.dropWhile_append_of_pos hall]
  simp

/-- What stands before the first occurrence of an element is determined, and so is what stands after
it. -/
theorem append_cons_inj {α : Type} [DecidableEq α] {a : α} {before before' after after' : List α}
    (h : a ∉ before) (h' : a ∉ before') (heq : before ++ a :: after = before' ++ a :: after') :
    before = before' ∧ after = after' := by
  have hspan := congrArg (List.span (· != a)) heq
  rw [span_append_cons h, span_append_cons h'] at hspan
  simpa using hspan

theorem span_of_colon_notMem {cs : List Char} (h : ':' ∉ cs) : cs.span (· != ':') = (cs, []) := by
  have hall : ∀ c ∈ cs, (c != ':') = true := fun c hc => by
    rw [bne_iff_ne]
    rintro rfl
    exact h hc
  rw [List.span_eq_takeWhile_dropWhile, List.takeWhile_eq_self_iff.mpr hall,
    List.dropWhile_eq_nil_iff.mpr hall]

theorem splitQName_of_colon_notMem {s : String} (h : ':' ∉ s.toList) :
    splitQName s = (none, s) := by
  rw [splitQName, span_of_colon_notMem h]

theorem splitQName_append {p : String} (h : ':' ∉ p.toList) (l : String) :
    splitQName (p ++ ":" ++ l) = (some p, l) := by
  have hlist : (p ++ ":" ++ l).toList = p.toList ++ ':' :: l.toList := by simp
  simp only [splitQName, hlist, span_append_cons h, String.ofList_toList]

/-! ## Deciding what is a name -/

/-- Whether some characters are a name without a colon. -/
def isName : List Char → Bool
  | [] => false
  | c :: cs => isNameStart c && cs.all isNameChar

theorem isName_iff (cs : List Char) : isName cs = true ↔ IsName cs := by
  cases cs with
  | nil => exact ⟨nofun, fun ⟨c, rest, heq, _⟩ => absurd heq (by simp)⟩
  | cons c cs =>
    rw [isName, Bool.and_eq_true, List.all_eq_true]
    constructor
    · rintro ⟨hstart, hrest⟩
      exact ⟨c, cs, rfl, hstart, hrest⟩
    · rintro ⟨d, rest, heq, hstart, hrest⟩
      obtain ⟨rfl, rfl⟩ := List.cons_eq_cons.mp heq
      exact ⟨hstart, hrest⟩

/-- Whether some characters are a name with at most one colon. -/
def isQName (cs : List Char) : Bool :=
  match cs.span (· != ':') with
  | (p, []) => isName p
  | (p, _ :: l) => isName p && isName l

theorem isQName_of_colon_notMem {cs : List Char} (h : ':' ∉ cs) : isQName cs = isName cs := by
  simp only [isQName, span_of_colon_notMem h]

theorem isQName_append {p : List Char} (h : ':' ∉ p) (l : List Char) :
    isQName (p ++ ':' :: l) = (isName p && isName l) := by
  simp only [isQName, span_append_cons h]

theorem isQName_iff (cs : List Char) : isQName cs = true ↔ IsQName cs := by
  constructor
  · intro h
    by_cases hcolon : ':' ∈ cs
    · obtain ⟨p, l, rfl, hp⟩ := List.eq_append_cons_of_mem hcolon
      rw [isQName_append hp, Bool.and_eq_true, isName_iff, isName_iff] at h
      exact .inr ⟨p, l, rfl, h⟩
    · rw [isQName_of_colon_notMem hcolon, isName_iff] at h
      exact .inl h
  · rintro (h | ⟨p, l, rfl, hp, hl⟩)
    · rw [isQName_of_colon_notMem (colon_notMem_of_isToken h.isToken), isName_iff]
      exact h
    · rw [isQName_append (colon_notMem_of_isToken hp.isToken), Bool.and_eq_true,
        isName_iff, isName_iff]
      exact ⟨hp, hl⟩

instance (cs : List Char) : Decidable (IsQName cs) := decidable_of_iff _ (isQName_iff cs)

end StationNaming.Xml
