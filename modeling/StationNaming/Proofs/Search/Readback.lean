import Mathlib.Data.List.Forall2
import StationNaming.Proofs.Search.Query
/-!
# Terms read back

A term is spelled in units: a backslash and what it protects, the two wildcards as a pattern writes
them, and characters that mean nothing but themselves. Every unit stands for one character that was
typed.

**What is exact.** `terms_readBack` holds for all input. A term is spelled by units in one way only,
and they stand for its token, quotes aside. Tokens are the same wherever the input is escaped before
or after it is cut.
-/

namespace StationNaming.Search

open StationNaming.Unicode (trim)

/-! ## Units -/

/-- **A character that stands for itself** in a term. -/
structure IsPlain (c : Char) : Prop where
  unprotected : isProtected c = false
  ne_star : c ≠ '*'
  ne_question : c ≠ '?'
  unquoted : isQuote c = false

theorem IsPlain.ne_of_isProtected {c d : Char} (h : IsPlain c) (hd : isProtected d = true) :
    c ≠ d := by
  rintro rfl
  exact absurd (h.unprotected.symm.trans hd) nofun

/-- **A unit of a term.** -/
inductive TermUnit where
  | shielded (c : Char) (isProtected_eq : isProtected c = true)
  | run
  | any
  | plain (c : Char) (isPlain : IsPlain c)

namespace TermUnit

/-- The unit as it stands in a term. -/
def spelling : TermUnit → List Char
  | shielded c _ => ['\\', c]
  | run => ['.', '*']
  | any => ['.']
  | plain c _ => [c]

/-- The character that was typed for it. -/
def typed : TermUnit → Char
  | shielded c _ => c
  | run => '*'
  | any => '?'
  | plain c _ => c

/-- No unit starts with a star. -/
theorem head?_spelling_append_ne_star (u : TermUnit) (cs : List Char) :
    (u.spelling ++ cs).head? ≠ some '*' := by
  cases u with
  | shielded | run | any => simp [spelling]
  | plain c hplain => simpa [spelling] using hplain.ne_star

/-- **A unit is told by how a text starts**, unless a star stands behind it. -/
theorem eq_of_spelling_append {u v : TermUnit} {cs ds : List Char}
    (h : u.spelling ++ cs = v.spelling ++ ds)
    (hcs : cs.head? ≠ some '*') (hds : ds.head? ≠ some '*') : u = v ∧ cs = ds := by
  have hslash : isProtected '\\' = true := isProtected_backslash
  have hpoint : isProtected '.' = true := isProtected_point
  -- Two units of different kinds start differently, but for a point that a star follows.
  cases u with
  | shielded c hc =>
    cases v with
    | shielded d hd =>
      obtain ⟨rfl, rfl⟩ : c = d ∧ cs = ds := by simpa [spelling] using h
      exact ⟨rfl, rfl⟩
    | run | any => simp [spelling] at h
    | plain d hd => exact absurd (List.cons.inj h).1.symm (hd.ne_of_isProtected hslash)
  | run =>
    cases v with
    | shielded => simp [spelling] at h
    | run => exact ⟨rfl, by simpa [spelling] using h⟩
    | any =>
      obtain rfl : '*' :: cs = ds := by simpa [spelling] using h
      exact absurd rfl hds
    | plain d hd => exact absurd (List.cons.inj h).1.symm (hd.ne_of_isProtected hpoint)
  | any =>
    cases v with
    | shielded => simp [spelling] at h
    | run =>
      obtain rfl : cs = '*' :: ds := by simpa [spelling] using h
      exact absurd rfl hcs
    | any => exact ⟨rfl, by simpa [spelling] using h⟩
    | plain d hd => exact absurd (List.cons.inj h).1.symm (hd.ne_of_isProtected hpoint)
  | plain c hc =>
    cases v with
    | shielded => exact absurd (List.cons.inj h).1 (hc.ne_of_isProtected hslash)
    | run | any => exact absurd (List.cons.inj h).1 (hc.ne_of_isProtected hpoint)
    | plain d hd =>
      obtain ⟨rfl, rfl⟩ : c = d ∧ cs = ds := by simpa [spelling] using h
      exact ⟨rfl, rfl⟩

/-- Every character but a quote has a unit. -/
theorem exists_of_not_isQuote {c : Char} (h : isQuote c = false) :
    ∃ u : TermUnit, u.spelling = unitOf c ∧ u.typed = c := by
  rcases unitOf_cases c with ⟨hprotected, hunit, -⟩ | ⟨rfl, hunit, -⟩ | ⟨rfl, hunit, -⟩ |
    ⟨hprotected, hstar, hquestion, hunit, -⟩
  · exact ⟨.shielded c hprotected, hunit.symm, rfl⟩
  · exact ⟨.run, hunit.symm, rfl⟩
  · exact ⟨.any, hunit.symm, rfl⟩
  · exact ⟨.plain c ⟨hprotected, hstar, hquestion, h⟩, hunit.symm, rfl⟩

end TermUnit

/-! ## Texts in units -/

/-- What units spell. -/
def spell (units : List TermUnit) : List Char := units.flatMap TermUnit.spelling

theorem spell_cons (u : TermUnit) (units : List TermUnit) :
    spell (u :: units) = u.spelling ++ spell units := rfl

theorem head?_spell_ne_star (units : List TermUnit) : (spell units).head? ≠ some '*' := by
  cases units with
  | nil => exact nofun
  | cons u units => exact u.head?_spelling_append_ne_star (spell units)

theorem spell_cons_ne_nil (u : TermUnit) (units : List TermUnit) : spell (u :: units) ≠ [] := by
  cases u <;> exact nofun

/-- **A text is spelled in one way.** -/
theorem spell_injective : Function.Injective spell := by
  intro units
  induction units with
  | nil =>
    rintro (_ | ⟨v, others⟩) h
    · rfl
    · exact absurd h.symm (spell_cons_ne_nil v others)
  | cons u units ih =>
    rintro (_ | ⟨v, others⟩) h
    · exact absurd h (spell_cons_ne_nil u units)
    · rw [spell_cons, spell_cons] at h
      obtain ⟨rfl, hrest⟩ :=
        TermUnit.eq_of_spelling_append h (head?_spell_ne_star units) (head?_spell_ne_star others)
      rw [ih hrest]

/-- **A fragment is spelled by the units of its glob**, if there is no quote in that. -/
theorem exists_spell_expand_escape {glob : List Char} (h : ∀ c ∈ glob, isQuote c = false) :
    ∃ units, spell units = expand (escape glob) ∧ units.map TermUnit.typed = glob := by
  induction glob with
  | nil => exact ⟨[], rfl, rfl⟩
  | cons c glob ih =>
    obtain ⟨hc, hglob⟩ := List.forall_mem_cons.mp h
    obtain ⟨u, hspelling, htyped⟩ := TermUnit.exists_of_not_isQuote hc
    obtain ⟨units, hunits, hrest⟩ := ih hglob
    refine ⟨u :: units, ?_, ?_⟩
    · rw [spell_cons, hspelling, hunits, expand_escape_cons]
    · rw [List.map_cons, htyped, hrest]

/-! ## Terms of tokens -/

/-- **The term for a token.** -/
def termOf (token : List Char) : List Char := unquote (expand (escape token))

/-- **A term that reads back as a text**: units spell it in one way, and stand for that text. -/
def ReadsBack (term text : List Char) : Prop :=
  ∃ units, spell units = term ∧ (∀ others, spell others = term → others = units) ∧
    units.map TermUnit.typed = text

theorem not_isQuote_of_mem_unquote {token : List Char} :
    ∀ c ∈ unquote token, isQuote c = false := by
  intro c hc
  simpa using (List.mem_filter.mp hc).2

/-- **The term for a token reads back as the token**, without its quotes. -/
theorem readsBack_termOf (token : List Char) : ReadsBack (termOf token) (unquote token) := by
  have hunquoted : ∀ c ∈ unquote token, isQuote c = false := not_isQuote_of_mem_unquote
  obtain ⟨units, hunits, htyped⟩ := exists_spell_expand_escape hunquoted
  rw [termOf, unquote_expand_escape]
  exact ⟨units, hunits, fun _ hothers => spell_injective (hothers.trans hunits.symm), htyped⟩

/-- What a term reads back as is told by the term. -/
theorem ReadsBack.unique {term text text' : List Char} (h : ReadsBack term text)
    (h' : ReadsBack term text') :
    text = text' := by
  obtain ⟨units, -, hunique, rfl⟩ := h
  obtain ⟨others, hothers, -, rfl⟩ := h'
  rw [hunique others hothers]

theorem termOf_eq_iff {token token' : List Char} : termOf token = termOf token' ↔
    unquote token = unquote token' := by
  constructor
  · intro h
    exact (readsBack_termOf token).unique (h ▸ readsBack_termOf token')
  · intro h
    rw [termOf, termOf, unquote_expand_escape, unquote_expand_escape, h]

/-! ## Escaped text -/

/-- **Escaping loses nothing.** -/
theorem escape_injective : Function.Injective escape := by
  have hlone : ∀ {c : Char}, ¬ isProtected c = true → c ≠ '\\' := by
    rintro c hc rfl
    exact hc isProtected_backslash
  intro cs
  induction cs with
  | nil =>
    intro ds h
    have hempty := isEmpty_escape ds
    rw [← h] at hempty
    exact (List.isEmpty_iff.mp hempty.symm).symm
  | cons c cs ih =>
    rintro (_ | ⟨d, ds⟩) h
    · have hempty := isEmpty_escape (c :: cs)
      rw [h] at hempty
      exact absurd hempty nofun
    · rw [escape_cons, escape_cons, escapeChar, escapeChar] at h
      split at h <;> split at h
      · obtain ⟨rfl, hrest⟩ : c = d ∧ escape cs = escape ds := by simpa using h
        rw [ih hrest]
      · next hd => exact absurd (List.cons.inj h).1.symm (hlone hd)
      · next hc _ => exact absurd (List.cons.inj h).1 (hlone hc)
      · obtain ⟨rfl, hrest⟩ : c = d ∧ escape cs = escape ds := by simpa using h
        rw [ih hrest]

namespace Query

/-- **No character that is typed gets another meaning.** What was typed has one cut into tokens.
Every term of its query is spelled in units in exactly one way, and they stand for the token of the
term, without its quotes. The escaped and trimmed text has one cut as well, into the same tokens,
escaped; and escaping loses nothing. Two tokens have the same term only if they are the same but for
their quotes. -/
theorem terms_readBack (raw : String) :
    ∃ ts, Cut raw.toList ts ∧ (∀ others, Cut raw.toList others → others = ts) ∧
      List.Forall₂ (fun token term => term = String.ofList (termOf token) ∧
        ReadsBack term.toList (unquote token)) ts (compile raw).terms ∧
      (∀ others, Cut (trim (escape raw.toList)) others ↔ others = ts.map escape) ∧
      Function.Injective escape ∧
      ∀ token token', termOf token = termOf token' ↔ unquote token = unquote token' := by
  have hcut := cut_tokens raw.toList
  have hescaped : Cut (trim (escape raw.toList)) ((tokens raw.toList).map escape) := by
    have h := cut_tokens (trim (escape raw.toList))
    rwa [tokens_trim, tokens_escape] at h
  refine ⟨tokens raw.toList, hcut, fun _ h => h.unique hcut, ?_, fun others =>
    ⟨fun h => h.unique hescaped, ?_⟩,
    escape_injective, fun _ _ => termOf_eq_iff⟩
  · have hterms : (compile raw).terms = (tokens raw.toList).map fun token =>
      String.ofList (termOf token) := by
      rw [terms_compile, termsOf, tokens_trim, tokens_escape, List.map_map, List.map_map]
      rfl
    rw [hterms, List.forall₂_map_right_iff]
    refine List.forall₂_same.mpr fun token _ => ⟨rfl, ?_⟩
    rw [String.toList_ofList]
    exact readsBack_termOf token
  · rintro rfl
    exact hescaped

-- A point and a backslash that are typed beside wildcards and quotes.
example : (compile "\\*\".? \"b").terms = ["\\\\.*\\.. b"] := by decide +kernel

end Query

end StationNaming.Search
