import Mathlib.Data.List.Forall2
import StationNaming.Proofs.Search.Query
/-!
# Text in quotes

Search input may put a text in quotes, so that its blank characters belong to it. A section that
starts with one quote ends at the next quote of either kind, so a text that holds the other quote is
not taken as it stands.

**What is exact.** `test_enclosed_iff` holds of every text without wildcards and without the quotes
that are put around it: the query asks for that text, up to case, exactly if the text holds no quote
at all.
-/

namespace StationNaming.Search

open StationNaming.Unicode (sameLetter sameLetter_self)

/-! ## Texts up to case -/

/-- **Two texts that differ in case only**, character by character. -/
def EqualUpToCase (cs ds : List Char) : Prop :=
  List.Forall₂ (fun c d => sameLetter c d = true) cs ds

/-- **A text that stands somewhere in another one**, up to case. -/
def StandsIn (text candidate : String) : Prop :=
  ∃ stretch, stretch <:+: candidate.toList ∧ EqualUpToCase text.toList stretch

/-- Characters none of which is a wildcard. -/
def IsLiteral (glob : List Char) : Prop := ∀ c ∈ glob, c ≠ '*' ∧ c ≠ '?'

theorem equalUpToCase_refl (cs : List Char) : EqualUpToCase cs cs :=
  List.forall₂_same.mpr fun c _ => sameLetter_self c

/-- **A glob without wildcards matches itself**, in any case. -/
theorem globMatches_iff_of_isLiteral {glob text : List Char} (h : IsLiteral glob) :
    GlobMatches glob text ↔ EqualUpToCase glob text := by
  constructor
  · intro hmatches
    induction hmatches with
    | nil => exact .nil
    | star _ _ _ => exact absurd rfl (h '*' List.mem_cons_self).1
    | question _ _ _ => exact absurd rfl (h '?' List.mem_cons_self).2
    | letter _ _ hletter _ ih =>
      exact .cons hletter (ih fun c hc => h c (List.mem_cons_of_mem _ hc))
  · intro hequal
    induction hequal with
    | nil => exact .nil
    | @cons c _ _ _ hletter _ ih =>
      obtain ⟨hstar, hquestion⟩ := h c List.mem_cons_self
      exact .letter hstar hquestion hletter (ih fun c hc => h c (List.mem_cons_of_mem _ hc))

/-- A text does not stand in a shorter one. -/
theorem length_le_of_standsIn {text candidate : String} (h : StandsIn text candidate) :
    text.toList.length ≤ candidate.toList.length := by
  obtain ⟨stretch, hwithin, hequal⟩ := h
  rw [hequal.length_eq]
  exact hwithin.length_le

/-! ## One section -/

/-- An open section is read up to its last quote, if there is no other one. -/
theorem scanTokens_inside {inside : List Char} (hinside : ∀ c ∈ inside, isQuote c = false)
    {stop : Char} (hstop : isQuote stop = true) :
      scanTokens true (inside ++ [stop]) = (inside ++ [stop], []) := by
  induction inside with
  | nil => exact scanTokens_close hstop
  | cons c inside ih =>
    obtain ⟨hplain, hinside⟩ := List.forall_mem_cons.mp hinside
    rw [List.cons_append, scanTokens_plain (.inl rfl) hplain, ih hinside]

/-- **Text in quotes is one token**, if there are no quotes in it. -/
theorem tokens_section {start stop : Char} {inside : List Char} (hstart : isQuote start = true)
    (hinside : ∀ c ∈ inside, isQuote c = false) (hstop : isQuote stop = true) :
    tokens (start :: (inside ++ [stop])) = [start :: (inside ++ [stop])] := by
  have hlater : (inside ++ [stop]).any isQuote = true :=
    List.any_eq_true.mpr ⟨stop, List.mem_append_right _ (List.mem_singleton_self stop), hstop⟩
  rw [tokens, scanTokens_open hstart hlater, scanTokens_inside hinside hstop]
  rfl

theorem unquote_eq_self {cs : List Char} (h : ∀ c ∈ cs, isQuote c = false) : unquote cs = cs := by
  rw [unquote, List.filter_eq_self]
  intro c hc
  rw [h c hc]
  rfl

/-- Quotes around a text are dropped with those in it. -/
theorem unquote_section {start stop : Char} (hstart : isQuote start = true)
    (hstop : isQuote stop = true)
    (inside : List Char) : unquote (start :: (inside ++ [stop])) = unquote inside := by
  rw [← List.singleton_append, unquote_append, unquote_append]
  simp [unquote, hstart, hstop]

/-! ## Tokens as they stand in a text -/

/-- **A token stands in the text** that it is cut from. -/
theorem Cut.isInfix_of_mem {text : List Char} {ts : List (List Char)} (h : Cut text ts) :
    ∀ token ∈ ts, token <:+: text := by
  induction h with
  | done => exact List.forall_mem_nil _
  | @token text token rest later _ _ htext _ ih =>
    subst htext
    refine List.forall_mem_cons.mpr ⟨List.prefix_append _ _ |>.isInfix, fun token' htoken' => ?_⟩
    exact (ih token' htoken').trans (List.suffix_append _ _).isInfix
  | skip _ _ ih => exact fun token htoken => (ih token htoken).trans (List.suffix_cons _ _).isInfix

/-- Without its quotes, a token stands in the text without its quotes. -/
theorem isInfix_unquote {token text : List Char} (h : token <:+: text) :
    unquote token <:+: unquote text := by
  obtain ⟨before, after, rfl⟩ := h
  rw [unquote_append, unquote_append]
  exact ⟨unquote before, unquote after, rfl⟩

theorem IsLiteral.of_isInfix {glob text : List Char} (h : IsLiteral text)
    (hwithin : glob <:+: text) :
    IsLiteral glob := fun c hc => h c (hwithin.subset hc)

theorem IsLiteral.unquote {glob : List Char} (h : IsLiteral glob) : IsLiteral (unquote glob) :=
  fun c hc => h c (List.mem_filter.mp hc).1

namespace Query

/-- **A text in quotes** as it is typed. -/
def enclosed (quote : Char) (text : String) : String :=
  String.ofList (quote :: (text.toList ++ [quote]))

/-- What a query asks for, token by token. -/
theorem test_compile_iff_stretches (raw candidate : String) :
    (compile raw).test candidate = true ↔ ∀ token ∈ tokens raw.toList,
      ∃ stretch, stretch <:+: candidate.toList ∧ GlobMatches (unquote token) stretch := by
  rw [test_compile_iff_occurs, List.forall_mem_map]
  simp only [Occurs, covers_globPart_iff]

/-- **Literal input is found in itself**, without its quotes. -/
theorem test_unquoted (raw : String) (h : IsLiteral (unquote raw.toList)) :
    (compile raw).test (String.ofList (unquote raw.toList)) = true := by
  rw [test_compile_iff_stretches]
  intro token htoken
  have hwithin := isInfix_unquote ((cut_tokens raw.toList).isInfix_of_mem token htoken)
  refine ⟨unquote token, ?_, (globMatches_iff_of_isLiteral (h.of_isInfix hwithin)).mpr
    (equalUpToCase_refl _)⟩
  rw [String.toList_ofList]
  exact hwithin

section Enclosed

variable {quote : Char} (hquote : isQuote quote = true) {text : String}

include hquote

/-- **A text in quotes is asked for as it stands**, if it has no quotes and no wildcards in it. -/
theorem test_enclosed_of_unquoted (literal : IsLiteral text.toList)
    (unquoted : ∀ c ∈ text.toList, isQuote c = false)
    (candidate : String) : (compile (enclosed quote text)).test candidate = true ↔
      StandsIn text candidate := by
  rw [test_compile_iff_stretches, enclosed, String.toList_ofList,
    tokens_section hquote unquoted hquote,
    List.forall_mem_singleton, unquote_section hquote hquote, unquote_eq_self unquoted]
  simp only [globMatches_iff_of_isLiteral literal]
  rfl

/-- A text with quotes in it is not asked for: the query accepts the text without them, which is too
short to hold it. -/
theorem test_enclosed_of_quote (literal : IsLiteral text.toList) {c : Char} (hc : c ∈ text.toList)
    (hinner : isQuote c = true) :
    (compile (enclosed quote text)).test (String.ofList (unquote text.toList)) = true ∧
      ¬ StandsIn text (String.ofList (unquote text.toList)) := by
  have hraw : unquote (enclosed quote text).toList = unquote text.toList := by
    rw [enclosed, String.toList_ofList, unquote_section hquote hquote]
  constructor
  · have hfound := test_unquoted (enclosed quote text) (hraw ▸ literal.unquote)
    rwa [hraw] at hfound
  · intro hstands
    have hle := length_le_of_standsIn hstands
    rw [String.toList_ofList] at hle
    have hlt : (unquote text.toList).length < text.toList.length :=
      List.length_filter_lt_length_iff_exists.mpr ⟨c, hc, by simp [hinner]⟩
    omega

end Enclosed

/-- **When a text in quotes is asked for as it stands.** For a text without wildcards and without
the quote that is put around it, the query accepts exactly the candidates in which the text stands,
up to case, if and only if the text does not hold the other quote either. Its blank characters and
the characters with a meaning in patterns make no difference. -/
theorem test_enclosed_iff {quote : Char} (hquote : isQuote quote = true) {text : String}
    (literal : ∀ c ∈ text.toList, c ≠ quote ∧ c ≠ '*' ∧ c ≠ '?') :
    (∀ candidate, (compile (enclosed quote text)).test candidate = true ↔ StandsIn text candidate) ↔
      ∀ c ∈ text.toList, isQuote c = false := by
  have hliteral : IsLiteral text.toList := fun c hc => (literal c hc).2
  constructor
  · intro hall c hc
    by_contra hinner
    rw [Bool.not_eq_false] at hinner
    obtain ⟨haccepts, hnot⟩ := test_enclosed_of_quote hquote hliteral hc hinner
    exact hnot ((hall _).mp haccepts)
  · exact fun unquoted candidate => test_enclosed_of_unquoted hquote hliteral unquoted candidate

/-- A text with blank characters and brackets in it, in single quotes. -/
theorem test_enclosed_bay :
    (∀ c ∈ " (Bay 1) [Q0] ".toList, c ≠ '\'' ∧ c ≠ '*' ∧ c ≠ '?') ∧
      ∀ candidate, (compile "' (Bay 1) [Q0] '").test candidate = true ↔
        StandsIn " (Bay 1) [Q0] " candidate := by
  have hliteral : ∀ c ∈ " (Bay 1) [Q0] ".toList, c ≠ '\'' ∧ c ≠ '*' ∧ c ≠ '?' := by simp
  have hunquoted : ∀ c ∈ " (Bay 1) [Q0] ".toList, isQuote c = false := by simp [isQuote]
  exact ⟨hliteral, (test_enclosed_iff (by decide) hliteral).mpr hunquoted⟩

/-- **A text with an apostrophe in it, in double quotes, is not found in itself.** -/
theorem test_enclosed_apostrophe :
    (∀ c ∈ "it's".toList, c ≠ '"' ∧ c ≠ '*' ∧ c ≠ '?') ∧ StandsIn "it's" "it's" ∧
      enclosed '"' "it's" = "\"it's\"" ∧ (compile (enclosed '"' "it's")).test "it's" = false := by
  refine ⟨by simp, ⟨"it's".toList, List.infix_rfl, equalUpToCase_refl _⟩, by decide,
    by decide +kernel⟩

end Query

end StationNaming.Search
