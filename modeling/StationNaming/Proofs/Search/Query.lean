import StationNaming.Proofs.Search.Pattern
import StationNaming.Proofs.Search.Tokens
import StationNaming.Search.Query
/-!
# What a query asks for

A query accepts a text if every token of what was typed occurs in it as a glob.

**What is exact.** `test_compile` holds for all input and all texts. It reads the tokens off the
input as it was typed, without escapes and with nothing trimmed, and knows of no fragments; that the
pattern of the query is well-formed and matches the same texts is part of it.
-/

namespace StationNaming.Search

/-! ## Quotes -/

theorem unquote_append (cs ds : List Char) : unquote (cs ++ ds) = unquote cs ++ unquote ds :=
  List.filter_append cs ds

/-- A quote is a unit of its own. -/
theorem unitOf_of_isQuote {c : Char} (h : isQuote c = true) : unitOf c = [c] := by
  rw [isQuote, Bool.or_eq_true, beq_iff_eq, beq_iff_eq] at h
  rcases h with rfl | rfl
  · decide
  · decide

/-- No other unit holds a quote. -/
theorem unquote_unitOf {c : Char} (h : isQuote c = false) : unquote (unitOf c) = unitOf c := by
  have hkeep : unquote [c] = [c] := by simp [unquote, h]
  rcases unitOf_cases c with ⟨-, hunit, -⟩ | ⟨-, hunit, -⟩ | ⟨-, hunit, -⟩ | ⟨-, -, -, hunit, -⟩
  · rw [hunit, ← List.singleton_append, unquote_append, hkeep]
    rfl
  · rw [hunit]
    decide
  · rw [hunit]
    decide
  · rw [hunit, hkeep]

/-- **Quotes may as well be dropped first.** -/
theorem unquote_expand_escape (token : List Char) :
    unquote (expand (escape token)) = expand (escape (unquote token)) := by
  induction token with
  | nil => rfl
  | cons c token ih =>
    rw [expand_escape_cons, unquote_append, ih]
    by_cases hquote : isQuote c = true
    · have hdrop : unquote (c :: token) = unquote token := by simp [unquote, hquote]
      have hunit : unquote [c] = [] := by simp [unquote, hquote]
      rw [unitOf_of_isQuote hquote, hunit, hdrop, List.nil_append]
    · rw [Bool.not_eq_true] at hquote
      have hkeep : unquote (c :: token) = c :: unquote token := by simp [unquote, hquote]
      rw [unquote_unitOf hquote, hkeep, expand_escape_cons]

namespace Query

/-! ## Compiled queries -/

/-- **The fragments of a query** are those of the unquoted tokens of what was typed. -/
theorem termsOf_eq (raw : List Char) :
    termsOf raw = ((tokens raw).map unquote).map fun glob => expand (escape glob) := by
  rw [termsOf, tokens_trim, tokens_escape, List.map_map, List.map_map]
  exact List.map_congr_left fun token _ => unquote_expand_escape token

theorem terms_compile (raw : String) :
    (compile raw).terms = (termsOf raw.toList).map String.ofList := by
  rw [compile]
  split
  · next hempty =>
    subst hempty
    rfl
  · rfl

/-- The pattern that a query stands for. -/
def pattern (q : Query) : List Char := patternOf (q.terms.map String.toList)

theorem pattern_compile (raw : String) :
    (compile raw).pattern =
      patternOf (((tokens raw.toList).map unquote).map fun glob => expand (escape glob)) := by
  rw [pattern, terms_compile, List.map_map, termsOf_eq]
  congr 1
  exact (List.map_congr_left fun term _ => String.toList_ofList).trans (List.map_id _)

/-- **A query accepts a text in which the parts of every token occur.** -/
theorem test_compile_iff_occurs (raw candidate : String) :
    (compile raw).test candidate = true ↔
      ∀ glob ∈ (tokens raw.toList).map unquote, Occurs (glob.map globPart) candidate.toList := by
  rw [test, terms_compile, termsOf_eq, List.all_eq_true, List.forall_mem_map, List.forall_mem_map]
  simp only [String.toList_ofList, occursIn_iff, parts_expand_escape]

/-- **The pattern of a query can be read**, and it matches the texts that the query accepts. -/
theorem exists_pieces_compile (raw : String) :
    ∃ pieces, pieces? (compile raw).pattern = some pieces ∧ ∀ candidate : String,
      (compile raw).test candidate = true ↔ Accepts pieces candidate.toList := by
  refine ⟨_, by rw [pattern_compile, pieces?_patternOf], ?_⟩
  intro candidate
  rw [test_compile_iff_occurs]
  have haccepts := accepts_aheads_iff
    (((tokens raw.toList).map unquote).map (List.map globPart)) candidate.toList
  rw [List.map_map, List.forall_mem_map] at haccepts
  exact haccepts.symm

/-- **What a query asks for.** What was typed has one cut into tokens. The pattern of the query can
be read and matches the texts that the query accepts, and these are the texts in which every token,
without its quotes, matches some stretch as a glob. -/
theorem test_compile (raw : String) :
    ∃ ts, Cut raw.toList ts ∧ (∀ other, Cut raw.toList other → other = ts) ∧
      (∃ pieces, pieces? (compile raw).pattern = some pieces ∧ ∀ candidate : String,
        (compile raw).test candidate = true ↔ Accepts pieces candidate.toList) ∧
      ∀ candidate : String, (compile raw).test candidate = true ↔
        ∀ token ∈ ts, ∃ stretch, stretch <:+: candidate.toList ∧
          GlobMatches (unquote token) stretch := by
  have hcut := cut_tokens raw.toList
  refine ⟨tokens raw.toList, hcut, fun other hother => hother.unique hcut,
    exists_pieces_compile raw, ?_⟩
  intro candidate
  rw [test_compile_iff_occurs, List.forall_mem_map]
  simp only [Occurs, covers_globPart_iff]

end Query

end StationNaming.Search
