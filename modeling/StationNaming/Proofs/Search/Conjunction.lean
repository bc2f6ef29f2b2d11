import Mathlib.Algebra.Group.Nat.Even
import StationNaming.Proofs.Search.Query
/-!
# Queries in parts

Search input can be put together from parts with blank characters between them. If every part but
the last one closes the quotes that it opens, the query of the whole asks for what the queries of
the parts ask for.

**What is exact.** `compile_joined` holds of any number of parts, whatever they hold, and the last
part may leave a quote open. A quote of either kind closes one of either kind, so a part closes its
quotes exactly if their number is even.
-/

namespace StationNaming.Search

open StationNaming.Unicode (isBlank)

/-! ## Tokens of a text in two parts -/

theorem consToken_append (token : List Char) (later later' : List (List Char)) :
    consToken token (later ++ later') = consToken token later ++ later' := by
  rw [consToken, consToken]
  split <;> rfl

/-- Tokens that are cut behind all others. -/
theorem tokens_of_scanTokens {cs cs' : List Char} {later : List (List Char)}
    (h : scanTokens false cs' = ((scanTokens false cs).1, (scanTokens false cs).2 ++ later)) :
    tokens cs' = tokens cs ++ later := by
  rw [tokens, h, consToken_append]
  rfl

theorem tokens_append_of_blank {blanks : List Char} (h : ∀ c ∈ blanks, isBlank c = true)
    (cs : List Char) :
    tokens (blanks ++ cs) = tokens cs := by
  induction blanks with
  | nil => rfl
  | cons c blanks ih =>
    rw [List.cons_append, tokens_cons_of_blank (h c List.mem_cons_self),
      ih fun d hd => h d (List.mem_cons_of_mem c hd)]

/-- **The scanner starts afresh at a blank character** outside quoted sections. `quoted` says
whether a section is open at the start of the text, so the number of quotes up to the blank
character is then odd. -/
theorem scanTokens_append {cs : List Char} {quoted : Bool}
    (hclosed : Even (cs.countP isQuote) ↔ quoted = false) {c : Char} (hblank : isBlank c = true)
    (rest : List Char) :
    scanTokens quoted (cs ++ c :: rest) =
      ((scanTokens quoted cs).1, (scanTokens quoted cs).2 ++ tokens rest) := by
  induction cs generalizing quoted with
  | nil =>
    obtain rfl : quoted = false := hclosed.mp Even.zero
    exact scanTokens_blank hblank
  | cons d cs ih =>
    have htokens : Even (cs.countP isQuote) → tokens (cs ++ c :: rest) = tokens cs ++ tokens rest :=
      fun heven => tokens_of_scanTokens (ih (iff_of_true heven rfl))
    rw [List.cons_append]
    by_cases hquote : isQuote d = true
    · rw [List.countP_cons_of_pos hquote, Nat.even_add_one] at hclosed
      cases quoted with
      | true =>
        have heven : Even (cs.countP isQuote) := not_not.mp fun hodd =>
          absurd (hclosed.mp hodd) nofun
        rw [scanTokens_close hquote, scanTokens_close hquote, ih (iff_of_true heven rfl)]
      | false =>
        -- The quotes behind this one are odd in number, so there is one that closes it.
        have hodd : ¬ Even (cs.countP isQuote) := hclosed.mpr rfl
        have hlater : cs.any isQuote = true := by
          by_contra hnone
          have hzero : cs.countP isQuote = 0 := List.countP_eq_zero.mpr fun d hd hq =>
            hnone (List.any_eq_true.mpr ⟨d, hd, hq⟩)
          exact hodd (hzero ▸ Even.zero)
        have hlater' : (cs ++ c :: rest).any isQuote = true := by
          rw [List.any_append, hlater, Bool.true_or]
        rw [scanTokens_open hquote hlater', scanTokens_open hquote hlater,
          @ih true (iff_of_false hodd nofun)]
    · rw [List.countP_cons_of_neg hquote] at hclosed
      rw [Bool.not_eq_true] at hquote
      by_cases hplain : quoted = true ∨ isBlank d = false
      · rw [scanTokens_plain hplain hquote, scanTokens_plain hplain hquote, ih hclosed]
      · obtain ⟨rfl, hblank'⟩ : quoted = false ∧ isBlank d = true := by simpa using hplain
        rw [scanTokens_blank hblank', scanTokens_blank hblank', htokens (hclosed.mpr rfl)]

/-- **The tokens of a text in two parts** are those of the parts. -/
theorem tokens_append {cs blanks : List Char} (hclosed : Even (cs.countP isQuote))
    (hblanks : ∀ c ∈ blanks, isBlank c = true) (hne : blanks ≠ []) (rest : List Char) :
    tokens (cs ++ blanks ++ rest) = tokens cs ++ tokens rest := by
  obtain ⟨c, blanks, rfl⟩ := List.exists_cons_of_ne_nil hne
  obtain ⟨hblank, hblanks⟩ := List.forall_mem_cons.mp hblanks
  rw [List.append_assoc, List.cons_append, ← tokens_append_of_blank hblanks rest]
  exact tokens_of_scanTokens (scanTokens_append (iff_of_true hclosed rfl) hblank (blanks ++ rest))

/-! ## Parts of search input -/

/-- **Input that closes the quotes it opens.** -/
def IsClosed (raw : String) : Prop := Even (raw.toList.countP isQuote)

/-- Input that holds blank characters only. -/
def IsBlankText (raw : String) : Prop := ∀ c ∈ raw.toList, isBlank c = true

/-- **What parts of search input are kept apart by.** -/
structure IsGap (raw : String) : Prop where
  blank : IsBlankText raw
  nonempty : raw ≠ ""

/-- **Parts that can be put in front of others**: each is closed and has a gap behind it. -/
def Joinable (parts : List (String × String)) : Prop := ∀ p ∈ parts, IsClosed p.1 ∧ IsGap p.2

/-- **Search input in parts**, each with what stands behind it, and the last part. -/
def joined (parts : List (String × String)) (last : String) : String :=
  parts.foldr (fun p rest => p.1 ++ p.2 ++ rest) last

example (a w b : String) : joined [(a, w)] b = a ++ w ++ b := rfl

namespace Query

/-- The terms of a query are told by the tokens of its input. -/
theorem terms_congr {raw raw' : String} (h : tokens raw.toList = tokens raw'.toList) :
    (compile raw).terms = (compile raw').terms := by
  rw [terms_compile, terms_compile, termsOf_eq, termsOf_eq, h]

theorem terms_append {a w : String} (hclosed : IsClosed a) (hgap : IsGap w) (b : String) :
    (compile (a ++ w ++ b)).terms = (compile a).terms ++ (compile b).terms := by
  have hne : w.toList ≠ [] := fun h => hgap.nonempty (String.toList_eq_nil_iff.mp h)
  simp only [terms_compile, termsOf_eq, String.toList_append,
    tokens_append hclosed hgap.blank hne, List.map_append]

theorem terms_joined {parts : List (String × String)} (h : Joinable parts) (last : String) :
    (compile (joined parts last)).terms =
      parts.flatMap (fun p => (compile p.1).terms) ++ (compile last).terms := by
  induction parts with
  | nil => rfl
  | cons p parts ih =>
    obtain ⟨⟨hclosed, hgap⟩, hparts⟩ := List.forall_mem_cons.mp h
    have hjoined : joined (p :: parts) last = p.1 ++ p.2 ++ joined parts last := rfl
    rw [hjoined, terms_append hclosed hgap, ih hparts, List.flatMap_cons, List.append_assoc]

/-- Blank characters around search input make no difference. -/
theorem terms_blank_append {before after : String} (hbefore : IsBlankText before)
    (hafter : IsBlankText after)
    (raw : String) : (compile (before ++ raw ++ after)).terms = (compile raw).terms := by
  refine terms_congr ?_
  rw [String.toList_append, String.toList_append, tokens_append_blank hafter,
    tokens_append_of_blank hbefore]

theorem test_joined_iff {parts : List (String × String)} (h : Joinable parts)
    (last candidate : String) :
    (compile (joined parts last)).test candidate = true ↔
      ∀ raw ∈ last :: parts.map (·.1), (compile raw).test candidate = true := by
  rw [test, terms_joined h, List.all_append, List.all_flatMap, Bool.and_eq_true, and_comm,
    List.forall_mem_cons, List.forall_mem_map]
  exact and_congr_right' List.all_eq_true

/-- **A query in parts asks for what its parts ask for.** Its terms are theirs, in order, and it
accepts a text if each of them does; so does its pattern. Hence the parts can come in any order, no
text is accepted for more parts that was not for fewer, and blank characters around the whole make
no difference. -/
theorem compile_joined {parts : List (String × String)} (h : Joinable parts) (last : String) :
    (compile (joined parts last)).terms =
        parts.flatMap (fun p => (compile p.1).terms) ++ (compile last).terms ∧
    (∀ candidate, (compile (joined parts last)).test candidate = true ↔
      ∀ raw ∈ last :: parts.map (·.1), (compile raw).test candidate = true) ∧
    (∃ pieces, pieces? (compile (joined parts last)).pattern = some pieces ∧ ∀ candidate : String,
      Accepts pieces candidate.toList ↔
        ∀ raw ∈ last :: parts.map (·.1), (compile raw).test candidate = true) ∧
    (∀ parts' last', Joinable parts' → (last :: parts.map (·.1)).Perm (last' :: parts'.map (·.1)) →
      ∀ candidate, (compile (joined parts' last')).test candidate =
        (compile (joined parts last)).test candidate) ∧
    (∀ parts' last', Joinable parts' → last' :: parts'.map (·.1) ⊆ last :: parts.map (·.1) →
      ∀ candidate, (compile (joined parts last)).test candidate = true →
        (compile (joined parts' last')).test candidate = true) ∧
    ∀ before after, IsBlankText before → IsBlankText after →
      (compile (before ++ joined parts last ++ after)).terms =
        (compile (joined parts last)).terms := by
  refine ⟨terms_joined h last, test_joined_iff h last, ?_, ?_, ?_, fun _ _ hbefore hafter =>
    terms_blank_append hbefore hafter _⟩
  · obtain ⟨pieces, hpieces, haccepts⟩ := exists_pieces_compile (joined parts last)
    exact ⟨pieces, hpieces, fun candidate =>
      (haccepts candidate).symm.trans (test_joined_iff h last candidate)⟩
  · intro parts' last' h' hperm candidate
    rw [Bool.eq_iff_iff, test_joined_iff h', test_joined_iff h]
    exact ⟨fun hall raw hraw => hall raw (hperm.subset hraw), fun hall raw hraw =>
      hall raw (hperm.symm.subset hraw)⟩
  · intro parts' last' h' hsubset candidate hall
    rw [test_joined_iff h] at hall
    exact (test_joined_iff h' last' candidate).mpr fun raw hraw => hall raw (hsubset hraw)

/-- Input in two parts, of which the last one leaves a quote open, and a text that has all of its
terms. -/
theorem compile_joined_quoted :
    Joinable [("a 'b c'", " 	")] ∧
      (compile (joined [("a 'b c'", " 	")] "d 'e")).terms = ["a", "b c", "d", "e"] ∧
      (compile (joined [("a 'b c'", " 	")] "d 'e")).test "E B C D A" = true := by
  have h : Joinable [("a 'b c'", " 	")] := by
    refine List.forall_mem_singleton.mpr ⟨?_, ?_, ?_⟩
    · show Even _
      decide
    · exact List.all_eq_true.mp (by decide)
    · decide
  have hall : ∀ raw ∈ ["d 'e", "a 'b c'"], (compile raw).test "E B C D A" = true :=
    List.all_eq_true.mp (by decide +kernel)
  refine ⟨h, ?_, ((compile_joined h "d 'e").2.1 "E B C D A").mpr hall⟩
  rw [(compile_joined h "d 'e").1]
  decide +kernel

end Query

end StationNaming.Search
