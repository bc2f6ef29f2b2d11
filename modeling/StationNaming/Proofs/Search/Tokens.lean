import Mathlib.Data.List.Infix
import Mathlib.Data.List.TakeWhile
import StationNaming.Search.Escape
import StationNaming.Search.Token
/-!
# Tokens are the longest ones

Cutting search input takes the longest token wherever one starts, and goes on behind it; where none
starts, one character is passed over.

**What is exact.** `Cut` says this without a scanner, only from what a token is spelled like. Every
text has exactly one cut (`cut_tokens`, `Cut.unique`). Escaping and trimming the text do not disturb
it: the tokens of escaped text are the escaped tokens (`tokens_escape`), and blank characters at the
ends belong to no token (`tokens_trim`).
-/

namespace StationNaming.Search

open StationNaming.Unicode (isBlank trim trimStart trimEnd)

/-! ## What a token is -/

/-- **What tokens are spelled like**: characters that are neither blank nor quotes, and quoted
sections, each of which reaches from a quote to the next quote. -/
inductive Spelled : List Char → Prop
  | nil : Spelled []
  | plain {c : Char} {cs : List Char} :
      isBlank c = false → isQuote c = false → Spelled cs → Spelled (c :: cs)
  | quoted {start : Char} {inside : List Char} {stop : Char} {cs : List Char} :
      isQuote start = true → (∀ c ∈ inside, isQuote c = false) → isQuote stop = true →
        Spelled cs → Spelled (start :: (inside ++ stop :: cs))

/-- **The longest start of a text** that is spelled like a token; it is empty where no token
starts. -/
structure Longest (token text : List Char) : Prop where
  spelled : Spelled token
  starts : token <+: text
  longest : ∀ other, Spelled other → other <+: text → other.length ≤ token.length

/-- **A cut of a text into tokens.** -/
inductive Cut : List Char → List (List Char) → Prop
  | done : Cut [] []
  | token {text token rest : List Char} {later : List (List Char)} :
      Longest token text → token ≠ [] → text = token ++ rest → Cut rest later →
        Cut text (token :: later)
  | skip {c : Char} {cs : List Char} {later : List (List Char)} :
      Longest [] (c :: cs) → Cut cs later → Cut (c :: cs) later

/-! ## There is one cut -/

theorem Longest.unique {text token token' : List Char} (h : Longest token text)
    (h' : Longest token' text) : token = token' :=
  (List.prefix_of_prefix_length_le h.starts h'.starts
    (h'.longest token h.spelled h.starts)).eq_of_length_le
      (h.longest token' h'.spelled h'.starts)

/-- **A text is cut in one way.** -/
theorem Cut.unique {text : List Char} {ts ts' : List (List Char)} (h : Cut text ts)
    (h' : Cut text ts') : ts = ts' := by
  induction h generalizing ts' with
  | done =>
    cases h' with
    | done => rfl
    | token hlongest hne _ _ => exact absurd (List.prefix_nil.mp hlongest.starts) hne
  | token hlongest hne htext _ ih =>
    cases h' with
    | done => exact absurd (List.prefix_nil.mp hlongest.starts) hne
    | token hlongest' _ htext' hlater' =>
      obtain rfl := hlongest.unique hlongest'
      obtain rfl := List.append_cancel_left (htext.symm.trans htext')
      rw [ih hlater']
    | skip hlongest' _ => exact absurd (hlongest.unique hlongest') hne
  | skip hlongest _ ih =>
    cases h' with
    | token hlongest' hne _ _ => exact absurd (hlongest'.unique hlongest) hne
    | skip _ hlater' => exact ih hlater'

/-! ## Longer and longer -/

/-- The first quote of a text is where a quoted section ends. -/
theorem prefix_of_append_cons_prefix {inside inside' cs cs' : List Char} {stop stop' : Char}
    (hinside : ∀ c ∈ inside, isQuote c = false) (hstop : isQuote stop = true)
    (hinside' : ∀ c ∈ inside', isQuote c = false) (hstop' : isQuote stop' = true)
    (h : inside ++ stop :: cs <+: inside' ++ stop' :: cs') :
    inside = inside' ∧ stop = stop' ∧ cs <+: cs' := by
  induction inside generalizing inside' with
  | nil =>
    cases inside' with
    | nil =>
      obtain ⟨rfl, hcs⟩ := List.cons_prefix_cons.mp h
      exact ⟨rfl, rfl, hcs⟩
    | cons d ds =>
      obtain ⟨rfl, -⟩ := List.cons_prefix_cons.mp h
      rw [hinside' stop List.mem_cons_self] at hstop
      exact absurd hstop nofun
  | cons c inside ih =>
    cases inside' with
    | nil =>
      obtain ⟨rfl, -⟩ := List.cons_prefix_cons.mp h
      rw [hinside c List.mem_cons_self] at hstop'
      exact absurd hstop' nofun
    | cons d ds =>
      obtain ⟨rfl, hrest⟩ := List.cons_prefix_cons.mp h
      obtain ⟨rfl, rfl, hcs⟩ := ih (fun c hc => hinside c (List.mem_cons_of_mem _ hc))
        (fun c hc => hinside' c (List.mem_cons_of_mem _ hc)) hrest
      exact ⟨rfl, rfl, hcs⟩

theorem isQuote_of_isBlank {c : Char} (h : isBlank c = true) : isQuote c = false := by
  rw [Bool.eq_false_iff]
  intro hquote
  rw [isQuote, Bool.or_eq_true, beq_iff_eq, beq_iff_eq] at hquote
  rcases hquote with rfl | rfl
  · exact absurd h (by decide)
  · exact absurd h (by decide)

namespace Longest

theorem nil : Longest [] [] :=
  ⟨.nil, List.prefix_rfl, fun _ _ h => h.length_le⟩

theorem plain {c : Char} {token text : List Char} (hblank : isBlank c = false)
    (hquote : isQuote c = false) (h : Longest token text) : Longest (c :: token) (c :: text) where
  spelled := .plain hblank hquote h.spelled
  starts := List.cons_prefix_cons.mpr ⟨rfl, h.starts⟩
  longest other hother hprefix := by
    cases hother with
    | nil => exact Nat.zero_le _
    | plain _ _ hrest =>
      exact Nat.succ_le_succ (h.longest _ hrest (List.cons_prefix_cons.mp hprefix).2)
    | quoted hstart _ _ _ =>
      rw [(List.cons_prefix_cons.mp hprefix).1, hquote] at hstart
      exact absurd hstart nofun

theorem quoted {start stop : Char} {inside token text : List Char} (hstart : isQuote start = true)
    (hinside : ∀ c ∈ inside, isQuote c = false) (hstop : isQuote stop = true)
    (h : Longest token text) :
    Longest (start :: (inside ++ stop :: token)) (start :: (inside ++ stop :: text)) where
  spelled := .quoted hstart hinside hstop h.spelled
  starts := by
    rw [List.cons_prefix_cons, List.prefix_append_right_inj, List.cons_prefix_cons]
    exact ⟨rfl, rfl, h.starts⟩
  longest other hother hprefix := by
    cases hother with
    | nil => exact Nat.zero_le _
    | plain _ hquote _ =>
      rw [(List.cons_prefix_cons.mp hprefix).1, hstart] at hquote
      exact absurd hquote nofun
    | quoted _ hinside' hstop' hrest =>
      obtain ⟨rfl, rfl, hcs⟩ := prefix_of_append_cons_prefix hinside' hstop' hinside hstop
        (List.cons_prefix_cons.mp hprefix).2
      have hlength := h.longest _ hrest hcs
      simp only [List.length_cons, List.length_append]
      omega

/-- No token starts at a blank character. -/
theorem nil_of_blank {c : Char} (hblank : isBlank c = true) (cs : List Char) :
    Longest [] (c :: cs) where
  spelled := .nil
  starts := List.nil_prefix
  longest other hother hprefix := by
    cases hother with
    | nil => exact Nat.le_refl 0
    | plain hblank' _ _ =>
      rw [(List.cons_prefix_cons.mp hprefix).1, hblank] at hblank'
      exact absurd hblank' nofun
    | quoted hstart _ _ _ =>
      rw [(List.cons_prefix_cons.mp hprefix).1, isQuote_of_isBlank hblank] at hstart
      exact absurd hstart nofun

/-- No token starts at a quote that no later quote closes. -/
theorem nil_of_stray {c : Char} {cs : List Char} (hquote : isQuote c = true)
    (hlater : cs.any isQuote = false) : Longest [] (c :: cs) where
  spelled := .nil
  starts := List.nil_prefix
  longest other hother hprefix := by
    cases hother with
    | nil => exact Nat.le_refl 0
    | plain _ hquote' _ =>
      rw [(List.cons_prefix_cons.mp hprefix).1, hquote] at hquote'
      exact absurd hquote' nofun
    | quoted _ _ hstop _ =>
      have hmem := (List.cons_prefix_cons.mp hprefix).2.subset
        (List.mem_append_right _ List.mem_cons_self)
      exact absurd hstop (List.any_eq_false.mp hlater _ hmem)

end Longest

/-! ## The scanner, character by character -/

section Steps

variable {c : Char} {cs : List Char}

theorem scanTokens_blank (h : isBlank c = true) :
    scanTokens false (c :: cs) = ([], tokens cs) := by
  rw [scanTokens, isQuote_of_isBlank h, h]
  rfl

theorem scanTokens_plain {quoted : Bool} (hblank : quoted = true ∨ isBlank c = false)
    (hquote : isQuote c = false) :
    scanTokens quoted (c :: cs) =
      (c :: (scanTokens quoted cs).1, (scanTokens quoted cs).2) := by
  have hcut : (!quoted && isBlank c) = false := by
    rcases hblank with rfl | hblank
    · rfl
    · rw [hblank, Bool.and_false]
  rw [scanTokens, hquote, hcut]
  rfl

theorem scanTokens_open (hquote : isQuote c = true) (hlater : cs.any isQuote = true) :
    scanTokens false (c :: cs) = (c :: (scanTokens true cs).1, (scanTokens true cs).2) := by
  rw [scanTokens, hquote, hlater]
  rfl

theorem scanTokens_stray (hquote : isQuote c = true) (hlater : cs.any isQuote = false) :
    scanTokens false (c :: cs) = ([], tokens cs) := by
  rw [scanTokens, hquote, hlater]
  rfl

theorem scanTokens_close (hquote : isQuote c = true) :
    scanTokens true (c :: cs) = (c :: (scanTokens false cs).1, (scanTokens false cs).2) := by
  rw [scanTokens, hquote]
  rfl

end Steps

/-- **An open section is read up to the next quote.** -/
theorem scanTokens_section {cs : List Char} (h : cs.any isQuote = true) :
    ∃ inside stop rest, (∀ c ∈ inside, isQuote c = false) ∧ isQuote stop = true ∧
      cs = inside ++ stop :: rest ∧
      scanTokens true cs =
        (inside ++ stop :: (scanTokens false rest).1, (scanTokens false rest).2) := by
  induction cs with
  | nil => exact absurd h nofun
  | cons c cs ih =>
    by_cases hquote : isQuote c = true
    · exact ⟨[], c, cs, nofun, hquote, rfl, scanTokens_close hquote⟩
    · have hplain : isQuote c = false := Bool.eq_false_iff.mpr hquote
      rw [List.any_cons, hplain, Bool.false_or] at h
      obtain ⟨inside, stop, rest, hinside, hstop, hcs, hscan⟩ := ih h
      refine ⟨c :: inside, stop, rest, ?_, hstop, congrArg (c :: ·) hcs, ?_⟩
      · intro d hd
        rcases List.mem_cons.mp hd with rfl | hd
        · exact hplain
        · exact hinside d hd
      · rw [scanTokens_plain (.inl rfl) hplain, hscan]
        rfl

/-- What the scanner makes of a text is the longest token at its start and a cut of what is left. -/
structure ScanSpec (text : List Char) (scanned : List Char × List (List Char)) : Prop where
  longest : Longest scanned.1 text
  rest : ∃ rest, text = scanned.1 ++ rest ∧ Cut rest scanned.2

/-- The token at the start of a text, if there is one, and those behind it are a cut. -/
theorem ScanSpec.cut {text : List Char} {scanned : List Char × List (List Char)}
    (h : ScanSpec text scanned) : Cut text (consToken scanned.1 scanned.2) := by
  obtain ⟨rest, htext, hcut⟩ := h.rest
  obtain ⟨token, later⟩ := scanned
  cases token with
  | nil =>
    rw [htext]
    exact hcut
  | cons c token => exact .token h.longest (List.cons_ne_nil c token) htext hcut

/-- Where no token starts, one character is passed over. -/
theorem ScanSpec.skip {c : Char} {cs : List Char} (hlongest : Longest [] (c :: cs))
    (h : ScanSpec cs (scanTokens false cs)) : ScanSpec (c :: cs) ([], tokens cs) where
  longest := hlongest
  rest := ⟨c :: cs, rfl, .skip hlongest h.cut⟩

/-- **The scanner takes the longest token**, and cuts what is left. -/
theorem scanSpec_scanTokens (cs : List Char) : ScanSpec cs (scanTokens false cs) := by
  -- A quoted section is passed as a whole, so the induction is on the length of the text.
  induction hlength : cs.length using Nat.strong_induction_on generalizing cs with
  | _ length ih =>
    subst hlength
    cases cs with
    | nil => exact ⟨.nil, [], rfl, .done⟩
    | cons c cs =>
      have hrest := ih cs.length (Nat.lt_succ_self _) cs rfl
      by_cases hquote : isQuote c = true
      · by_cases hlater : cs.any isQuote = true
        · obtain ⟨inside, stop, rest, hinside, hstop, hcs, hscan⟩ := scanTokens_section hlater
          subst hcs
          have hshorter : rest.length < (c :: (inside ++ stop :: rest)).length := by
            simp only [List.length_cons, List.length_append]
            omega
          obtain ⟨hlongest, after, htext, hcut⟩ := ih rest.length hshorter rest rfl
          rw [scanTokens_open hquote hlater, hscan]
          refine ⟨hlongest.quoted hquote hinside hstop, after, ?_, hcut⟩
          show c :: (inside ++ stop :: rest) =
            c :: (inside ++ stop :: (scanTokens false rest).1) ++ after
          simp only [List.cons_append, List.append_assoc, ← htext]
        · rw [Bool.not_eq_true] at hlater
          rw [scanTokens_stray hquote hlater]
          exact .skip (.nil_of_stray hquote hlater) hrest
      · rw [Bool.not_eq_true] at hquote
        by_cases hblank : isBlank c = true
        · rw [scanTokens_blank hblank]
          exact .skip (.nil_of_blank hblank cs) hrest
        · rw [Bool.not_eq_true] at hblank
          obtain ⟨hlongest, after, htext, hcut⟩ := hrest
          rw [scanTokens_plain (.inr hblank) hquote]
          exact ⟨hlongest.plain hblank hquote, after, congrArg (c :: ·) htext, hcut⟩

/-- **The tokens of a text are its cut.** -/
theorem cut_tokens (cs : List Char) : Cut cs (tokens cs) := (scanSpec_scanTokens cs).cut

/-! ## Escaped text -/

theorem not_blank_of_isProtected {c : Char} (h : isProtected c = true) :
    isBlank c = false ∧ isQuote c = false := by
  have hboth : (!isBlank c && !isQuote c) = true :=
    of_isProtected (p := fun c => !isBlank c && !isQuote c) (by decide) h
  simpa using hboth

theorem any_isQuote_escape (cs : List Char) : (escape cs).any isQuote = cs.any isQuote := by
  induction cs with
  | nil => rfl
  | cons c cs ih =>
    rw [escape_cons, List.any_append, List.any_cons, ih, escapeChar]
    split
    · next hprotected =>
      rw [List.any_cons, List.any_cons, List.any_nil, (not_blank_of_isProtected hprotected).2]
      rfl
    · rw [List.any_cons, List.any_nil, Bool.or_false]

theorem isEmpty_escape (cs : List Char) : (escape cs).isEmpty = cs.isEmpty := by
  cases cs with
  | nil => rfl
  | cons c cs =>
    rw [escape_cons, escapeChar]
    split <;> rfl

theorem consToken_escape (token : List Char) (later : List (List Char)) :
    consToken (escape token) (later.map escape) = (consToken token later).map escape := by
  rw [consToken, consToken, isEmpty_escape]
  split <;> rfl

/-- **The scanner sees the same in escaped text.** -/
theorem scanTokens_escape (quoted : Bool) (cs : List Char) :
    scanTokens quoted (escape cs) =
      (escape (scanTokens quoted cs).1, (scanTokens quoted cs).2.map escape) := by
  induction cs generalizing quoted with
  | nil => rfl
  | cons c cs ih =>
    have htokens : tokens (escape cs) = (tokens cs).map escape := by
      rw [tokens, tokens, ih, consToken_escape]
    by_cases hprotected : isProtected c = true
    · -- The backslash and what it protects are both plain to the scanner.
      obtain ⟨hblank, hquote⟩ := not_blank_of_isProtected hprotected
      have hescape : escapeChar c = ['\\', c] := if_pos hprotected
      rw [escape_cons, hescape, List.cons_append, List.cons_append, List.nil_append,
        scanTokens_plain (.inr (by decide)) (by decide), scanTokens_plain (.inr hblank) hquote,
        scanTokens_plain (.inr hblank) hquote, ih, escape_cons, hescape]
      rfl
    · have hescape : escapeChar c = [c] := if_neg hprotected
      rw [escape_cons, hescape, List.singleton_append]
      by_cases hquote : isQuote c = true
      · cases quoted with
        | true =>
          rw [scanTokens_close hquote, scanTokens_close hquote, ih, escape_cons, hescape]; rfl
        | false =>
          by_cases hlater : cs.any isQuote = true
          · rw [scanTokens_open hquote hlater, scanTokens_open hquote (by rwa [any_isQuote_escape]),
              ih, escape_cons, hescape]
            rfl
          · rw [Bool.not_eq_true] at hlater
            rw [scanTokens_stray hquote hlater,
              scanTokens_stray hquote (by rwa [any_isQuote_escape]), htokens]
            rfl
      · rw [Bool.not_eq_true] at hquote
        by_cases hplain : quoted = true ∨ isBlank c = false
        · rw [scanTokens_plain hplain hquote, scanTokens_plain hplain hquote, ih,
            escape_cons, hescape]
          rfl
        · obtain ⟨rfl, hblank⟩ : quoted = false ∧ isBlank c = true := by simpa using hplain
          rw [scanTokens_blank hblank, scanTokens_blank hblank, htokens]
          rfl

/-- **The tokens of escaped text are the escaped tokens.** -/
theorem tokens_escape (cs : List Char) : tokens (escape cs) = (tokens cs).map escape := by
  rw [tokens, tokens, scanTokens_escape, consToken_escape]

/-! ## Trimmed text -/

theorem tokens_cons_of_blank {c : Char} (h : isBlank c = true) (cs : List Char) :
    tokens (c :: cs) = tokens cs := by
  rw [tokens, scanTokens_blank h]
  rfl

theorem tokens_trimStart (cs : List Char) : tokens (trimStart cs) = tokens cs := by
  induction cs with
  | nil => rfl
  | cons c cs ih =>
    rw [trimStart, List.dropWhile_cons]
    split
    · next hblank => exact ih.trans (tokens_cons_of_blank hblank cs).symm
    · rfl

theorem scanTokens_of_blank {blanks : List Char} (h : ∀ c ∈ blanks, isBlank c = true) :
    scanTokens false blanks = ([], []) := by
  induction blanks with
  | nil => rfl
  | cons c blanks ih =>
    rw [scanTokens_blank (h c List.mem_cons_self), tokens,
      ih fun d hd => h d (List.mem_cons_of_mem c hd)]
    rfl

/-- The scanner does not see blank characters at the end of a text, unless it reads a section that
no quote closes. -/
theorem scanTokens_append_blank {blanks : List Char} (h : ∀ c ∈ blanks, isBlank c = true)
    {cs : List Char} {quoted : Bool} (hclosed : quoted = true → cs.any isQuote = true) :
    scanTokens quoted (cs ++ blanks) = scanTokens quoted cs := by
  have hnone : blanks.any isQuote = false := by
    rw [List.any_eq_false]
    intro c hc
    rw [isQuote_of_isBlank (h c hc)]
    exact nofun
  induction cs generalizing quoted with
  | nil =>
    cases quoted with
    -- An open section would take the blank characters in, but none is open here.
    | true => exact absurd (hclosed rfl) nofun
    | false => exact scanTokens_of_blank h
  | cons c cs ih =>
    have hany : (cs ++ blanks).any isQuote = cs.any isQuote := by
      rw [List.any_append, hnone, Bool.or_false]
    have hfalse : scanTokens false (cs ++ blanks) = scanTokens false cs := ih nofun
    have htokens : tokens (cs ++ blanks) = tokens cs := by rw [tokens, tokens, hfalse]
    rw [List.cons_append]
    by_cases hquote : isQuote c = true
    · cases quoted with
      | true => rw [scanTokens_close hquote, scanTokens_close hquote, hfalse]
      | false =>
        by_cases hlater : cs.any isQuote = true
        · rw [scanTokens_open hquote (hany.trans hlater), scanTokens_open hquote hlater,
            ih fun _ => hlater]
        · rw [Bool.not_eq_true] at hlater
          rw [scanTokens_stray hquote (hany.trans hlater), scanTokens_stray hquote hlater, htokens]
    · rw [Bool.not_eq_true] at hquote
      by_cases hplain : quoted = true ∨ isBlank c = false
      · have hclosed' : quoted = true → cs.any isQuote = true := by
          intro hquoted
          have hcons := hclosed hquoted
          rwa [List.any_cons, hquote, Bool.false_or] at hcons
        rw [scanTokens_plain hplain hquote, scanTokens_plain hplain hquote, ih hclosed']
      · obtain ⟨rfl, hblank⟩ : quoted = false ∧ isBlank c = true := by simpa using hplain
        rw [scanTokens_blank hblank, scanTokens_blank hblank, htokens]

theorem tokens_append_blank {blanks : List Char} (h : ∀ c ∈ blanks, isBlank c = true)
    (cs : List Char) : tokens (cs ++ blanks) = tokens cs := by
  have hscan : scanTokens false (cs ++ blanks) = scanTokens false cs :=
    scanTokens_append_blank h nofun
  rw [tokens, tokens, hscan]

/-- A text is its trimmed end followed by blank characters. -/
theorem exists_eq_trimEnd_append (cs : List Char) :
    ∃ blanks, (∀ c ∈ blanks, isBlank c = true) ∧ cs = trimEnd cs ++ blanks := by
  refine ⟨(cs.reverse.takeWhile isBlank).reverse, ?_, ?_⟩
  · intro c hc
    exact List.mem_takeWhile_imp (List.mem_reverse.mp hc)
  · rw [trimEnd, ← List.reverse_append, List.takeWhile_append_dropWhile, List.reverse_reverse]

/-- **Blank characters at the ends belong to no token.** -/
theorem tokens_trim (cs : List Char) : tokens (trim cs) = tokens cs := by
  obtain ⟨blanks, hblanks, htrim⟩ := exists_eq_trimEnd_append (trimStart cs)
  rw [← tokens_trimStart cs, trim]
  conv_rhs => rw [htrim, tokens_append_blank hblanks]

end StationNaming.Search
