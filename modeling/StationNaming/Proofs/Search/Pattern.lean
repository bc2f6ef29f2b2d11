import StationNaming.Proofs.Search.Glob
import StationNaming.Search.Escape
/-!
# Patterns

A query stands for a pattern in which every fragment is looked for ahead of the start of a text.
Here patterns are read by their own rules: a character with a meaning loses it behind a backslash,
and whatever the rules below do not name is no pattern.

**What is exact.** The reader is strict: an open look ahead, a backslash in front of a letter, a
digit or nothing, and a character with a meaning that stands where it has none make it fail. Of an
escaped and expanded glob it reads what the glob asks for, whatever is typed into the glob
(`readPieces?_unitOf`), and so does the reader of fragments (`parts_expand_escape`).
-/

namespace StationNaming.Search

/-! ## Units of fragments -/

/-- What a character of a glob becomes in a fragment. -/
def unitOf (c : Char) : List Char := expand (escapeChar c)

@[simp] theorem expand_append (cs ds : List Char) : expand (cs ++ ds) = expand cs ++ expand ds :=
  List.flatMap_append

theorem expand_escape_cons (c : Char) (cs : List Char) :
    expand (escape (c :: cs)) = unitOf c ++ expand (escape cs) := by
  rw [escape_cons, expand_append, unitOf]

/-- **The four kinds of units**: a backslash and what it protects, the two wildcards, and a plain
character. -/
theorem unitOf_cases (c : Char) :
    (isProtected c = true ∧ unitOf c = ['\\', c] ∧ globPart c = .cell (.letter c)) ∨
    (c = '*' ∧ unitOf c = ['.', '*'] ∧ globPart c = .run) ∨
    (c = '?' ∧ unitOf c = ['.'] ∧ globPart c = .cell .any) ∨
    (isProtected c = false ∧ c ≠ '*' ∧ c ≠ '?' ∧ unitOf c = [c] ∧
      globPart c = .cell (.letter c)) := by
  by_cases hstar : c = '*'
  · subst hstar
    exact .inr (.inl ⟨rfl, rfl, rfl⟩)
  by_cases hquestion : c = '?'
  · subst hquestion
    exact .inr (.inr (.inl ⟨rfl, rfl, rfl⟩))
  have hexpand : expandChar c = [c] := by simp [expandChar, hstar, hquestion]
  by_cases hprotected : isProtected c = true
  · refine .inl ⟨hprotected, ?_, globPart_letter hstar hquestion⟩
    rw [unitOf, escapeChar, if_pos hprotected]
    show ['\\'] ++ (expandChar c ++ []) = _
    rw [hexpand]
    rfl
  · rw [Bool.not_eq_true] at hprotected
    refine .inr (.inr (.inr ⟨hprotected, hstar, hquestion, ?_, globPart_letter hstar hquestion⟩))
    rw [unitOf, escapeChar, hprotected]
    show expandChar c ++ [] = _
    rw [hexpand]
    rfl

/-- No unit starts with a star, so none turns a point before it into a run. -/
theorem head?_unitOf_append_ne_star (c : Char) (cs : List Char) :
    (unitOf c ++ cs).head? ≠ some '*' := by
  rcases unitOf_cases c with ⟨-, hunit, -⟩ | ⟨-, hunit, -⟩ | ⟨-, hunit, -⟩ | ⟨-, hstar, -, hunit, -⟩
  · simp [hunit]
  · simp [hunit]
  · simp [hunit]
  · simpa [hunit] using hstar

theorem head?_expand_escape_append_ne_star (glob : List Char) {cs : List Char}
    (h : cs.head? ≠ some '*') : (expand (escape glob) ++ cs).head? ≠ some '*' := by
  cases glob with
  | nil => exact h
  | cons c glob =>
    rw [expand_escape_cons, List.append_assoc]
    exact head?_unitOf_append_ne_star c _

/-! ## Fragments -/

theorem isProtected_point : isProtected '.' = true := by decide

theorem isProtected_backslash : isProtected '\\' = true := by decide

/-- **One unit is one part.** -/
theorem parts_unitOf_append (c : Char) {cs : List Char} (h : cs.head? ≠ some '*') :
    parts (unitOf c ++ cs) = globPart c :: parts cs := by
  rcases unitOf_cases c with ⟨-, hunit, hpart⟩ | ⟨-, hunit, hpart⟩ | ⟨-, hunit, hpart⟩ |
    ⟨hplain, -, -, hunit, hpart⟩
  · rw [hunit, hpart]
    rfl
  · rw [hunit, hpart]
    rfl
  · rw [hunit, hpart]
    -- A point is one place only if no star stands behind it.
    cases cs with
    | nil => rfl
    | cons d cs =>
      have hne : d ≠ '*' := by simpa using h
      simp [parts, hne]
  · have hpoint : c ≠ '.' := by
      rintro rfl
      exact absurd (hplain.symm.trans isProtected_point) nofun
    have hbackslash : c ≠ '\\' := by
      rintro rfl
      exact absurd (hplain.symm.trans isProtected_backslash) nofun
    rw [hunit, hpart]
    simp [parts, hpoint, hbackslash]

/-- **The fragment for a glob** reads as the parts that the glob asks for. -/
theorem parts_expand_escape (glob : List Char) :
    parts (expand (escape glob)) = glob.map globPart := by
  induction glob with
  | nil => rfl
  | cons c glob ih =>
    have hhead : (expand (escape glob)).head? ≠ some '*' := by
      have := head?_expand_escape_append_ne_star glob (show ([] : List Char).head? ≠
        some '*' by simp)
      rwa [List.append_nil] at this
    rw [expand_escape_cons, parts_unitOf_append c hhead, ih, List.map_cons]

/-! ## Reading patterns -/

/-- A piece of a pattern: a part, or parts that are looked for ahead. -/
inductive Piece where
  | part (p : Part)
  | ahead (ps : List Part)
  deriving DecidableEq, Repr

/-- The characters with a meaning of their own in a pattern. -/
def isSpecial (c : Char) : Bool :=
  ['.', '^', '$', '*', '+', '?', '\x7b', '\x7d', '[', ']', '\\', '|', '(', ')'].contains c

/-- Puts a part where it was read: into the look ahead that is open, or among the pieces. -/
def putPart (ahead : Bool) (p : Part) (read : List Part × List Piece) : List Part × List Piece :=
  if ahead then (p :: read.1, read.2) else (read.1, .part p :: read.2)

/-- **Reading a pattern**: the parts up to the end of the look ahead that is open, if one is, and
the pieces behind them. -/
def readPieces? (ahead : Bool) : List Char → Option (List Part × List Piece)
  | [] => if ahead then none else some ([], [])
  | '\\' :: c :: cs =>
    if c.isAlphanum then none else (readPieces? ahead cs).map (putPart ahead (.cell (.letter c)))
  | '.' :: '*' :: cs => (readPieces? ahead cs).map (putPart ahead .run)
  | '.' :: cs => (readPieces? ahead cs).map (putPart ahead (.cell .any))
  | '(' :: '?' :: '=' :: cs =>
    if ahead then none else (readPieces? true cs).map fun read => ([], .ahead read.1 :: read.2)
  | ')' :: cs => if ahead then (readPieces? false cs).map fun read => ([], read.2) else none
  | c :: cs =>
    if isSpecial c then none else (readPieces? ahead cs).map (putPart ahead (.cell (.letter c)))

/-- The pieces of a whole pattern, if it is one. -/
def pieces? (pattern : List Char) : Option (List Piece) :=
  (readPieces? false pattern).map (·.2)

/-- **Patterns that match at the start of a text.** What is looked for ahead takes nothing away. -/
inductive Accepts : List Piece → List Char → Prop
  | done (text : List Char) : Accepts [] text
  | run {pieces : List Piece} {text : List Char} (skipped : List Char) :
      Accepts pieces text → Accepts (.part .run :: pieces) (skipped ++ text)
  | cell {pieces : List Piece} {text : List Char} {c : Cell} {d : Char} :
      c.takes d = true → Accepts pieces text → Accepts (.part (.cell c) :: pieces) (d :: text)
  | ahead {ps : List Part} {pieces : List Piece} {text : List Char} :
      Starts ps text → Accepts pieces text → Accepts (.ahead ps :: pieces) text

/-! ## Patterns of fragments -/

/-- No letter or digit is protected, so a backslash never gives one a meaning. -/
theorem not_isAlphanum_of_isProtected {c : Char} (h : isProtected c = true) :
    c.isAlphanum = false := by
  have hnone : (!c.isAlphanum) = true := of_isProtected (p := fun c => !c.isAlphanum) (by decide) h
  simpa using hnone

/-- **Nothing with a meaning is left unprotected** but the wildcards. -/
theorem isProtected_of_isSpecial {c : Char} (hstar : c ≠ '*') (hquestion : c ≠ '?')
    (h : isSpecial c = true) : isProtected c = true := by
  have hall : ['.', '^', '$', '*', '+', '?', '\x7b', '\x7d', '[', ']', '\\', '|', '(', ')'].all
      (fun d => d == '*' || d == '?' || isProtected d) = true := by decide
  have hc := List.all_eq_true.mp hall c (List.contains_iff_mem.mp h)
  simpa [hstar, hquestion] using hc

theorem readPieces?_plain {c : Char} (h : isSpecial c = false) (ahead : Bool) (cs : List Char) :
    readPieces? ahead (c :: cs) =
      (readPieces? ahead cs).map (putPart ahead (.cell (.letter c))) := by
  have hne : ∀ d : Char, isSpecial d = true → c ≠ d := by
    rintro d hd rfl
    exact absurd (h.symm.trans hd) nofun
  rw [readPieces?, h]
  · rfl
  · exact fun _ _ hc _ => hne '\\' (by decide) hc
  · exact fun _ hc _ => hne '.' (by decide) hc
  · exact fun hc => hne '.' (by decide) hc
  · exact fun _ hc _ => hne '(' (by decide) hc
  · exact fun hc => hne ')' (by decide) hc

/-- **One unit is one part** for the reader of patterns as well. -/
theorem readPieces?_unitOf (ahead : Bool) (c : Char) {cs : List Char} (h : cs.head? ≠ some '*') :
    readPieces? ahead (unitOf c ++ cs) =
      (readPieces? ahead cs).map (putPart ahead (globPart c)) := by
  rcases unitOf_cases c with ⟨hprotected, hunit, hpart⟩ | ⟨-, hunit, hpart⟩ | ⟨-, hunit, hpart⟩ |
    ⟨hplain, hstar, hquestion, hunit, hpart⟩
  · have halphanum := not_isAlphanum_of_isProtected hprotected
    rw [hunit, hpart]
    simp [readPieces?, halphanum]
  · rw [hunit, hpart]
    rfl
  · rw [hunit, hpart]
    cases cs with
    | nil => rfl
    | cons d cs =>
      have hne : d ≠ '*' := by simpa using h
      simp [readPieces?, hne]
  · have hspecial : isSpecial c = false := by
      rw [Bool.eq_false_iff]
      intro hspecial
      have hprotected := isProtected_of_isSpecial hstar hquestion hspecial
      exact absurd (hplain.symm.trans hprotected) nofun
    rw [hunit, hpart]
    exact readPieces?_plain hspecial ahead cs

/-- A fragment in an open look ahead is read up to its end. -/
theorem readPieces?_fragment (glob cs : List Char) :
    readPieces? true (expand (escape glob) ++ ')' :: cs) =
      (readPieces? false cs).map fun read => (glob.map globPart, read.2) := by
  induction glob with
  | nil => rfl
  | cons c glob ih =>
    have hhead : (expand (escape glob) ++ ')' :: cs).head? ≠ some '*' :=
      head?_expand_escape_append_ne_star glob (by simp)
    rw [expand_escape_cons, List.append_assoc, readPieces?_unitOf true c hhead, ih, Option.map_map]
    rfl

/-- The pattern that looks ahead for every one of some fragments. -/
def patternOf (fragments : List (List Char)) : List Char :=
  fragments.flatMap (fun fragment => ['(', '?', '=', '.', '*'] ++ fragment ++ [')']) ++ ['.', '*']

/-- **The pattern of escaped and expanded globs is one**, and each of its looks ahead is for one
glob. -/
theorem pieces?_patternOf (globs : List (List Char)) :
    pieces? (patternOf (globs.map fun glob => expand (escape glob))) =
      some (globs.map (fun glob => .ahead (.run :: glob.map globPart)) ++ [.part .run]) := by
  -- Outside a look ahead no part is put anywhere, so the reader gives it back empty.
  have hread : ∀ globs : List (List Char),
      readPieces? false (patternOf (globs.map fun glob => expand (escape glob))) =
        some ([], globs.map (fun glob => .ahead (.run :: glob.map globPart)) ++ [.part .run]) := by
    intro globs
    induction globs with
    | nil => rfl
    | cons glob globs ih =>
      have hcons : patternOf ((glob :: globs).map fun glob => expand (escape glob)) =
          '(' :: '?' :: '=' :: '.' :: '*' :: (expand (escape glob) ++
            ')' :: patternOf (globs.map fun glob => expand (escape glob))) := by
        simp [patternOf]
      rw [hcons]
      show ((readPieces? true (expand (escape glob) ++ ')' :: _)).map (putPart true .run)).map
        (fun read => ([], Piece.ahead read.1 :: read.2)) = _
      rw [readPieces?_fragment, ih]
      rfl
  rw [pieces?, hread]
  rfl

/-- **A pattern of looks ahead matches where everything occurs.** -/
theorem accepts_aheads_iff (pss : List (List Part)) (text : List Char) :
    Accepts (pss.map (fun ps => .ahead (.run :: ps)) ++ [.part .run]) text ↔
      ∀ ps ∈ pss, Occurs ps text := by
  induction pss with
  | nil =>
    have hrest : Accepts [.part .run] (text ++ []) := .run text (.done [])
    rw [List.append_nil] at hrest
    exact ⟨fun _ => nofun, fun _ => hrest⟩
  | cons ps pss ih =>
    rw [List.forall_mem_cons, ← ih, ← starts_run_iff]
    constructor
    · intro h
      cases h with
      | ahead hstarts hrest => exact ⟨hstarts, hrest⟩
    · rintro ⟨hstarts, hrest⟩
      exact .ahead hstarts hrest

end StationNaming.Search
