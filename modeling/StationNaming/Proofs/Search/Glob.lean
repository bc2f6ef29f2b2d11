import Mathlib.Data.List.Infix
import StationNaming.Search.Fragment
/-!
# Globs and where they occur

A glob stands for a set of texts, and it occurs in a text if some stretch of it is one of them. The
search for a fragment goes through the text once and takes the leftmost place of every block of
cells.

**What is exact.** `occursIn_iff`: going for the leftmost place never misses an occurrence, because
whatever can follow a later place of a block can also follow an earlier one. `covers_globPart_iff`:
the parts for the characters of a glob cover the texts that the glob matches.
-/

namespace StationNaming.Search

open StationNaming.Unicode (sameLetter)

/-! ## Globs -/

/-- **What a glob matches**: `*` is any text, `?` is any one character, and every other character is
any form of its letter. -/
inductive GlobMatches : List Char → List Char → Prop
  | nil : GlobMatches [] []
  | star {glob text : List Char} (skipped : List Char) :
      GlobMatches glob text → GlobMatches ('*' :: glob) (skipped ++ text)
  | question {glob text : List Char} (d : Char) :
      GlobMatches glob text → GlobMatches ('?' :: glob) (d :: text)
  | letter {glob text : List Char} {c d : Char} :
      c ≠ '*' → c ≠ '?' → sameLetter c d = true → GlobMatches glob text →
        GlobMatches (c :: glob) (d :: text)

/-- What the parts of a fragment cover: a run any text, and a cell one character that it takes. -/
inductive Covers : List Part → List Char → Prop
  | nil : Covers [] []
  | run {ps : List Part} {text : List Char} (skipped : List Char) :
      Covers ps text → Covers (.run :: ps) (skipped ++ text)
  | cell {ps : List Part} {text : List Char} {c : Cell} {d : Char} :
      c.takes d = true → Covers ps text → Covers (.cell c :: ps) (d :: text)

/-- The part that a character of a glob asks for. -/
def globPart (c : Char) : Part :=
  if c = '*' then .run else if c = '?' then .cell .any else .cell (.letter c)

theorem globPart_letter {c : Char} (hstar : c ≠ '*') (hquestion : c ≠ '?') :
    globPart c = .cell (.letter c) := by
  rw [globPart, if_neg hstar, if_neg hquestion]

theorem covers_of_globMatches {glob text : List Char} (h : GlobMatches glob text) :
    Covers (glob.map globPart) text := by
  induction h with
  | nil => exact .nil
  | star skipped _ ih => exact .run skipped ih
  | question d _ ih => exact .cell (c := .any) rfl ih
  | letter hstar hquestion hletter _ ih =>
    rw [List.map_cons, globPart_letter hstar hquestion]
    exact .cell hletter ih

theorem globMatches_of_covers {glob text : List Char} (h : Covers (glob.map globPart) text) :
    GlobMatches glob text := by
  induction glob generalizing text with
  | nil =>
    cases h
    exact .nil
  | cons c glob ih =>
    rw [List.map_cons] at h
    by_cases hstar : c = '*'
    · subst hstar
      cases h with
      | run skipped hrest => exact .star skipped (ih hrest)
    · by_cases hquestion : c = '?'
      · subst hquestion
        cases h with
        | cell _ hrest => exact .question _ (ih hrest)
      · rw [globPart_letter hstar hquestion] at h
        cases h with
        | cell hletter hrest => exact .letter hstar hquestion hletter (ih hrest)

/-- **The parts for a glob cover what the glob matches.** -/
theorem covers_globPart_iff {glob text : List Char} :
    Covers (glob.map globPart) text ↔ GlobMatches glob text :=
  ⟨globMatches_of_covers, covers_of_globMatches⟩

/-! ## Starting and occurring -/

/-- A text starts with a stretch that the parts cover. -/
def Starts (ps : List Part) (text : List Char) : Prop :=
  ∃ stretch, stretch <+: text ∧ Covers ps stretch

/-- **Parts occur in a text** if they cover some stretch of it. -/
def Occurs (ps : List Part) (text : List Char) : Prop :=
  ∃ stretch, stretch <:+: text ∧ Covers ps stretch

theorem occurs_iff_starts {ps : List Part} {text : List Char} :
    Occurs ps text ↔ ∃ rest, rest <:+ text ∧ Starts ps rest := by
  constructor
  · rintro ⟨stretch, hinfix, hcovers⟩
    obtain ⟨rest, hprefix, hsuffix⟩ := List.infix_iff_prefix_suffix.mp hinfix
    exact ⟨rest, hsuffix, stretch, hprefix, hcovers⟩
  · rintro ⟨rest, hsuffix, stretch, hprefix, hcovers⟩
    exact ⟨stretch, List.infix_iff_prefix_suffix.mpr ⟨rest, hprefix, hsuffix⟩, hcovers⟩

theorem starts_nil (text : List Char) : Starts [] text := ⟨[], List.nil_prefix, .nil⟩

/-- After a run, the rest may start anywhere. -/
theorem starts_run_iff {ps : List Part} {text : List Char} :
    Starts (.run :: ps) text ↔ Occurs ps text := by
  constructor
  · rintro ⟨_, ⟨after, rfl⟩, hcovers⟩
    cases hcovers with
    | @run _ stretch skipped hrest => exact ⟨stretch, ⟨skipped, after, rfl⟩, hrest⟩
  · rintro ⟨stretch, ⟨skipped, after, rfl⟩, hcovers⟩
    exact ⟨skipped ++ stretch, ⟨after, rfl⟩, .run skipped hcovers⟩

theorem not_starts_cell_nil (c : Cell) (ps : List Part) : ¬ Starts (.cell c :: ps) [] := by
  rintro ⟨stretch, hprefix, hcovers⟩
  rw [List.prefix_nil.mp hprefix] at hcovers
  cases hcovers

theorem starts_cell_iff {c : Cell} {ps : List Part} {d : Char} {text : List Char} :
    Starts (.cell c :: ps) (d :: text) ↔ c.takes d = true ∧ Starts ps text := by
  constructor
  · rintro ⟨_, hprefix, hcovers⟩
    cases hcovers with
    | @cell _ stretch _ _ htakes hrest =>
      obtain ⟨rfl, htail⟩ := List.cons_prefix_cons.mp hprefix
      exact ⟨htakes, stretch, htail, hrest⟩
  · rintro ⟨htakes, stretch, hprefix, hrest⟩
    exact ⟨d :: stretch, List.cons_prefix_cons.mpr ⟨rfl, hprefix⟩, .cell htakes hrest⟩

/-! ## The leftmost place of a block -/

/-- A block takes as many characters as it has cells. -/
theorem eq_drop_of_stripBlock? {block : List Cell} {text rest : List Char}
    (h : stripBlock? block text = some rest) : rest = text.drop block.length := by
  induction block generalizing text with
  | nil => exact (Option.some.inj h).symm
  | cons c block ih =>
    cases text with
    | nil => exact absurd h nofun
    | cons d text =>
      rw [stripBlock?] at h
      split at h
      · exact ih h
      · exact absurd h nofun

/-- A block that is found starts somewhere. -/
theorem stripBlock?_of_findBlock? {block : List Cell} {text rest : List Char}
    (h : findBlock? block text = some rest) :
    ∃ start, start <:+ text ∧ stripBlock? block start = some rest := by
  induction text with
  | nil => exact ⟨[], List.suffix_rfl, h⟩
  | cons c text ih =>
    rw [findBlock?] at h
    cases hstrip : stripBlock? block (c :: text) with
    | some rest' =>
      rw [hstrip] at h
      exact ⟨c :: text, List.suffix_rfl, hstrip.trans h⟩
    | none =>
      rw [hstrip] at h
      obtain ⟨start, hstart, hrest⟩ := ih h
      exact ⟨start, hstart.trans (List.suffix_cons c text), hrest⟩

/-- **The leftmost place leaves the most**: what is left after any place of a block is an end of
what is left after the one that is found. -/
theorem suffix_of_findBlock? {block : List Cell} {text start rest : List Char}
    (hstart : start <:+ text) (hrest : stripBlock? block start = some rest) :
    ∃ rest', findBlock? block text = some rest' ∧ rest <:+ rest' := by
  induction text with
  | nil =>
    obtain rfl := List.suffix_nil.mp hstart
    exact ⟨rest, hrest, List.suffix_rfl⟩
  | cons c text ih =>
    rw [findBlock?]
    cases hstrip : stripBlock? block (c :: text) with
    | some rest' =>
      -- Both places take as many characters, and this one starts no later.
      refine ⟨rest', rfl, ?_⟩
      rw [eq_drop_of_stripBlock? hrest, eq_drop_of_stripBlock? hstrip]
      obtain ⟨before, hbefore⟩ := hstart
      rw [← hbefore]
      have hdrop : start.drop block.length =
          ((before ++ start).drop block.length).drop before.length := by
        rw [List.drop_drop, Nat.add_comm, ← List.drop_drop, List.drop_left]
      rw [hdrop]
      exact List.drop_suffix _ _
    | none =>
      rcases List.suffix_cons_iff.mp hstart with rfl | hstart
      · rw [hrest] at hstrip
        exact absurd hstrip nofun
      · exact ih hstart

/-! ## Blocks one after the other -/

/-- The first block stands at the start of a text, and each later one somewhere after the one before
it. -/
def HoldsHere : List (List Cell) → List Char → Prop
  | [], _ => True
  | block :: later, text =>
    ∃ rest, stripBlock? block text = some rest ∧ ∃ start, start <:+ rest ∧ HoldsHere later start

/-- **Going for the leftmost places finds blocks in a row wherever they are.** -/
theorem holdsBlocks_iff {bs : List (List Cell)} {text : List Char} :
    holdsBlocks bs text = true ↔ ∃ start, start <:+ text ∧ HoldsHere bs start := by
  induction bs generalizing text with
  | nil => exact ⟨fun _ => ⟨text, List.suffix_rfl, trivial⟩, fun _ => rfl⟩
  | cons block bs ih =>
    rw [holdsBlocks]
    constructor
    · intro h
      cases hfind : findBlock? block text with
      | none =>
        rw [hfind] at h
        exact absurd h nofun
      | some rest =>
        rw [hfind] at h
        obtain ⟨start, hstart, hrest⟩ := stripBlock?_of_findBlock? hfind
        exact ⟨start, hstart, rest, hrest, ih.mp h⟩
    · -- The place that is found leaves at least what the given one leaves.
      rintro ⟨start, hstart, rest, hrest, start', hstart', hlater⟩
      obtain ⟨rest', hfind, hsuffix⟩ := suffix_of_findBlock? hstart hrest
      rw [hfind]
      exact ih.mpr ⟨start', hstart'.trans hsuffix, hlater⟩

/-- There is always a first block. -/
theorem exists_blocks_eq_cons (ps : List Part) : ∃ block later, blocks ps = block :: later := by
  induction ps with
  | nil => exact ⟨[], [], rfl⟩
  | cons p ps ih =>
    obtain ⟨block, later, hblocks⟩ := ih
    cases p with
    | run => exact ⟨[], blocks ps, rfl⟩
    | cell c => exact ⟨c :: block, later, by rw [blocks, hblocks]⟩

/-- Parts start a text if their blocks hold there, the first one at the start. -/
theorem starts_iff_holdsHere {ps : List Part} {text : List Char} :
    Starts ps text ↔ HoldsHere (blocks ps) text := by
  induction ps generalizing text with
  | nil => exact ⟨fun _ => ⟨text, rfl, text, List.suffix_rfl, trivial⟩, fun _ => starts_nil text⟩
  | cons p ps ih =>
    cases p with
    | run =>
      have hhere : HoldsHere (blocks (.run :: ps)) text ↔
          ∃ start, start <:+ text ∧ HoldsHere (blocks ps) start := by
        simp [blocks, HoldsHere, stripBlock?]
      rw [hhere, starts_run_iff, occurs_iff_starts]
      simp only [ih]
    | cell c =>
      obtain ⟨block, later, hblocks⟩ := exists_blocks_eq_cons ps
      rw [blocks, hblocks]
      cases text with
      | nil => exact ⟨fun h => absurd h (not_starts_cell_nil c ps), fun ⟨_, h, _⟩ => absurd h nofun⟩
      | cons d text =>
        rw [starts_cell_iff, ih, hblocks, HoldsHere, HoldsHere, stripBlock?]
        by_cases htakes : c.takes d = true <;> simp [htakes]

/-- **The search is exact**: a fragment is found in a text if its parts cover some stretch of it. -/
theorem occursIn_iff {fragment text : List Char} :
    occursIn fragment text = true ↔ Occurs (parts fragment) text := by
  rw [occursIn, holdsBlocks_iff, occurs_iff_starts]
  simp only [starts_iff_holdsHere]

end StationNaming.Search
