import Mathlib.Tactic.Common
import StationNaming.Unicode.Blank
import StationNaming.Verdict
/-!
# What the naming rules say

The four rules told without the program: which characters are letters and digits, which texts are
spelled like a name, and which verdict a text gets when it is known whether something else holds it.

**What is exact.** `Ruled` gives every text exactly one verdict, and `judge` gives that one. A text
that may stand is an ASCII letter followed by at most 62 ASCII letters, digits and underscores that
nothing else holds.
-/

namespace StationNaming.Naming

/-! ## Spelling -/

/-- An ASCII letter. -/
def IsLetter (c : Char) : Prop :=
  (65 ≤ c.toNat ∧ c.toNat ≤ 90) ∨ (97 ≤ c.toNat ∧ c.toNat ≤ 122)

/-- An ASCII digit. -/
def IsDigit (c : Char) : Prop := 48 ≤ c.toNat ∧ c.toNat ≤ 57

/-- A letter, a digit or an underscore. -/
def IsFollower (c : Char) : Prop := IsLetter c ∨ IsDigit c ∨ c = '_'

/-- **A text spelled like a name**, however long: a letter and then followers. -/
def WellSpelled (value : String) : Prop :=
  ∃ c cs, value.toList = c :: cs ∧ IsLetter c ∧ ∀ d ∈ cs, IsFollower d

/-- **A name that may stand**: a letter and then at most 62 followers. -/
def Admissible (value : String) : Prop :=
  ∃ c cs, value.toList = c :: cs ∧ IsLetter c ∧ (∀ d ∈ cs, IsFollower d) ∧ cs.length ≤ 62

theorem isNameStart_iff (c : Char) : isNameStart c = true ↔ IsLetter c := by
  simp only [isNameStart, Bool.or_eq_true, Bool.and_eq_true, decide_eq_true_eq, IsLetter]
  rfl

theorem isNameChar_iff (c : Char) : isNameChar c = true ↔ IsFollower c := by
  simp only [isNameChar, Bool.or_eq_true, Bool.and_eq_true, decide_eq_true_eq, beq_iff_eq,
    isNameStart_iff, IsFollower, or_assoc]
  rfl

theorem matchesPattern_iff (value : String) :
    matchesPattern value.toList = true ↔ WellSpelled value := by
  constructor
  · intro h
    cases hv : value.toList with
    | nil =>
      rw [hv] at h
      exact absurd h Bool.false_ne_true
    | cons c cs =>
      rw [hv, matchesPattern, Bool.and_eq_true, List.all_eq_true, isNameStart_iff] at h
      exact ⟨c, cs, hv, h.1, fun d hd => (isNameChar_iff d).mp (h.2 d hd)⟩
  · rintro ⟨c, cs, hv, hc, hcs⟩
    rw [hv, matchesPattern, Bool.and_eq_true, List.all_eq_true, isNameStart_iff]
    exact ⟨hc, fun d hd => (isNameChar_iff d).mpr (hcs d hd)⟩

theorem WellSpelled.ne_empty {value : String} (h : WellSpelled value) : value ≠ "" := by
  obtain ⟨c, cs, hv, -⟩ := h
  rintro rfl
  exact absurd hv (by simp)

/-- A name that may stand is one that is well spelled and has at most 63 characters. -/
theorem admissible_iff (value : String) :
    Admissible value ↔ WellSpelled value ∧ value.length ≤ 63 := by
  constructor
  · rintro ⟨c, cs, hv, hc, hcs, hlen⟩
    refine ⟨⟨c, cs, hv, hc, hcs⟩, ?_⟩
    rw [← String.length_toList, hv, List.length_cons]
    omega
  · rintro ⟨⟨c, cs, hv, hc, hcs⟩, hlen⟩
    refine ⟨c, cs, hv, hc, hcs, ?_⟩
    rw [← String.length_toList, hv, List.length_cons] at hlen
    omega

/-! ## Names among blanks -/

theorem isBlank_of_isFollower {c : Char} (h : IsFollower c) : Unicode.isBlank c = false := by
  have hcode : 48 ≤ c.toNat ∧ c.toNat ≤ 122 := by
    rcases h with h | h | rfl
    · rcases h with h | h <;> omega
    · exact ⟨h.1, by have := h.2; omega⟩
    · decide
  simp only [Unicode.isBlank, Bool.or_eq_false_iff, Bool.and_eq_false_iff, decide_eq_false_iff_not,
    beq_eq_false_iff_ne]
  omega

/-- A name that may stand has no blanks around it to take away. -/
theorem Admissible.trimString_eq {value : String} (h : Admissible value) :
    Unicode.trimString value = value := by
  obtain ⟨c, cs, hv, hc, hcs, -⟩ := h
  have hblank : ∀ d ∈ value.toList, Unicode.isBlank d = false := by
    rw [hv]
    exact List.forall_mem_cons.mpr
      ⟨isBlank_of_isFollower (.inl hc), fun d hd => isBlank_of_isFollower (hcs d hd)⟩
  rw [Unicode.trimString, Unicode.trim_of_forall_not_isBlank hblank, String.ofList_toList]

/-! ## Verdicts -/

/-- **The verdict on a text**, when `taken` says whether something else holds it: the first rule
that fails decides. -/
inductive Ruled (value : String) (taken : Prop) : Verdict → Prop
  | empty : value = "" → Ruled value taken .empty
  | patternMismatch : value ≠ "" → ¬ WellSpelled value → Ruled value taken .patternMismatch
  | lengthOutOfRange : WellSpelled value → 63 < value.length → Ruled value taken .lengthOutOfRange
  | duplicate : WellSpelled value → value.length ≤ 63 → taken → Ruled value taken .duplicate
  | valid : WellSpelled value → value.length ≤ 63 → ¬ taken → Ruled value taken .valid

/-- **Judging follows the rules**: a text is taken if its holders are not exactly one. -/
theorem ruled_judge (value : String) (holders : Int) :
    Ruled value (holders ≠ 1) (judge value holders) := by
  unfold judge
  by_cases hempty : value = ""
  · rw [if_pos hempty]
    exact .empty hempty
  rw [if_neg hempty]
  by_cases hspell : WellSpelled value
  · rw [if_neg (by simp [(matchesPattern_iff value).mpr hspell])]
    by_cases hlen : value.length ≤ 63
    · rw [if_neg (by simp only [maxNameLength]; omega)]
      by_cases htaken : holders ≠ 1
      · rw [if_pos htaken]
        exact .duplicate hspell hlen htaken
      · rw [if_neg htaken]
        exact .valid hspell hlen htaken
    · rw [if_pos (by simp only [maxNameLength]; omega)]
      exact .lengthOutOfRange hspell (by omega)
  · rw [if_pos (by simp [mt (matchesPattern_iff value).mp hspell])]
    exact .patternMismatch hempty hspell

/-- Only whether a text is taken matters, not how that is said. -/
theorem Ruled.congr {value : String} {taken taken' : Prop} {v : Verdict} (hiff : taken ↔ taken')
    (h : Ruled value taken v) : Ruled value taken' v := by
  cases h with
  | empty he => exact .empty he
  | patternMismatch he hs => exact .patternMismatch he hs
  | lengthOutOfRange hs hl => exact .lengthOutOfRange hs hl
  | duplicate hs hl ht => exact .duplicate hs hl (hiff.mp ht)
  | valid hs hl ht => exact .valid hs hl (mt hiff.mpr ht)

/-- **A text is valid exactly if it may stand and nothing else holds it.** -/
theorem Ruled.valid_iff {value : String} {taken : Prop} {v : Verdict} (h : Ruled value taken v) :
    v = .valid ↔ Admissible value ∧ ¬ taken := by
  rw [admissible_iff]
  cases h with
  | empty he => exact ⟨nofun, fun ha => absurd he ha.1.1.ne_empty⟩
  | patternMismatch _ hs => exact ⟨nofun, fun ha => absurd ha.1.1 hs⟩
  | lengthOutOfRange _ hl => exact ⟨nofun, fun ha => absurd ha.1.2 (by omega)⟩
  | duplicate _ _ ht => exact ⟨nofun, fun ha => absurd ht ha.2⟩
  | valid hs hl ht => exact ⟨fun _ => ⟨⟨hs, hl⟩, ht⟩, fun _ => rfl⟩

end StationNaming.Naming
