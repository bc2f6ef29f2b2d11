/-!
# The order of code points

Texts are put in order by their code points, the first difference deciding; a text comes before its
own continuations.
-/

namespace StationNaming.Unicode

/-- **Comparison by code point.** -/
def codeLe : List Nat → List Nat → Bool
  | [], _ => true
  | _ :: _, [] => false
  | a :: as, b :: bs => a < b || (a == b && codeLe as bs)

theorem codeLe_total (as bs : List Nat) : (codeLe as bs || codeLe bs as) = true := by
  induction as generalizing bs with
  | nil => rfl
  | cons a as ih =>
    cases bs with
    | nil => rfl
    | cons b bs =>
      simp only [codeLe, Bool.or_eq_true, Bool.and_eq_true, decide_eq_true_eq, beq_iff_eq] at *
      rcases Nat.lt_trichotomy a b with h | rfl | h
      · exact Or.inl (Or.inl h)
      · exact (ih bs).imp (fun h => Or.inr ⟨rfl, h⟩) (fun h => Or.inr ⟨rfl, h⟩)
      · exact Or.inr (Or.inl h)

theorem codeLe_trans {as bs cs : List Nat} (h : codeLe as bs = true) (h' : codeLe bs cs = true) :
    codeLe as cs = true := by
  induction as generalizing bs cs with
  | nil => rfl
  | cons a as ih =>
    cases bs with
    | nil => simp [codeLe] at h
    | cons b bs =>
      cases cs with
      | nil => simp [codeLe] at h'
      | cons c cs =>
        simp only [codeLe, Bool.or_eq_true, Bool.and_eq_true, decide_eq_true_eq, beq_iff_eq] at *
        rcases h with h | ⟨rfl, h⟩
        · rcases h' with h' | ⟨rfl, _⟩ <;> omega
        · rcases h' with h' | ⟨rfl, h'⟩
          · omega
          · exact Or.inr ⟨rfl, ih h h'⟩

/-- The code points of a text. -/
def codes (s : String) : List Nat := s.toList.map (·.toNat)

end StationNaming.Unicode
