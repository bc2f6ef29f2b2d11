import Mathlib.Data.List.Infix
import StationNaming.Proofs.Input.Journal
/-!
# The order of applied inputs

Of all input to a search box the newest should be in force. Typed input waits, and input that is
applied at once does not wait for it, so the input that waits may come in force after a later one.

**What is exact.** `increasing_applied_iff` holds of every run, with any steps of the editor between
those of the box: the numbers of the applied inputs increase exactly if no input is delivered, by a
flush or by its timer, after a later one was applied at once while it waited. Clearing never has
this effect, since it drops what waits.
-/

namespace StationNaming.SearchBox

/-! ## Overtaking -/

/-- An input that waits after a run, by its number. -/
def Waits (steps : List Step) (n : Nat) : Prop := (run steps).2.waiting.waiting = some n

/-- **A run in which waiting input is overtaken**: while it waited, a later input was applied at
once, and it still waits at the end. -/
def Overtaken (steps : List Step) : Prop :=
  ∃ n before raw, before ++ [.apply raw] <+: steps ∧ Waits before n ∧
    (run before).1.applies (.apply raw) = true ∧ Waits steps n

/-- The steps that deliver waiting input. -/
def Step.Delivers (x : Step) : Prop := x = .flush ∨ ∃ k, x = .expire k

/-! ## What waits -/

/-- **What becomes of waiting input at a step**: new input takes its place, nothing waits any more,
or it is left as it was. -/
theorem Journal.advance_cases (j : Journal) (x : Step) :
    ((j.advance x).1.waiting = some j.inputs.length ∧ (j.advance x).2 = none ∧
      ∃ raw, x = .update raw) ∨
    (j.advance x).1.waiting = none ∨
    (j.advance x).1 = j.waiting ∧ ((j.advance x).2 = none ∧ (∀ raw, x ≠ .apply raw) ∨
      (j.advance x).2 = some j.inputs.length ∧ ∃ raw, x = .apply raw) := by
  cases x with
  | update raw => exact .inl ⟨rfl, rfl, raw, rfl⟩
  | apply raw => exact .inr (.inr ⟨rfl, .inr ⟨rfl, raw, rfl⟩⟩)
  | clear | flush | cancel => exact .inr (.inl rfl)
  | expire k =>
    rw [advance]
    rcases j.waiting.expire_cases k with htake | hnothing
    · exact .inr (.inl (by rw [htake]; rfl))
    · exact .inr (.inr ⟨by rw [hnothing], .inl ⟨by rw [hnothing], nofun⟩⟩)
  | edit step => exact .inr (.inr ⟨rfl, .inl ⟨rfl, nofun⟩⟩)

/-- **The input that a step is to apply** is a new one, or one that waited and is delivered. -/
theorem Journal.advance_snd_cases {j : Journal} {x : Step} {n : Nat}
    (h : (j.advance x).2 = some n) :
    n = j.inputs.length ∧ ¬ x.Delivers ∨ j.waiting.waiting = some n ∧ x.Delivers := by
  cases x with
  | update | cancel | edit => cases h
  | apply | clear => exact .inl ⟨(Option.some.inj h).symm, fun hx => hx.elim nofun nofun⟩
  | flush => exact .inr ⟨h, .inl rfl⟩
  | expire k =>
    rw [advance] at h
    rcases j.waiting.expire_cases k with htake | hnothing
    · rw [htake] at h
      exact .inr ⟨h, .inr ⟨k, rfl⟩⟩
    · rw [hnothing] at h
      cases h

theorem waits_append {steps : List Step} {x : Step} {n : Nat} :
    Waits (steps ++ [x]) n ↔ ((run steps).2.advance x).1.waiting = some n := by
  rw [Waits, run_append]
  rfl

theorem applied_append (steps : List Step) (x : Step) : (run (steps ++ [x])).2.applied =
    ((run steps).2.note x ((run steps).1.applies x)).applied := by
  rw [run_append]
  rfl

/-- Inputs are only added. -/
theorem length_inputs_le {before steps : List Step} (h : before <+: steps) :
    (run before).2.inputs.length ≤ (run steps).2.inputs.length := by
  obtain ⟨after, rfl⟩ := h
  induction after using List.reverseRecOn with
  | nil => rw [List.append_nil]
  | append_singleton after x ih =>
    rw [← List.append_assoc, run_append]
    show _ ≤ ((run (before ++ after)).2.inputs ++ x.input?.toList).length
    rw [List.length_append]
    exact Nat.le_trans ih (Nat.le_add_right _ _)

/-- **Where waiting input is left as it was**, it is overtaken at the end of a longer run if it was
before or if the last step applies an input at once. -/
theorem overtaken_append_iff {steps : List Step} {x : Step} {n : Nat} (hwaits : Waits steps n)
    (hkept : ((run steps).2.advance x).1 = (run steps).2.waiting) :
    Overtaken (steps ++ [x]) ↔
      Overtaken steps ∨ (∃ raw, x = .apply raw) ∧ (run steps).1.applies x = true := by
  have hsame : ∀ m, Waits (steps ++ [x]) m ↔ Waits steps m := fun m => by
    rw [waits_append, hkept, Waits]
  constructor
  · rintro ⟨m, before, raw, hbegins, hbefore, happlies, hend⟩
    rcases List.prefix_concat_iff.mp hbegins with heq | hbegins
    · obtain ⟨rfl, hx⟩ := List.append_inj' heq rfl
      obtain rfl := List.singleton_injective hx
      exact .inr ⟨⟨raw, rfl⟩, happlies⟩
    · exact .inl ⟨m, before, raw, hbegins, hbefore, happlies, (hsame m).mp hend⟩
  · rintro (⟨m, before, raw, hbegins, hbefore, happlies, hend⟩ | ⟨⟨raw, rfl⟩, happlies⟩)
    · exact ⟨m, before, raw, hbegins.trans (List.prefix_append steps [x]), hbefore, happlies,
        (hsame m).mpr hend⟩
    · exact ⟨n, steps, raw, List.prefix_rfl, hwaits, happlies, (hsame n).mpr hwaits⟩

/-- Input that has just been typed is not overtaken. -/
theorem not_overtaken_update (steps : List Step) (raw : String) :
    ¬ Overtaken (steps ++ [.update raw]) := by
  rintro ⟨n, before, raw', hbegins, hbefore, -, hend⟩
  have hn : n = (run steps).2.inputs.length := (Option.some.inj (waits_append.mp hend)).symm
  rcases List.prefix_concat_iff.mp hbegins with heq | hbegins
  · have hx := List.singleton_injective (List.append_inj' heq rfl).2
    cases hx
  · have hlt := (follows_run before).waiting_lt n hbefore
    have hle := length_inputs_le ((List.prefix_append before [.apply raw']).trans hbegins)
    omega

/-- **Waiting input is the newest but for what overtook it.** -/
theorem forall_applied_lt_iff {steps : List Step} {n : Nat} (h : Waits steps n) :
    (∀ m ∈ (run steps).2.applied, m < n) ↔ ¬ Overtaken steps := by
  -- A run grows at its end, so the induction takes steps off there.
  induction steps using List.reverseRecOn with
  | nil => cases h
  | append_singleton steps x ih =>
    have happlied_lt := (follows_run steps).applied_lt
    rw [applied_append]
    have hnext := waits_append.mp h
    rcases (run steps).2.advance_cases x with ⟨hnew, hnone, raw, rfl⟩ | hnothing | ⟨hkept, hsubject⟩
    · rw [Journal.applied_note_of_none hnone]
      refine ⟨fun _ => not_overtaken_update steps raw, fun _ m hm => ?_⟩
      rw [← Option.some.inj (hnew.symm.trans hnext)]
      exact happlied_lt m hm
    · rw [hnothing] at hnext
      cases hnext
    · rw [hkept] at hnext
      rw [overtaken_append_iff hnext hkept]
      rcases hsubject with ⟨hnone, hother⟩ | ⟨hnew, hdirect⟩
      · rw [Journal.applied_note_of_none hnone, ih hnext, or_iff_left fun hx => hx.1.elim hother]
      · cases happlies : (run steps).1.applies x with
        | false =>
          rw [Journal.applied_note_of_not, ih hnext, or_iff_left fun hx => absurd hx.2 nofun]
        | true =>
          -- The input that is applied at once is newer than the one that waits.
          have hlt := (follows_run steps).waiting_lt n hnext
          rw [Journal.applied_note_of_applies hnew]
          refine ⟨fun hall => ?_, fun hnot => absurd (.inr ⟨hdirect, rfl⟩) hnot⟩
          exact absurd (hall _ (List.mem_append_right _ (List.mem_singleton_self _)))
            (Nat.not_lt.mpr hlt.le)

theorem exists_advance_of_applies {j : Journal} {box : SearchBox} (h : Follows j box) {x : Step}
    (happlies : box.applies x = true) : ∃ n, (j.advance x).2 = some n := by
  obtain ⟨-, -, hcases⟩ := box.perform_cases x
  rw [h.advance_eq x true] at hcases
  rcases hcases with ⟨raw, hraw, -⟩ | ⟨-, hnot, -⟩
  · exact (Option.map_eq_some_iff.mp hraw).imp fun _ hn => hn.1
  · exact absurd (happlies.symm.trans hnot) nofun

/-- **One more step** keeps the applied inputs in order exactly if it does not deliver input that
was overtaken. -/
theorem increasing_append_iff (steps : List Step) (x : Step) :
    (run (steps ++ [x])).2.applied.Pairwise (· < ·) ↔ (run steps).2.applied.Pairwise (· < ·) ∧
      (x.Delivers → Overtaken steps → (run steps).1.applies x = false) := by
  rw [applied_append]
  cases happlies : (run steps).1.applies x with
  | false => rw [Journal.applied_note_of_not, and_iff_left fun _ _ => rfl]
  | true =>
    obtain ⟨n, hn⟩ := exists_advance_of_applies (follows_run steps) happlies
    rw [Journal.applied_note_of_applies hn, List.pairwise_append]
    have hlast : (∀ m ∈ (run steps).2.applied, ∀ i ∈ [n], m < i) ↔
      ∀ m ∈ (run steps).2.applied, m < n := by
      simp only [List.forall_mem_singleton]
    rw [hlast, and_iff_right (List.pairwise_singleton _ n)]
    refine and_congr_right' ?_
    rcases Journal.advance_snd_cases hn with ⟨rfl, hdirect⟩ | ⟨hwaits, hdelivers⟩
    · exact ⟨fun _ hdelivers => absurd hdelivers hdirect, fun _ => (follows_run steps).applied_lt⟩
    · rw [forall_applied_lt_iff hwaits]
      exact ⟨fun hnot _ hover => absurd hover hnot, fun h hover => absurd (h hdelivers hover) nofun⟩

/-- **When no input is applied over a newer one.** In every run the query in force is that of the
input that was applied last; and the inputs are applied in the order in which they were received, if
some are left out, exactly if no waiting input is delivered after it was overtaken. -/
theorem increasing_applied_iff (steps : List Step) :
    (run steps).1.query = (run steps).2.inForce ∧
    ((run steps).2.applied.Pairwise (· < ·) ↔
      ∀ before x, before ++ [x] <+: steps → x.Delivers → Overtaken before →
        (run before).1.applies x = false) := by
  refine ⟨(follows_run steps).query_eq, ?_⟩
  -- A run grows at its end, so the induction takes steps off there.
  induction steps using List.reverseRecOn with
  | nil => exact ⟨fun _ before x h => absurd (List.prefix_nil.mp h)
    (by simp), fun _ => List.Pairwise.nil⟩
  | append_singleton steps x ih =>
    rw [increasing_append_iff, ih]
    constructor
    · rintro ⟨hbefore, hlast⟩ before y hbegins
      rcases List.prefix_concat_iff.mp hbegins with heq | hbegins
      · obtain ⟨rfl, hy⟩ := List.append_inj' heq rfl
        obtain rfl := List.singleton_injective hy
        exact hlast
      · exact hbefore before y hbegins
    · intro h
      exact ⟨fun before y hbegins => h before y (hbegins.trans (List.prefix_append steps [x])),
        h steps x List.prefix_rfl⟩

/-- A run in which input that waits is overtaken and then delivered. -/
def overtakenSteps : List Step :=
  [.edit (.load [{ name := "A" }]), .update "abb", .apply "ge", .flush]

/-- **An older input can come in force after a newer one.** -/
theorem applied_overtakenSteps :
    (run overtakenSteps).2.inputs = ["abb", "ge"] ∧ (run overtakenSteps).2.applied = [1, 0] ∧
      (run overtakenSteps).1.query = .compile "abb" := by decide +kernel

end StationNaming.SearchBox
