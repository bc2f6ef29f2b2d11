/-!
# Runs of letters with a common case step

Case tables map long stretches of letters by one rule: in Latin Extended every second letter goes to
its neighbour, in Cyrillic thirty-two capitals go thirty-two places up. A table is a list of
such runs.

**What is exact.** A code point outside every run maps to itself; the first run that holds it
decides.
-/

namespace StationNaming.Unicode

/-- **A run of code points**: every `stride`-th one from `first` to `last`, mapped by one shift that
takes `first` to `target`. -/
structure CaseRun where
  first : Nat
  last : Nat
  stride : Nat
  target : Nat

/-- Where the run sends a code point, if it holds it. -/
def CaseRun.image? (r : CaseRun) (n : Nat) : Option Nat :=
  if r.first ≤ n && n ≤ r.last && (n - r.first) % r.stride == 0 then
    some (r.target + (n - r.first))
  else none

/-- **The map of a table**: a code point in no run is its own image. -/
def mapByRuns (runs : List CaseRun) (n : Nat) : Nat :=
  (runs.findSome? (·.image? n)).getD n

@[simp] theorem mapByRuns_nil (n : Nat) : mapByRuns [] n = n := rfl

end StationNaming.Unicode
