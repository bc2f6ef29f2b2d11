import StationNaming.DelayedCall
import StationNaming.Editor
/-!
# The search box

The search box filters the list of an editor while the operator types. Typed input waits until it
settles; then it is compiled and the identities of the visible items are worked out.

**What is exact.** The query and the visible identities change together, at a successful
application only. An application fails only when no session is loaded; the input that asked for it
is gone all the same. Edits, loads and closes leave both as they are.
-/

namespace StationNaming

open Search (Query)

/-- **A search box** over an editor: the query in force, the identities it was found to show, and
the input that waits. -/
structure SearchBox where
  editor : Editor := {}
  query : Query := .matchAll
  visible : List String := []
  input : DelayedCall String := {}
  deriving DecidableEq, Repr

namespace SearchBox

/-- The outcome of a step: the identities that a successful application reports, if there was
one. -/
abbrev Outcome := Except EditError (Option (List String))

/-- The identities that a query shows, in display order. -/
def shown (e : Editor) (q : Query) : Except EditError (List String) := do
  return ((← e.views (some q)).filter (·.visible)).map (·.identity)

/-- **Applying search input at once.** -/
def apply (box : SearchBox) (raw : String) : SearchBox × Outcome :=
  let q := Query.compile raw
  match shown box.editor q with
  | .ok ids => ({ box with query := q, visible := ids }, .ok (some ids))
  | .error e => (box, .error e)

/-- Applies input that was taken from waiting. -/
def applyTaken (box : SearchBox) (taken : DelayedCall String × Option String) :
    SearchBox × Outcome :=
  match taken.2 with
  | some raw => { box with input := taken.1 }.apply raw
  | none => ({ box with input := taken.1 }, .ok none)

/-- Typed input waits until it settles. -/
def update (box : SearchBox) (raw : String) : SearchBox :=
  { box with input := box.input.call raw }

/-- **Showing every item again**, with any waiting input dropped. -/
def clear (box : SearchBox) : SearchBox × Outcome :=
  { box with input := box.input.cancel }.apply ""

/-- Applying the waiting input at once. -/
def flush (box : SearchBox) : SearchBox × Outcome := box.applyTaken box.input.take

/-- Dropping the waiting input. -/
def cancel (box : SearchBox) : SearchBox := { box with input := box.input.cancel }

/-- A timer of typed input expires. -/
def expire (box : SearchBox) (k : Nat) : SearchBox × Outcome :=
  box.applyTaken (box.input.expire k)

end SearchBox

end StationNaming
