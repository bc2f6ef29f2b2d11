import StationNaming.Search.Escape
import StationNaming.Search.Fragment
import StationNaming.Search.Token
/-!
# Search queries

A query asks for a list of terms, all of which must occur in a text, in any order and up to case.

**What is exact.** `compile` never fails. Empty input gives the query that accepts everything; so
does input without a token, but that query keeps its input. The input is escaped first, then
trimmed, then cut into tokens, and each token becomes a fragment with its quotes dropped.
-/

namespace StationNaming.Search

/-- **A compiled query**: the input it came from and the fragments that must occur. -/
structure Query where
  raw : String
  terms : List String
  deriving DecidableEq, Repr

namespace Query

/-- The query of empty input. -/
def matchAll : Query := ⟨"", []⟩

/-- The fragments for a text. -/
def termsOf (raw : List Char) : List (List Char) :=
  (tokens (Unicode.trim (escape raw))).map fun token => unquote (expand token)

/-- **Compiling search input.** -/
def compile (raw : String) : Query :=
  if raw = "" then matchAll else ⟨raw, (termsOf raw.toList).map String.ofList⟩

/-- Whether the query asks for nothing. -/
def matchesAll (q : Query) : Bool := q.terms.isEmpty

/-- Whether this is the query of empty input. -/
def isMatchAll (q : Query) : Bool := q == matchAll

/-- **Whether a text has every term of the query.** -/
def test (q : Query) (candidate : String) : Bool :=
  q.terms.all fun term => occursIn term.toList candidate.toList

@[simp] theorem compile_empty : compile "" = matchAll := rfl

@[simp] theorem test_matchAll (candidate : String) : matchAll.test candidate = true := rfl

end Query

end StationNaming.Search
