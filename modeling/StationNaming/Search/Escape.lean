/-!
# Literal characters in search input

A search term becomes a fragment of a matching pattern, in which some characters have a meaning of
their own. Those that the operator types are protected by a backslash before anything else
happens, so that only the wildcards `*` and `?` keep a meaning.

**What is exact.** `escape` puts a backslash before every protected character and changes nothing
else; it adds no blank character and no quote.
-/

namespace StationNaming.Search

/-- **The protected characters.** The wildcards are not among them. -/
def isProtected (c : Char) : Bool :=
  ['.', '+', '^', '$', '\x7b', '\x7d', '(', ')', '|', '[', ']', '\\'].contains c

/-- What can be checked of the protected characters one by one holds of every protected
character. -/
theorem of_isProtected {p : Char → Bool}
    (hall : ['.', '+', '^', '$', '\x7b', '\x7d', '(', ')', '|', '[', ']', '\\'].all p = true)
    {c : Char} (h : isProtected c = true) : p c = true :=
  List.all_eq_true.mp hall c (List.contains_iff_mem.mp h)

/-- A character as it stands in escaped text. -/
def escapeChar (c : Char) : List Char := if isProtected c then ['\\', c] else [c]

/-- **Escaped text.** -/
def escape (cs : List Char) : List Char := cs.flatMap escapeChar

@[simp] theorem escape_nil : escape [] = [] := rfl

@[simp] theorem escape_cons (c : Char) (cs : List Char) :
    escape (c :: cs) = escapeChar c ++ escape cs := rfl

@[simp] theorem escape_append (cs ds : List Char) : escape (cs ++ ds) = escape cs ++ escape ds := by
  simp [escape]

end StationNaming.Search
