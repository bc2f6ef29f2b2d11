/-!
# Paths

A path is a text of names with slashes between them.

**What is exact.** Empty names and the name `.` lead nowhere and are dropped; the name `..` is kept.
A path that starts with a slash is absolute, and exactly two slashes in front stay two. The plain
form of a path without names is `.`, or its slashes if it is absolute.
-/

namespace StationNaming.Files

/-- The pieces of a text between slashes. -/
def splitSlashes : List Char → List (List Char)
  | [] => [[]]
  | c :: cs =>
    if c = '/' then [] :: splitSlashes cs
    else
      match splitSlashes cs with
      | [] => [[c]]
      | p :: ps => (c :: p) :: ps

/-- Whether a piece of a path is a name that leads somewhere. -/
def isStep (piece : List Char) : Bool := !piece.isEmpty && piece != ['.']

/-- The slashes in front of a path that count. -/
def anchor (path : String) : String :=
  match path.toList with
  | '/' :: '/' :: '/' :: _ => "/"
  | '/' :: '/' :: _ => "//"
  | '/' :: _ => "/"
  | _ => ""

/-- **The names in a path.** -/
def names (path : String) : List String :=
  ((splitSlashes path.toList).filter isStep).map String.ofList

/-- **The plain form of a path.** -/
def plainPath (path : String) : String :=
  let plain := anchor path ++ "/".intercalate (names path)
  if plain = "" then "." else plain

theorem splitSlashes_of_notMem {cs : List Char} (h : '/' ∉ cs) : splitSlashes cs = [cs] := by
  induction cs with
  | nil => rfl
  | cons c cs ih =>
    rw [List.mem_cons, not_or] at h
    rw [splitSlashes, if_neg (Ne.symm h.1), ih h.2]

/-- A name without slashes and dots is plain. -/
theorem plainPath_of_plain {cs : List Char} (hne : cs ≠ []) (h : ∀ c ∈ cs, c ≠ '/' ∧ c ≠ '.') :
    plainPath (String.ofList cs) = String.ofList cs := by
  have hslash : '/' ∉ cs := fun hmem => (h _ hmem).1 rfl
  have hstep : isStep cs = true := by
    have hdot : cs ≠ ['.'] := fun heq => (h '.' (heq ▸ List.mem_singleton.mpr rfl)).2 rfl
    simp [isStep, hne, hdot]
  have hanchor : anchor (String.ofList cs) = "" := by
    rw [anchor, String.toList_ofList]
    split
    · exact absurd List.mem_cons_self hslash
    · exact absurd List.mem_cons_self hslash
    · exact absurd List.mem_cons_self hslash
    · rfl
  have hnames : names (String.ofList cs) = [String.ofList cs] := by
    rw [names, String.toList_ofList, splitSlashes_of_notMem hslash, List.filter_cons_of_pos hstep]
    rfl
  rw [plainPath, hanchor, hnames, String.intercalate_singleton, String.empty_append, if_neg]
  simpa using hne

/-- Whether the last piece of a path leads nowhere, so that it can only be a directory. -/
def endsAsDirectory (path : String) : Bool :=
  match (splitSlashes path.toList).getLast? with
  | some piece => !isStep piece
  | none => false

example : plainPath "./station.scd" = "station.scd" := by decide +kernel
example : plainPath "a//b/./c/" = "a/b/c" := by decide +kernel
example : plainPath "" = "." := by decide +kernel

end StationNaming.Files
