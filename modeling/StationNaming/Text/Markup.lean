/-!
# Console markup

The console reads square brackets as style tags. Text that comes from a file or from the operator
is escaped first, so that it is shown letter by letter.

**What is exact.** A tag is a bracket, one of the characters `a` to `z`, `#`, `/` and `@`, any
characters but an opening bracket, and the next closing bracket. The backslashes right before a tag
are doubled and one more is put before its bracket; brackets that open no tag stay as they are. A
text that then ends in one lone backslash gets a second, so that it cannot escape what follows it.
-/

namespace StationNaming.Text

/-- Whether a closing bracket comes before any opening one. -/
def closesTag : List Char → Bool
  | [] => false
  | c :: cs => if c == ']' then true else if c == '[' then false else closesTag cs

/-- **Whether a bracket opens a tag**, given the characters after it. -/
def opensTag : List Char → Bool
  | [] => false
  | c :: cs => (('a' ≤ c && c ≤ 'z') || c == '#' || c == '/' || c == '@') && closesTag cs

/-- The text with its tags escaped; `slashes` counts the backslashes read just before it. -/
def escapeTags (slashes : Nat) : List Char → List Char
  | [] => List.replicate slashes '\\'
  | c :: cs =>
    if c == '\\' then escapeTags (slashes + 1) cs
    else
      let before := if c == '[' && opensTag cs then 2 * slashes + 1 else slashes
      List.replicate before '\\' ++ c :: escapeTags 0 cs

/-- Whether a text ends in exactly one backslash. -/
def endsInLoneSlash (cs : List Char) : Bool :=
  match cs.reverse with
  | [] => false
  | '\\' :: rest => rest.head? != some '\\'
  | _ :: _ => false

/-- **Escaping for the console.** -/
def escapeMarkup (s : String) : String :=
  let cs := escapeTags 0 s.toList
  String.ofList (if endsInLoneSlash cs then cs ++ ['\\'] else cs)

/-! ## Reading markup -/

/-- The characters after the next closing bracket. -/
def afterTag : List Char → List Char
  | [] => []
  | c :: cs => if c == ']' then cs else afterTag cs

theorem length_afterTag_le (cs : List Char) : (afterTag cs).length ≤ cs.length := by
  induction cs with
  | nil => exact Nat.le_refl _
  | cons c cs ih =>
    unfold afterTag
    split
    · exact Nat.le_succ _
    · exact Nat.le_succ_of_le ih

/-- The text without its tags; `slashes` counts the backslashes read just before it. -/
def plainTags (slashes : Nat) (text : List Char) : List Char :=
  match text with
  | [] => List.replicate slashes '\\'
  | c :: cs =>
    if c == '\\' then plainTags (slashes + 1) cs
    else if c == '[' && opensTag cs then
      List.replicate (slashes / 2) '\\' ++
        if slashes % 2 = 1 then c :: plainTags 0 cs else plainTags 0 (afterTag cs)
    else List.replicate slashes '\\' ++ c :: plainTags 0 cs
  termination_by text.length
  decreasing_by
    all_goals have hle := length_afterTag_le cs; grind

/-- **The text that markup shows**, without its styles. -/
def plainMarkup (s : String) : String := String.ofList (plainTags 0 s.toList)

example : escapeMarkup "BAY[/]1" = "BAY\\[/]1" := by decide +kernel
example : escapeMarkup "[1]" = "[1]" := by decide +kernel
example : plainMarkup "[cyan]BAY\\[/]1[/cyan]" = "BAY[/]1" := by cbv

end StationNaming.Text
