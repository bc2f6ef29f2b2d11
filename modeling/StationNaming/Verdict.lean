import StationNaming.Text.Quoted
/-!
# Naming rules

An IED name is judged by four rules in a fixed order, and the first one that fails is the verdict:
it must not be empty, it must be an ASCII letter followed by ASCII letters, digits and underscores,
it must have at most 63 characters, and nothing else in the session may hold it.

**What is exact.** `judge` takes the number of holders of the value as it is given: every count but
one is a collision. The pattern is decided before the length, so a long name with a bad character
is a pattern mismatch.
-/

namespace StationNaming

/-! ## Verdicts -/

/-- **The outcome of judging a name.** -/
inductive Verdict where
  | valid
  | empty
  | patternMismatch
  | lengthOutOfRange
  | duplicate
  deriving DecidableEq, Repr

/-- The code a verdict is stored and shown under. -/
def Verdict.code : Verdict → String
  | .valid => "VALID"
  | .empty => "EMPTY"
  | .patternMismatch => "PATTERN_MISMATCH"
  | .lengthOutOfRange => "LENGTH_OUT_OF_RANGE"
  | .duplicate => "DUPLICATE"

/-- All verdicts, in the order in which their rules are tried. -/
def Verdict.all : List Verdict :=
  [.valid, .empty, .patternMismatch, .lengthOutOfRange, .duplicate]

/-- The verdict with a given code. -/
def Verdict.ofCode? (s : String) : Option Verdict := Verdict.all.find? (·.code == s)

theorem Verdict.ofCode?_code (v : Verdict) : Verdict.ofCode? v.code = some v := by
  cases v <;> decide

/-- The wording for a code that no verdict has. -/
def Verdict.unknownCode (s : String) : String :=
  Text.quoted s ++ " is not a valid ValidationReason"

/-- **What the operator is told.** -/
def Verdict.message : Verdict → String
  | .valid => ""
  | .empty => "You must fill in this field."
  | .patternMismatch => "Please use A-Z, 0-9 and _ and start with a letter."
  | .lengthOutOfRange => "IED name must be between 1 and 63 characters."
  | .duplicate => "IED name must be unique."

/-- Whether a verdict lets the name stand. -/
def Verdict.isValid (v : Verdict) : Bool := v == .valid

@[simp] theorem Verdict.isValid_iff {v : Verdict} : v.isValid = true ↔ v = .valid := by
  simp [Verdict.isValid]

/-! ## The rules -/

/-- A character that may start a name. -/
def isNameStart (c : Char) : Bool := ('A' ≤ c && c ≤ 'Z') || ('a' ≤ c && c ≤ 'z')

/-- A character that may follow in a name. -/
def isNameChar (c : Char) : Bool := isNameStart c || ('0' ≤ c && c ≤ '9') || c == '_'

/-- **The pattern of a name**: a letter, then letters, digits and underscores. -/
def matchesPattern : List Char → Bool
  | [] => false
  | c :: cs => isNameStart c && cs.all isNameChar

/-- The greatest length of a name. -/
def maxNameLength : Nat := 63

/-- **Judging a proposed name** that `holders` items of the session hold, the judged one
included. -/
def judge (value : String) (holders : Int) : Verdict :=
  if value = "" then .empty
  else if !matchesPattern value.toList then .patternMismatch
  else if value.length > maxNameLength then .lengthOutOfRange
  else if holders ≠ 1 then .duplicate
  else .valid

end StationNaming
