/-!
# Blank characters

The white space of Unicode as search terms and references see it: the characters of the
`White_Space` property together with the four information separators U+001C to U+001F.

**What is exact.** `isBlank` is a closed list of ranges, so it decides every code point; the zero
width space (U+200B) and the Mongolian vowel separator (U+180E) are not blank.
`trim` removes blank characters at both ends and nothing inside.
-/

namespace StationNaming.Unicode

/-! ## The character class -/

/-- **A blank character**: a separator that the eye sees as empty space. -/
def isBlank (c : Char) : Bool :=
  let n := c.toNat
  (9 ≤ n && n ≤ 13) || (28 ≤ n && n ≤ 32) || n == 0x85 || n == 0xA0 || n == 0x1680 ||
    (0x2000 ≤ n && n ≤ 0x200A) || n == 0x2028 || n == 0x2029 || n == 0x202F || n == 0x205F ||
    n == 0x3000

/-! ## Trimming -/

/-- The text without the blank characters in front. -/
def trimStart (cs : List Char) : List Char := cs.dropWhile isBlank

/-- The text without the blank characters at its end. -/
def trimEnd (cs : List Char) : List Char := (cs.reverse.dropWhile isBlank).reverse

/-- **Trimming**: the text without the blank characters at either end. -/
def trim (cs : List Char) : List Char := trimEnd (trimStart cs)

theorem dropWhile_of_forall_not_isBlank {cs : List Char} (h : ∀ c ∈ cs, isBlank c = false) :
    cs.dropWhile isBlank = cs := by
  cases cs with
  | nil => rfl
  | cons c cs => rw [List.dropWhile_cons, h c List.mem_cons_self, if_neg Bool.false_ne_true]

/-- A text without blank characters stays as it is. -/
theorem trim_of_forall_not_isBlank {cs : List Char} (h : ∀ c ∈ cs, isBlank c = false) :
    trim cs = cs := by
  have hreverse : ∀ c ∈ cs.reverse, isBlank c = false := fun c hc => h c (List.mem_reverse.mp hc)
  rw [trim, trimStart, dropWhile_of_forall_not_isBlank h, trimEnd,
    dropWhile_of_forall_not_isBlank hreverse, List.reverse_reverse]

/-- Trimming a string trims its characters. -/
def trimString (s : String) : String := String.ofList (trim s.toList)

@[simp] theorem trim_nil : trim [] = [] := rfl

@[simp] theorem toList_trimString (s : String) : (trimString s).toList = trim s.toList := by
  simp [trimString]

end StationNaming.Unicode
