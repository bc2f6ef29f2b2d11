import StationNaming.Unicode.CodeOrder
/-!
# Similar words

Which of some known words an unknown word was probably meant to be.

**What is exact.** Two words share their longest common run, and then what is shared on both sides
of it; of equally long runs the one that is earliest in the known word counts, and there the one
that is earliest in the other. They are similar if what they share is at least three fifths of their
mean length. At most three words are suggested, the most similar ones.
-/

namespace StationNaming.Text

/-- The length of the common beginning of two words. -/
def commonStart : List Char → List Char → Nat
  | a :: as, b :: bs => if a = b then commonStart as bs + 1 else 0
  | _, _ => 0

/-- A common run: where it begins in each word, and its length. -/
structure CommonRun where
  left : Nat
  right : Nat
  size : Nat

/-- **The longest common run** of two words, the earliest one of that length. -/
def longestRun (as bs : List Char) : CommonRun :=
  let runs := (List.range as.length).flatMap fun i => (List.range bs.length).map fun j =>
    CommonRun.mk i j (commonStart (as.drop i) (bs.drop j))
  runs.foldl (fun best run => if run.size > best.size then run else best) ⟨0, 0, 0⟩

/-- How many characters two words share; `fuel` bounds the number of runs on any way down. -/
def sharedWithin (fuel : Nat) (as bs : List Char) : Nat :=
  match fuel with
  | 0 => 0
  | fuel + 1 =>
    let run := longestRun as bs
    if run.size = 0 then 0
    else
      sharedWithin fuel (as.take run.left) (bs.take run.right) + run.size +
        sharedWithin fuel (as.drop (run.left + run.size)) (bs.drop (run.right + run.size))

/-- **How many characters two words share.** -/
def shared (known word : String) : Nat :=
  sharedWithin (known.length + 1) known.toList word.toList

/-- Whether two words are similar. -/
def isSimilar (known word : String) : Bool :=
  3 * (known.length + word.length) ≤ 10 * shared known word

/-- Whether the first of two known words is at least as similar to a word as the second. -/
def isCloser (word a b : String) : Bool :=
  let left := shared a word * (b.length + word.length)
  let right := shared b word * (a.length + word.length)
  left > right || (left == right && Unicode.codeLe (Unicode.codes b) (Unicode.codes a))

/-- **The suggestions for a word**, in alphabetical order. -/
def suggestions (known : List String) (word : String) : List String :=
  let best := ((known.filter (isSimilar · word)).mergeSort (isCloser word)).take 3
  best.mergeSort fun a b => Unicode.codeLe (Unicode.codes a) (Unicode.codes b)

example : suggestions ["--search", "--help"] "--serch" = ["--search"] := by decide +kernel
example : suggestions ["--search", "--help"] "--nope" = [] := by decide +kernel

end StationNaming.Text
