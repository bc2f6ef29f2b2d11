import StationNaming.Xml.Reader
/-!
# How a file is taken in

A file is handed to the reader in portions, and what is read of it is announced as it comes. The end
of the file is known only after the last portion. What a faulty file has announced by then has been
seen; what would come of it only now, with the fault, has not.

**What is exact.** An eager reader looks at every portion at once. A patient one keeps a token that
is torn at the end of a portion until twice as much of it is there, or until its store is nearly
full. A file that is read without a fault announces all its events either way.
-/

namespace StationNaming.Xml

/-- **How the reader deals with a token that is torn at the end of a portion.** -/
inductive Intake where
  | eager
  | patient
  deriving DecidableEq, Repr

namespace Intake

/-! ## Portions -/

/-- How many bytes are handed over at a time. -/
def portionSize : Nat := 16384

/-- The sizes of the portions of a file. -/
def portions (size : Nat) : List Nat :=
  List.replicate (size / portionSize) portionSize ++
    if size % portionSize = 0 then [] else [size % portionSize]

/-! ## The store of a patient reader -/

/-- How many bytes before a token stay in the store. -/
def contextSize : Nat := 1024

/-- **How far a file has been taken in**: how many bytes were handed over, and up to where they were
looked at; the size of the store, the bytes in it that were read already, those that wait, and how
many waited when nothing could be read of them, if that was so the last time. -/
structure Progress where
  given : Nat := 0
  looked : Nat := 0
  size : Nat := 0
  kept : Nat := 0
  waiting : Nat := 0
  stuck : Nat := 0
  deriving DecidableEq, Repr

namespace Progress

/-- The size of a store that is doubled, at least once, until something fits. -/
def enlarged (size needed : Nat) : Nat :=
  let base := if size = 0 then contextSize else size
  base <<< (Nat.log2 ((needed + base - 1) / base - 1) + 1)

/-- The store with room for more bytes. -/
def makeRoom (p : Progress) (count : Nat) : Progress :=
  if p.kept + p.waiting + count ≤ p.size then p
  else
    let kept := min p.kept contextSize
    let needed := kept + p.waiting + count
    { p with kept := kept, size := if needed ≤ p.size then p.size else enlarged p.size needed }

/-- Whether what waits is enough to be looked at, after `count` more bytes: it is twice what was
stuck, or the next `count` bytes would not fit. -/
def isEnough (p : Progress) (count : Nat) : Bool :=
  2 * p.stuck ≤ p.waiting ||
    p.size - (p.kept + p.waiting) + (p.kept - contextSize) < count

/-- Looking at all that was handed over of a file. -/
def look (bytes : List UInt8) (p : Progress) : Progress :=
  let read := (Xml.read (bytes.take p.given)).taken - (p.given - p.waiting)
  { p with looked := p.given, kept := p.kept + read, waiting := p.waiting - read,
           stuck := if read = 0 then p.waiting else 0 }

/-- **Taking in one more portion** of a file. -/
def takeIn (bytes : List UInt8) (p : Progress) (count : Nat) : Progress :=
  let p := p.makeRoom count
  let p := { p with given := p.given + count, waiting := p.waiting + count }
  if p.isEnough count then p.look bytes else p

end Progress

/-! ## What is announced -/

/-- **How much of a file is looked at** before its end is known. -/
def reach (intake : Intake) (bytes : List UInt8) : Nat :=
  match intake with
  | .eager => bytes.length
  | .patient => ((portions bytes.length).foldl (Progress.takeIn bytes) {}).looked

/-- **The events of a file that are announced**: all of them if the file has no fault, and otherwise
those that come of what is looked at before the end of the file is known. -/
def announced (intake : Intake) (bytes : List UInt8) : List Event :=
  let reading := read bytes
  if reading.failure.isNone then reading.events
  else reading.events.take (read (bytes.take (intake.reach bytes))).events.length

variable {intake : Intake} {bytes : List UInt8}

/-- A file without a fault announces everything. -/
theorem announced_of_failure_eq_none (h : (read bytes).failure = none) :
    intake.announced bytes = (read bytes).events := by
  simp [announced, h]

/-- **What is announced is a beginning** of what is read. -/
theorem announced_prefix (intake : Intake) (bytes : List UInt8) :
    intake.announced bytes <+: (read bytes).events := by
  rw [announced]
  split
  · exact List.prefix_rfl
  · exact List.take_prefix _ _

theorem announced_of_reach_eq (h : intake.reach bytes = bytes.length) :
    intake.announced bytes = (read bytes).events := by
  simp [announced, h]

/-- The first portion is looked at as soon as it is there. -/
theorem Progress.looked_takeIn_initial (bytes : List UInt8) (count : Nat) :
    (Progress.takeIn bytes {} count).looked = count := by
  have hroom : ({} : Progress).makeRoom count =
      { size := (({} : Progress).makeRoom count).size } := by
    rw [Progress.makeRoom]
    split <;> rfl
  rw [Progress.takeIn, hroom]
  simp [Progress.isEnough, Progress.look]

theorem portions_of_le {size : Nat} (h : size ≤ portionSize) (hne : size ≠ 0) :
    portions size = [size] := by
  cases Nat.lt_or_eq_of_le h with
  | inl hlt => simp [portions, Nat.div_eq_of_lt hlt, Nat.mod_eq_of_lt hlt, hne]
  | inr heq =>
    rw [heq]
    rfl

/-- **A file of one portion announces everything** before its fault. -/
theorem announced_of_length_le (h : bytes.length ≤ portionSize) :
    intake.announced bytes = (read bytes).events := by
  refine announced_of_reach_eq ?_
  cases intake with
  | eager => rfl
  | patient =>
    by_cases hne : bytes.length = 0
    · rw [reach, hne]
      rfl
    · rw [reach, portions_of_le h hne]
      exact Progress.looked_takeIn_initial bytes bytes.length

end Intake

end StationNaming.Xml
