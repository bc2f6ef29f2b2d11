/-!
# Delayed calls

Input that arrives in quick succession is acted on once, after it has settled: every call replaces
the one that is waiting and starts a new timer, and only the timer of the latest call may deliver.

**What is exact.** Timers are numbered from 0 in the order in which calls are made. A timer that
has been superseded or cancelled does nothing when it expires, however late or often. A delivery
takes the waiting call away before its receiver runs, so a receiver that fails is not run
again, and a call it makes itself waits like any other.
-/

namespace StationNaming

/-- **A call that waits**: the number of timers started so far, the timer that may deliver, and the
argument that is waiting. -/
structure DelayedCall (α : Type) where
  started : Nat := 0
  timer : Option Nat := none
  waiting : Option α := none
  deriving DecidableEq, Repr

namespace DelayedCall

variable {α : Type}

/-- Whether a call is waiting. -/
def isPending (d : DelayedCall α) : Bool := d.waiting.isSome

/-- **A new call** takes the place of the waiting one and starts a timer. -/
def call (d : DelayedCall α) (a : α) : DelayedCall α := ⟨d.started + 1, some d.started, some a⟩

/-- The state with nothing waiting, and what was waiting. -/
def take (d : DelayedCall α) : DelayedCall α × Option α := (⟨d.started, none, none⟩, d.waiting)

/-- Dropping the waiting call. -/
def cancel (d : DelayedCall α) : DelayedCall α := d.take.1

/-- **A timer expires**: the waiting call is taken only if the timer is the latest one. -/
def expire (d : DelayedCall α) (k : Nat) : DelayedCall α × Option α :=
  if d.timer = some k then d.take else (d, none)

@[simp] theorem isPending_call (d : DelayedCall α) (a : α) : (d.call a).isPending = true := rfl

@[simp] theorem isPending_cancel (d : DelayedCall α) : d.cancel.isPending = false := rfl

theorem expire_of_ne {d : DelayedCall α} {k : Nat} (h : d.timer ≠ some k) :
    d.expire k = (d, none) := if_neg h

/-! ## Receivers -/

/-- **What a receiver does with an argument**: it may make one call of its own, and then fail. -/
structure Reaction (α ε : Type) where
  again : Option α := none
  failure : Option ε := none

/-- The steps by which delayed calls are driven. -/
inductive Step (α : Type) where
  | call (a : α)
  | flush
  | cancel
  | expire (timer : Nat)

/-- What one step shows: the delivered argument and the receiver's failure. -/
structure Delivery (α ε : Type) where
  delivered : Option α := none
  failure : Option ε := none

/-- Hands a taken argument to the receiver. -/
def deliver {ε : Type} (receiver : α → Reaction α ε) (d : DelayedCall α) :
    Option α → DelayedCall α × Delivery α ε
  | none => (d, {})
  | some a =>
    let reaction := receiver a
    (match reaction.again with
      | some b => d.call b
      | none => d,
     ⟨some a, reaction.failure⟩)

/-- **One step** of delayed calls with a receiver. -/
def step {ε : Type} (receiver : α → Reaction α ε) (d : DelayedCall α) :
    Step α → DelayedCall α × Delivery α ε
  | .call a => (d.call a, {})
  | .cancel => (d.cancel, {})
  | .flush => deliver receiver d.take.1 d.take.2
  | .expire k => deliver receiver (d.expire k).1 (d.expire k).2

end DelayedCall

end StationNaming
