import Mathlib.Data.List.Induction
import StationNaming.DelayedCall
/-!
# Delivery of delayed calls

Calls, flushes, cancellations and expiring timers come in any order, and the receiver of a call may
make another one and fail. Beside such a run stands a log of what was seen: the calls with their
numbers, the deliveries, and how far cancellations reach.

**What is exact.** `delivery_of_run` holds after every run, for arguments of every type, so also for
those that hold the number of their call. The receiver may be another one at every step, so it may
remember what it was handed before. A call is open while it is the newest one and is neither
delivered nor cancelled; the log says so without knowing of timers.
-/

namespace StationNaming.DelayedCall

variable {α ε : Type}

/-! ## The log of a run -/

/-- **What was seen of delayed calls.** Calls have numbers from 0, in the order in which they are
made. -/
structure Log (α : Type) where
  /-- The arguments of all calls. -/
  calls : List α := []
  /-- The numbers of the calls that were delivered, in the order of their delivery. -/
  delivered : List Nat := []
  /-- How many calls had been made when a cancellation was last asked for: it is for all of them. -/
  cancelled : Nat := 0
  deriving DecidableEq, Repr

/-- A step as it is asked for, with the receiver that is there at that time. -/
structure Request (α ε : Type) where
  step : Step α
  receiver : α → Reaction α ε

/-- The steps that ask for the delivery of a call: a flush asks for any, a timer for its own. -/
def Step.AsksFor (x : Step α) (k : Nat) : Prop := x = .flush ∨ x = .expire k

namespace Log

/-- **A call that is open**: the newest one, as long as it is neither delivered nor cancelled. -/
structure IsOpen (l : Log α) (k : Nat) : Prop where
  newest : l.calls.length = k + 1
  undelivered : k ∉ l.delivered
  uncancelled : l.cancelled ≤ k

/-- One more call. -/
def call (l : Log α) (a : α) : Log α := { l with calls := l.calls ++ [a] }

/-- All calls up to now are cancelled. -/
def cancel (l : Log α) : Log α := { l with cancelled := l.calls.length }

/-- The newest call is delivered, and its receiver may make another one. -/
def deliver (l : Log α) (again : Option α) : Log α :=
  { l with calls := l.calls ++ again.toList, delivered := l.delivered ++ [l.calls.length - 1] }

/-- **Noting what was seen**: the request, and the argument that the receiver was handed, if it
was. -/
def note (l : Log α) (r : Request α ε) (handed : Option α) : Log α :=
  match r.step with
  | .call a => l.call a
  | .cancel => l.cancel
  | .flush | .expire _ =>
    match handed with
    | some a => l.deliver (r.receiver a).again
    | none => l

end Log

/-- The state and the log after one more request. -/
def proceed (c : DelayedCall α × Log α) (r : Request α ε) : DelayedCall α × Log α :=
  ((step r.receiver c.1 r.step).1, c.2.note r (step r.receiver c.1 r.step).2.delivered)

/-- **A run**: the state it leaves, and its log. -/
def run (rs : List (Request α ε)) : DelayedCall α × Log α := rs.foldl proceed ({}, {})

theorem run_append (rs : List (Request α ε)) (r : Request α ε) :
    run (rs ++ [r]) = proceed (run rs) r :=
  List.foldl_append

/-! ## The state follows the log -/

/-- **A state that a log accounts for.** -/
structure Tracks (l : Log α) (d : DelayedCall α) : Prop where
  started_eq : d.started = l.calls.length
  /-- The timer that may deliver is that of the open call. -/
  timer_iff : ∀ k, d.timer = some k ↔ l.IsOpen k
  /-- What waits is the argument of that call. -/
  waiting_eq : d.waiting = d.timer.bind (l.calls[·]?)
  increasing : l.delivered.Pairwise (· < ·)
  below : ∀ k ∈ l.delivered, k < l.calls.length
  cancelled_le : l.cancelled ≤ l.calls.length

namespace Tracks

variable {l : Log α} {d : DelayedCall α}

theorem start : Tracks ({} : Log α) {} where
  started_eq := rfl
  timer_iff k := ⟨nofun, fun h => absurd h.newest (Nat.zero_ne_add_one k)⟩
  waiting_eq := rfl
  increasing := List.Pairwise.nil
  below := List.forall_mem_nil _
  cancelled_le := Nat.le_refl 0

/-- The newest call of a log is open after it was made. -/
theorem isOpen_call_iff (h : Tracks l d) (a : α) (k : Nat) : (l.call a).IsOpen k ↔
    k = l.calls.length := by
  have hlength : (l.call a).calls.length = l.calls.length + 1 := List.length_append
  constructor
  · intro hopen
    have := hopen.newest
    omega
  · rintro rfl
    exact ⟨hlength, fun hmem => Nat.lt_irrefl _ (h.below _ hmem), h.cancelled_le⟩

theorem call (h : Tracks l d) (a : α) : Tracks (l.call a) (d.call a) where
  started_eq := by
    show d.started + 1 = (l.calls ++ [a]).length
    rw [h.started_eq, List.length_append, List.length_singleton]
  timer_iff k := by
    rw [h.isOpen_call_iff]
    show some d.started = some k ↔ _
    rw [h.started_eq, Option.some.injEq, eq_comm]
  waiting_eq := by
    show some a = (l.calls ++ [a])[d.started]?
    rw [h.started_eq, List.getElem?_concat_length]
  increasing := h.increasing
  below k hk := Nat.lt_of_lt_of_le (h.below k hk) (List.length_append ▸ Nat.le_add_right _ _)
  cancelled_le := Nat.le_trans h.cancelled_le (List.length_append ▸ Nat.le_add_right _ _)

/-- Where no call is open, nothing waits. -/
theorem settled {l' : Log α} (h : Tracks l d) (hcalls : l'.calls = l.calls)
    (hnone : ∀ k, ¬ l'.IsOpen k)
    (increasing : l'.delivered.Pairwise (· < ·)) (below : ∀ k ∈ l'.delivered, k < l'.calls.length)
    (cancelled_le : l'.cancelled ≤ l'.calls.length) : Tracks l' d.take.1 where
  started_eq := by rw [hcalls]; exact h.started_eq
  timer_iff k := ⟨nofun, fun hopen => absurd hopen (hnone k)⟩
  waiting_eq := rfl
  increasing := increasing
  below := below
  cancelled_le := cancelled_le

theorem cancel (h : Tracks l d) : Tracks l.cancel d.cancel := by
  refine h.settled rfl (fun k hopen => ?_) h.increasing h.below (Nat.le_refl _)
  have hlength : l.calls.length = k + 1 := hopen.newest
  have hle : l.calls.length ≤ k := hopen.uncancelled
  omega

/-- A delivery of the open call settles it. -/
theorem deliver (h : Tracks l d) {k : Nat} (hopen : l.IsOpen k) :
    Tracks (l.deliver none) d.take.1 := by
  have hnewest : l.calls.length - 1 = k := by rw [hopen.newest, Nat.add_sub_cancel]
  have hdelivered : (l.deliver none).delivered = l.delivered ++ [k] := by rw [← hnewest]; rfl
  have hcalls : (l.deliver none).calls = l.calls := List.append_nil _
  refine h.settled hcalls (fun j hj => ?_) ?_ ?_ (by rw [hcalls]; exact h.cancelled_le)
  · have hlength := hj.newest
    rw [hcalls, hopen.newest] at hlength
    refine hj.undelivered ?_
    rw [hdelivered, ← Nat.succ.inj hlength]
    exact List.mem_append_right _ (List.mem_singleton_self k)
  · -- What was delivered before is older: it was not open any more.
    rw [hdelivered, List.pairwise_append]
    refine ⟨h.increasing, List.pairwise_singleton _ _, fun j hj i hi => ?_⟩
    obtain rfl := List.mem_singleton.mp hi
    have hlt := h.below j hj
    have hne : j ≠ i := fun heq => hopen.undelivered (heq ▸ hj)
    have := hopen.newest
    omega
  · rw [hdelivered, hcalls]
    intro j hj
    rcases List.mem_append.mp hj with hj | hj
    · exact h.below j hj
    · rw [List.mem_singleton.mp hj, hopen.newest]
      exact Nat.lt_succ_self k

/-- A receiver that makes another call leaves it open. -/
theorem deliver_again (h : Tracks l d) {k : Nat} (hopen : l.IsOpen k) (b : α) :
    Tracks (l.deliver (some b)) (d.take.1.call b) := by
  have hlog : l.deliver (some b) = (l.deliver none).call b := by simp [Log.deliver, Log.call]
  rw [hlog]
  exact (h.deliver hopen).call b

/-! ## One step -/

/-- Where a call is open, its argument waits under its timer. -/
theorem exists_waiting (h : Tracks l d) {k : Nat} (hopen : l.IsOpen k) :
    ∃ a, l.calls[k]? = some a ∧ d.timer = some k ∧ d.waiting = some a := by
  have hlt : k < l.calls.length := by rw [hopen.newest]; exact Nat.lt_succ_self k
  have htimer := (h.timer_iff k).mpr hopen
  refine ⟨l.calls[k], List.getElem?_eq_getElem hlt, htimer, ?_⟩
  rw [h.waiting_eq, htimer, Option.bind_some, List.getElem?_eq_getElem hlt]

/-- Where no call is open, there is no timer. -/
theorem idle (h : Tracks l d) (hnone : ∀ k, ¬ l.IsOpen k) : d.timer = none ∧ d.waiting = none := by
  have htimer : d.timer = none := Option.eq_none_iff_forall_ne_some.mpr fun k hk =>
    hnone k ((h.timer_iff k).mp hk)
  exact ⟨htimer, by rw [h.waiting_eq, htimer, Option.bind_none]⟩

/-- **A call that is open and asked for** is handed to the receiver. -/
theorem step_of_isOpen (h : Tracks l d) {x : Step α} {k : Nat} (hasks : x.AsksFor k)
    (hopen : l.IsOpen k) :
    ∃ a, l.calls[k]? = some a ∧
      ∀ receiver : α → Reaction α ε, step receiver d x = DelayedCall.deliver receiver d.take.1
        (some a) := by
  obtain ⟨a, hcall, htimer, hwaiting⟩ := h.exists_waiting hopen
  refine ⟨a, hcall, fun receiver => ?_⟩
  rcases hasks with rfl | rfl
  · rw [step, take, hwaiting]
  · rw [step, expire, if_pos htimer, take, hwaiting]

/-- **A flush or a timer that asks for no open call** changes nothing. -/
theorem step_of_not_isOpen (h : Tracks l d) {x : Step α} (hdelivers : ∃ k, x.AsksFor k)
    (hnone : ∀ k, x.AsksFor k → ¬ l.IsOpen k) (receiver : α → Reaction α ε) :
    step receiver d x = (d, {}) := by
  obtain ⟨k, rfl | rfl⟩ := hdelivers
  · obtain ⟨htimer, hwaiting⟩ := h.idle fun j => hnone j (.inl rfl)
    have htake : d.take.1 = d := by rw [take, ← htimer, ← hwaiting]
    rw [step, htake, take, hwaiting]
    rfl
  · have hne : d.timer ≠ some k := fun htimer => hnone k (.inr rfl) ((h.timer_iff k).mp htimer)
    rw [step, expire_of_ne hne]
    rfl

/-- The log after a delivery accounts for the state after it, whether or not the receiver fails. -/
theorem handed (h : Tracks l d) {k : Nat} (hopen : l.IsOpen k)
    (receiver : α → Reaction α ε) (a : α) :
    Tracks (l.deliver (receiver a).again) (DelayedCall.deliver receiver d.take.1 (some a)).1 := by
  rw [DelayedCall.deliver]
  cases (receiver a).again with
  | none => exact h.deliver hopen
  | some b => exact h.deliver_again hopen b

/-- **What a request does**: it hands the open call that it asks for to the receiver, and otherwise
a call is made, all are cancelled, or nothing changes. -/
theorem step_cases (h : Tracks l d) (r : Request α ε) :
    (∃ k a, r.step.AsksFor k ∧ l.IsOpen k ∧ l.calls[k]? = some a ∧
      step r.receiver d r.step = DelayedCall.deliver r.receiver d.take.1 (some a) ∧
      l.note r (some a) = l.deliver (r.receiver a).again) ∨
    ((∀ k, r.step.AsksFor k → ¬ l.IsOpen k) ∧ (step r.receiver d r.step).2 = {} ∧
      Tracks (l.note r none) (step r.receiver d r.step).1) := by
  obtain ⟨x, receiver⟩ := r
  cases x with
  | call a => exact .inr ⟨fun k hasks => hasks.elim nofun nofun, rfl, h.call a⟩
  | cancel => exact .inr ⟨fun k hasks => hasks.elim nofun nofun, rfl, h.cancel⟩
  | flush =>
    by_cases hdue : ∃ k, l.IsOpen k
    · obtain ⟨k, hopen⟩ := hdue
      obtain ⟨a, hcall, hstep⟩ := h.step_of_isOpen (.inl rfl) hopen
      exact .inl ⟨k, a, .inl rfl, hopen, hcall, hstep receiver, rfl⟩
    · have hnone : ∀ k, Step.AsksFor (.flush : Step α) k → ¬ l.IsOpen k :=
        fun k _ hopen => hdue ⟨k, hopen⟩
      refine .inr ⟨hnone, ?_⟩
      rw [h.step_of_not_isOpen ⟨0, .inl rfl⟩ hnone]
      exact ⟨rfl, h⟩
  | expire k =>
    by_cases hopen : l.IsOpen k
    · obtain ⟨a, hcall, hstep⟩ := h.step_of_isOpen (.inr rfl) hopen
      exact .inl ⟨k, a, .inr rfl, hopen, hcall, hstep receiver, rfl⟩
    · have hnone : ∀ j, Step.AsksFor (.expire k : Step α) j → ¬ l.IsOpen j := by
        rintro j (hflush | hexpire)
        · cases hflush
        · cases hexpire
          exact hopen
      refine .inr ⟨hnone, ?_⟩
      rw [h.step_of_not_isOpen ⟨k, .inr rfl⟩ hnone]
      exact ⟨rfl, h⟩

/-- **One request** keeps the log and the state together. -/
theorem proceed {c : DelayedCall α × Log α} (h : Tracks c.2 c.1) (r : Request α ε) :
    Tracks (DelayedCall.proceed c r).2 (DelayedCall.proceed c r).1 := by
  obtain ⟨d, l⟩ := c
  rw [DelayedCall.proceed]
  rcases h.step_cases r with ⟨k, a, -, hopen, -, hstep, hnote⟩ | ⟨-, hshown, hnext⟩
  · have hhanded : (step r.receiver d r.step).2.delivered = some a := by rw [hstep]; rfl
    rw [hhanded, hnote, hstep]
    exact h.handed hopen r.receiver a
  · rw [hshown]
    exact hnext

end Tracks

/-- **The log of every run accounts for the state.** -/
theorem tracks_run (rs : List (Request α ε)) : Tracks (run rs).2 (run rs).1 := by
  -- A run grows at its end, so the induction takes requests off there.
  induction rs using List.reverseRecOn with
  | nil => exact Tracks.start
  | append_singleton rs r ih =>
    rw [run_append]
    exact ih.proceed r

/-! ## What a request is answered with -/

/-- **How a request is served** where calls are as a log tells. -/
structure Served (l : Log α) (d : DelayedCall α) (r : Request α ε) : Prop where
  /-- The receiver is handed the arguments of the open call, if the step asks for it, and nothing
  else. -/
  delivered_iff : ∀ a, (step r.receiver d r.step).2.delivered = some a ↔
    ∃ k, r.step.AsksFor k ∧ l.IsOpen k ∧ l.calls[k]? = some a
  /-- It fails as the receiver does. -/
  failure_eq : (step r.receiver d r.step).2.failure =
    (step r.receiver d r.step).2.delivered.bind fun a => (r.receiver a).failure
  /-- A failure leaves nothing behind: only the call counts that the receiver made before. -/
  state_eq : ∀ receiver : α → Reaction α ε, (∀ a, (receiver a).again = (r.receiver a).again) →
    (step receiver d r.step).1 = (step r.receiver d r.step).1
  /-- After a delivery no call is open but the one that the receiver made. -/
  open_iff : ∀ a, (step r.receiver d r.step).2.delivered = some a → ∀ k,
    (l.note r (some a)).IsOpen k ↔ k = l.calls.length ∧ ∃ b, (r.receiver a).again = some b ∧
      (l.note r (some a)).calls[k]? = some b
  /-- A flush or a timer that delivers nothing changes nothing. -/
  idle : (∃ k, r.step.AsksFor k) → (step r.receiver d r.step).2.delivered = none →
    (step r.receiver d r.step).1 = d

theorem Tracks.isOpen_deliver_iff {l : Log α} {d : DelayedCall α} (h : Tracks l d) {j : Nat}
    (hopen : l.IsOpen j) (again : Option α) (k : Nat) : (l.deliver again).IsOpen k ↔
      k = l.calls.length ∧ ∃ b, again = some b ∧ (l.deliver again).calls[k]? = some b := by
  cases again with
  | none =>
    have htracks := h.deliver hopen
    exact ⟨fun hk => absurd ((htracks.timer_iff k).mpr hk) nofun, fun ⟨_, _, hb, _⟩ =>
      absurd hb nofun⟩
  | some b =>
    have htracks := h.deliver_again hopen b
    rw [← htracks.timer_iff k]
    show some d.started = some k ↔ _
    rw [h.started_eq, Option.some.injEq, eq_comm]
    refine ⟨fun hk => ⟨hk, b, rfl, ?_⟩, And.left⟩
    rw [hk]
    exact List.getElem?_concat_length

/-- The receiver fails or not, and it makes no difference to the state. -/
theorem step_fst_congr {receiver receiver' : α → Reaction α ε}
    (h : ∀ a, (receiver a).again = (receiver' a).again) (d : DelayedCall α) (x : Step α) :
    (step receiver d x).1 = (step receiver' d x).1 := by
  have hdeliver : ∀ (d : DelayedCall α) (handed : Option α),
      (deliver receiver d handed).1 = (deliver receiver' d handed).1 := by
    intro d handed
    cases handed with
    | none => rfl
    | some a => rw [deliver, deliver, h]
  cases x with
  | call | cancel => rfl
  | flush | expire => exact hdeliver _ _

/-- A failure that is seen is that of the receiver. -/
theorem failure_step (receiver : α → Reaction α ε) (d : DelayedCall α) (x : Step α) :
    (step receiver d x).2.failure = (step receiver d x).2.delivered.bind fun a =>
      (receiver a).failure := by
  have hdeliver : ∀ (d : DelayedCall α) (handed : Option α), (deliver receiver d handed).2.failure =
      (deliver receiver d handed).2.delivered.bind fun a => (receiver a).failure := by
    intro d handed
    cases handed with
    | none => rfl
    | some a => rfl
  cases x with
  | call | cancel => rfl
  | flush | expire => exact hdeliver _ _

theorem Tracks.served {l : Log α} {d : DelayedCall α} (h : Tracks l d) (r : Request α ε) :
    Served l d r where
  delivered_iff a := by
    rcases h.step_cases r with ⟨k, a', hasks, hopen, hcall, hstep, -⟩ | ⟨hnone, hshown, -⟩
    · have hhanded : (step r.receiver d r.step).2.delivered = some a' := by rw [hstep]; rfl
      rw [hhanded, Option.some.injEq]
      constructor
      · rintro rfl
        exact ⟨k, hasks, hopen, hcall⟩
      · -- There is one open call only.
        rintro ⟨k', -, hopen', hcall'⟩
        obtain rfl : k' = k := Nat.succ.inj (hopen'.newest.symm.trans hopen.newest)
        exact Option.some.inj (hcall.symm.trans hcall')
    · rw [hshown]
      exact ⟨nofun, fun ⟨k, hasks, hopen, _⟩ => absurd hopen (hnone k hasks)⟩
  failure_eq := failure_step r.receiver d r.step
  state_eq receiver hagain := step_fst_congr hagain d r.step
  open_iff a hhanded := by
    rcases h.step_cases r with ⟨k, a', -, hopen, -, hstep, hnote⟩ | ⟨-, hshown, -⟩
    · rw [hstep] at hhanded
      obtain rfl : a' = a := Option.some.inj hhanded
      rw [hnote]
      exact h.isOpen_deliver_iff hopen _
    · rw [hshown] at hhanded
      cases hhanded
  idle hdelivers hnothing := by
    have hnone : ∀ k, r.step.AsksFor k → ¬ l.IsOpen k := by
      intro k hasks hopen
      obtain ⟨a, -, hstep⟩ := h.step_of_isOpen (ε := ε) hasks hopen
      rw [hstep] at hnothing
      cases hnothing
    rw [h.step_of_not_isOpen hdelivers hnone]

/-- **Delayed calls are delivered once, the newest one only.** After every run a call is pending
exactly if one is open, and the deliveries so far were of ever newer calls. Every further request is
then served as the log tells: the open call is handed to the receiver with its own arguments, by a
flush or by its own timer, and by nothing else. -/
theorem delivery_of_run (rs : List (Request α ε)) :
    ((run rs).1.isPending = true ↔ ∃ k, (run rs).2.IsOpen k) ∧
    (run rs).2.delivered.Pairwise (· < ·) ∧
    (∀ k ∈ (run rs).2.delivered, k < (run rs).2.calls.length) ∧
    ∀ r : Request α ε, Served (run rs).2 (run rs).1 r := by
  have h := tracks_run rs
  refine ⟨?_, h.increasing, h.below, h.served⟩
  constructor
  · intro hpending
    by_contra hnone
    have hwaiting := (h.idle fun k hopen => hnone ⟨k, hopen⟩).2
    rw [isPending, hwaiting] at hpending
    cases hpending
  · rintro ⟨k, hopen⟩
    obtain ⟨a, -, -, hwaiting⟩ := h.exists_waiting hopen
    rw [isPending, hwaiting]
    rfl

/-- A late timer does nothing; a call that is made while another one is delivered is delivered in
its turn. -/
example :
    let receiver : Nat → Reaction Nat Unit := fun a => if a = 1 then ⟨some 2, some ()⟩ else {}
    (run ([.call 0, .call 1, .expire 0, .expire 1, .flush, .flush].map (⟨·, receiver⟩))).2 =
      ⟨[0, 1, 2], [1, 2], 0⟩ := by decide

end StationNaming.DelayedCall
