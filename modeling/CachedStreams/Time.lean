/-!
# Time

Durations and instants are natural numbers of nanoseconds; an instant is the time since the clock
started. The clock can represent instants up to `Clock.last`, and a deadline past it either means
"never" (`Clock.add?`) or is replaced by one thirty years ahead (`Clock.deadline`). Timers have a
resolution of one millisecond: `Clock.timerDue` is the first instant at which a timer of a given
length is seen to have elapsed, and `Clock.le_timerDue` says that no timer is early.
-/

set_option autoImplicit false

namespace CachedStreams

namespace Duration

/-- A duration of `n` milliseconds. -/
def ofMillis (n : Nat) : Nat := n * 1000000

/-- A duration of `n` seconds. -/
def ofSecs (n : Nat) : Nat := n * 1000000000

/-- The longest duration that can be expressed: a 64-bit count of seconds, and a nanosecond short
of one more. -/
def longest : Nat := Nat.pow 2 64 * 1000000000 - 1

/-- What stands in for a deadline too far ahead to be represented: thirty years. -/
def farFuture : Nat := ofSecs (86400 * 365 * 30)

end Duration

namespace Clock

/-- The latest instant the clock can represent: 63 bits of seconds. -/
def last : Nat := Nat.pow 2 63 * 1000000000 - 1

/-- The instant `d` after `now`, if it can be represented. -/
def add? (now d : Nat) : Option Nat :=
  if now + d ≤ last then some (now + d) else none

/-- The deadline `d` after `now`; one that cannot be represented lies thirty years ahead. -/
def deadline (now d : Nat) : Nat :=
  (add? now d).getD (now + Duration.farFuture)

/-- Whole milliseconds since the clock started. -/
def millis (now : Nat) : Nat := now / 1000000

/-- The first whole millisecond at or after an instant. -/
def roundUp (instant : Nat) : Nat := (instant + 999999) / 1000000 * 1000000

/-- When a timer set at `now` for `d` is seen to have elapsed. -/
def timerDue (now d : Nat) : Nat := roundUp (deadline now d)

/-- Rounding never brings an instant forward. -/
theorem le_roundUp (instant : Nat) : instant ≤ roundUp instant := by
  unfold roundUp; omega

/-- Whole milliseconds are not rounded. -/
theorem roundUp_ofMillis (n : Nat) : roundUp (Duration.ofMillis n) = Duration.ofMillis n := by
  unfold roundUp Duration.ofMillis; omega

/-- A deadline never lies before the instant from which it is counted. -/
theorem le_deadline (now d : Nat) : now ≤ deadline now d := by
  unfold deadline add?
  split <;> simp

/-- A timer is never seen to have elapsed before it was set. -/
theorem le_timerDue (now d : Nat) : now ≤ timerDue now d :=
  Nat.le_trans (le_deadline now d) (le_roundUp _)

end Clock

end CachedStreams
