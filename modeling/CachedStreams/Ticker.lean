import CachedStreams.Time

/-!
# Regular work

A ticker says when regular work is due. Work that starts on time is next due one period after it
was due; work that starts late, by more than five milliseconds, is next due one period after it
started.
-/

set_option autoImplicit false

namespace CachedStreams

/-- When regular work is due next, and how often. -/
structure Ticker where
  due : Nat
  period : Nat
  deriving DecidableEq, Repr

namespace Ticker

/-- A ticker whose first work is due at once. -/
def starting (now period : Nat) : Ticker := ⟨now, period⟩

/-- How late work may start and still count as being on time. -/
def tolerance : Nat := Duration.ofMillis 5

/-- The ticker after work that starts at `now`. -/
def next (t : Ticker) (now : Nat) : Ticker :=
  { t with
    due :=
      if t.due + tolerance < now then Clock.deadline now t.period
      else Clock.deadline t.due t.period }

/-- A ticker keeps its period. -/
@[simp] theorem period_next (t : Ticker) (now : Nat) : (t.next now).period = t.period := by
  -- With the ticker taken apart, nothing has to look at when the work is due.
  obtain ⟨due, period⟩ := t
  show (next ⟨due, period⟩ now).period = period
  rfl

/-- Work is never due again earlier than it was. -/
theorem due_le_due_next (t : Ticker) (now : Nat) : t.due ≤ (t.next now).due := by
  unfold next
  split
  · exact Nat.le_trans (by omega) (Clock.le_deadline now t.period)
  · exact Clock.le_deadline t.due t.period

end Ticker

end CachedStreams
