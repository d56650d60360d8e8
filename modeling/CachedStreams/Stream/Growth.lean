import CachedStreams.Time

/-!
# How a buffer grows

Capacities are counts below `2 ^ 64`, and arithmetic on them saturates. A full buffer triples while
it is smaller than the slow-growth threshold and grows by the threshold from then on.
-/

set_option autoImplicit false

namespace CachedStreams

/-- The largest capacity that can be asked for. -/
def maxCapacity : Nat := Nat.pow 2 64 - 1

/-- The longest piece that is read at once. -/
def maxReadLength : Nat := 1048576

/-- How a buffer grows and when its first reader is let in. -/
structure BufferOptions where
  /-- Capacity before the first read. -/
  initialCapacity : Nat := 4096
  /-- A full buffer smaller than this triples; others grow by this much. -/
  slowGrowth : Nat := 67108864
  /-- The buffer counts as ready once nothing has arrived for this long. -/
  idleConfirm : Nat := Duration.ofMillis 100
  /-- The buffer counts as ready at the latest this long after its stream was opened. -/
  maxConfirm : Nat := Duration.ofMillis 5000
  deriving DecidableEq, Repr

/-- The capacity to which a full buffer of capacity `current` grows. -/
def BufferOptions.grownCapacity (o : BufferOptions) (current : Nat) : Nat :=
  if current = 0 then max o.initialCapacity 1
  else if current < o.slowGrowth then min (current * 3) maxCapacity
  else min (current + o.slowGrowth) maxCapacity

/-- The capacities that `steps` growths in a row lead to, from `current`. -/
def BufferOptions.growthSteps (o : BufferOptions) : Nat → Nat → List Nat
  | 0, _ => []
  | steps + 1, current => o.grownCapacity current :: o.growthSteps steps (o.grownCapacity current)

end CachedStreams
