import CachedStreams.CallTable

/-!
# A cache of one value

One slot holds a value and the instant it was stored; the value is fresh while it is younger than
the cache's lifetime. Calls to `update` recompute a value that is not fresh, one at a time: they
queue for a single lane, look again once they hold it, and only then compute. A computation that
fails, panics or is given up stores nothing.

The cache is a machine on events. `SlotCache.apply` says what one event does to it and what it
makes known to whoever drives it; time enters only as the instant of the event.
-/

set_option autoImplicit false

namespace CachedStreams

/-- A stored value and the instant it was stored. -/
structure Slot (T : Type) where
  value : T
  storedAt : Nat

/-- How far a call to update has come. -/
inductive SlotCache.Stage (T E : Type) where
  /-- Nothing has happened yet. -/
  | requested
  /-- No fresh value was found; the call is about to queue. -/
  | missed
  /-- The call waits for the lane, or holds it and has not looked again. -/
  | queued
  /-- The computation runs. -/
  | computing
  /-- The computation has ended with a result. -/
  | computed (result : Except E T)

/-- A cache of one value. -/
structure SlotCache (T E : Type) where
  ttl : Nat
  slot : Option (Slot T)
  lanes : Lanes
  calls : CallTable (SlotCache.Stage T E)

namespace SlotCache

variable {T E : Type}

/-- What can happen to the cache. -/
inductive Event (T E : Type) where
  | get
  | set (value : T)
  | clear
  /-- A call to update begins. -/
  | update (call : CallId)
  /-- A call takes its next step, if it can. -/
  | resume (call : CallId)
  /-- The computation of a call ends. -/
  | computed (call : CallId) (result : Except E T)
  /-- A call is given up, or its computation panics. -/
  | abort (call : CallId)

/-- What the cache makes known to whoever drives it. -/
inductive Notice (T E : Type) where
  /-- The answer of a `get`. -/
  | found (value : Option T)
  /-- The computation of `call` is to be started. -/
  | compute (call : CallId)
  /-- `call` has come to the head of the queue. -/
  | admitted (call : CallId)
  | answered (call : CallId) (result : Except E T)

/-- An empty cache whose values stay fresh for `ttl`. -/
def empty (ttl : Nat) : SlotCache T E := ⟨ttl, none, .empty, .empty⟩

/-- The value, if it is younger than the cache's lifetime. -/
def fresh (c : SlotCache T E) (now : Nat) : Option T :=
  (c.slot.filter fun s => now - s.storedAt < c.ttl).map (·.value)

/-- Store a value and restart its lifetime. -/
def store (c : SlotCache T E) (now : Nat) (value : T) : SlotCache T E :=
  { c with slot := some ⟨value, now⟩ }

/-- The answer of a `get`; a stale value is dropped on the way. -/
def get (c : SlotCache T E) (now : Nat) : SlotCache T E × Option T :=
  match c.fresh now with
  | some value => (c, some value)
  | none => ({ c with slot := none }, none)

/-- End a call: it leaves the queue, and whoever is next may go on. -/
def leave (c : SlotCache T E) (call : CallId) : SlotCache T E × List (Notice T E) :=
  ({ c with lanes := c.lanes.withdraw call, calls := c.calls.erase call },
    (c.lanes.admittedBy call).map .admitted)

/-- End a call with an answer. -/
def answer (c : SlotCache T E) (call : CallId) (result : Except E T) :
    SlotCache T E × List (Notice T E) :=
  let (c, notices) := c.leave call
  (c, notices ++ [.answered call result])

/-- The next step of a call, or `none` if it has to wait or is not in progress. -/
def resume (c : SlotCache T E) (now : Nat) (call : CallId) :
    Option (SlotCache T E × List (Notice T E)) :=
  match c.calls.find? call with
  | none => none
  | some .requested =>
    match c.fresh now with
    | some value => some (c.answer call (.ok value))
    | none => some ({ c with calls := c.calls.set call .missed }, [])
  | some .missed =>
    some ({ c with lanes := c.lanes.request call 0, calls := c.calls.set call .queued }, [])
  | some .queued =>
    if c.lanes.holds call 0 then
      match c.fresh now with
      | some value => some (c.answer call (.ok value))
      | none => some ({ c with calls := c.calls.set call .computing }, [.compute call])
    else none
  | some .computing => none
  | some (.computed (.ok value)) => some ((c.store now value).answer call (.ok value))
  | some (.computed (.error e)) => some (c.answer call (.error e))

/-- What one event does. -/
def apply (c : SlotCache T E) (now : Nat) : Event T E → SlotCache T E × List (Notice T E)
  | .get =>
    let (c, value) := c.get now
    (c, [.found value])
  | .set value => (c.store now value, [])
  | .clear => ({ c with slot := none }, [])
  | .update call => ({ c with calls := c.calls.set call .requested }, [])
  | .resume call => (c.resume now call).getD (c, [])
  | .computed call result =>
    match c.calls.find? call with
    | some .computing => ({ c with calls := c.calls.set call (.computed result) }, [])
    | _ => (c, [])
  | .abort call => c.leave call

end SlotCache

end CachedStreams
