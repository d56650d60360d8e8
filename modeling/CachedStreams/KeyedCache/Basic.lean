import CachedStreams.CallTable
import CachedStreams.KeyedCache.KeyHash
import CachedStreams.KeyedCache.Table

/-!
# A cache of results by key

The cache keeps what generators produce, values and failures alike, until their lifetime is over.
A call that finds nothing live queues for the lane of its key, looks again once it holds the lane,
and only then lets its generator run; it keeps the lane until the result is stored and the entry
that this displaced has been dealt with. Every entry that leaves the table is handed to the
eviction hook by the call that removed it, and that call waits for the hook.

The cache is a machine on events: `KeyedCache.apply` says what one event does to it at a given
instant and what it makes known to whoever drives it. Generators and hooks are not part of it; they
are asked for by a notice and answered by an event.
-/

set_option autoImplicit false

namespace CachedStreams

namespace KeyedCache

/-- How many lanes a cache has unless told otherwise. -/
def defaultLanes : Nat := 64

/-- What a call asks for. -/
inductive Request (V E : Type) where
  | get (key : String)
  | getOrUpdate (key : String) (ttl : Nat)
  | set (key : String) (ttl : Nat) (value : V)
  | remove (key : String)
  /-- Remove the entry if a test accepts its result. -/
  | removeIf (key : String) (test : Except E V → Bool)
  /-- Remove every entry. -/
  | flush
  /-- Remove every expired entry. -/
  | purge

/-- The answer to a call. -/
inductive Reply (V E : Type) where
  | found (result : Option (Except E V))
  | result (result : Except E V)
  | stored
  | removed (present : Bool)
  | flushed
  | purged (count : Nat)

/-- Which kind of sweep a call carries out. -/
inductive Sweep where
  | flush
  | purge
  deriving DecidableEq, Repr

/-- The answer to a sweep that removed `count` entries. -/
def Sweep.reply {V E : Type} (sweep : Sweep) (count : Nat) : Reply V E :=
  match sweep with
  | .flush => .flushed
  | .purge => .purged count

/-- What a call does once the eviction hook has finished. -/
inductive Next (V E : Type) where
  | reply (reply : Reply V E)
  | sweep (rest : List (Nat × String)) (count : Nat) (sweep : Sweep)

/-- How far a call has come. -/
inductive Stage (V E : Type) where
  /-- Nothing has happened yet. -/
  | requested (request : Request V E)
  /-- Nothing live was found; the call is about to queue. -/
  | missed (key : String) (ttl : Nat)
  /-- The call waits for the lane of its key, or holds it and has not looked again. -/
  | queued (key : String) (ttl : Nat)
  /-- The generator runs. -/
  | generating (key : String) (ttl : Nat)
  /-- The generator has ended with a result, which is not stored yet. -/
  | generated (key : String) (ttl : Nat) (result : Except E V)
  /-- The entries of a snapshot are removed one by one. -/
  | sweeping (rest : List (Nat × String)) (count : Nat) (sweep : Sweep)
  /-- The eviction hook runs. -/
  | evicting (next : Next V E)

/-- What the cache makes known to whoever drives it. -/
inductive Notice (V E : Type) where
  /-- The generator of `call` is to be started. -/
  | generate (call : CallId) (key : String)
  | stored (call : CallId) (key : String) (entry : Entry V E)
  /-- The eviction hook is to be run on an entry that `call` removed. -/
  | evict (call : CallId) (key : String) (entry : Entry V E)
  /-- `call` has come to hold its lane. -/
  | admitted (call : CallId)
  | answered (call : CallId) (reply : Reply V E)

/-- What can happen to the cache. -/
inductive Event (V E : Type) where
  /-- A call begins. -/
  | call (call : CallId) (request : Request V E)
  /-- A call takes its next step, if it can. -/
  | resume (call : CallId)
  /-- The generator of a call ends. -/
  | generated (call : CallId) (result : Except E V)
  /-- The eviction hook that a call waits for ends. -/
  | evicted (call : CallId)
  /-- A call is given up, or its generator panics. -/
  | abort (call : CallId)

end KeyedCache

/-- A cache of results by key. -/
structure KeyedCache (V E : Type) where
  /-- How many lanes the keys are spread over. -/
  laneCount : Nat
  table : Table V E
  /-- The number of the next store. -/
  nextSeq : Nat
  lanes : Lanes
  calls : CallTable (KeyedCache.Stage V E)

namespace KeyedCache

variable {V E : Type}

/-- A cache without entries. -/
def create (laneCount : Nat) : KeyedCache V E := ⟨laneCount, .empty, 0, .empty, .empty⟩

/-- The lane of a key. -/
def laneOf (c : KeyedCache V E) (key : String) : Nat := KeyHash.lane c.laneCount key

/-- Record how far a call has come. -/
def moveTo (c : KeyedCache V E) (call : CallId) (stage : Stage V E) : KeyedCache V E :=
  { c with calls := c.calls.set call stage }

/-- End a call: it gives up its lane, and whoever is next may go on. -/
def leave (c : KeyedCache V E) (call : CallId) : KeyedCache V E × List (Notice V E) :=
  ({ c with lanes := c.lanes.withdraw call, calls := c.calls.erase call },
    (c.lanes.admittedBy call).map .admitted)

/-- End a call with an answer. -/
def answer (c : KeyedCache V E) (call : CallId) (reply : Reply V E) :
    KeyedCache V E × List (Notice V E) :=
  let (c, notices) := c.leave call
  (c, notices ++ [.answered call reply])

/-- Hand a removed entry to the eviction hook. -/
def evict (c : KeyedCache V E) (call : CallId) (key : String) (entry : Entry V E)
    (next : Next V E) : KeyedCache V E × List (Notice V E) :=
  (c.moveTo call (.evicting next), [.evict call key entry])

/-- Store a result and hand the entry that this displaces to the eviction hook. -/
def store (c : KeyedCache V E) (now : Nat) (call : CallId) (key : String) (ttl : Nat)
    (result : Except E V) (reply : Reply V E) : KeyedCache V E × List (Notice V E) :=
  let entry : Entry V E := ⟨result, Clock.add? now ttl, c.nextSeq⟩
  let displaced := c.table.find? key
  let c := { c with table := c.table.insert key entry, nextSeq := c.nextSeq + 1 }
  let (c, notices) := match displaced with
    | some old => c.evict call key old (.reply reply)
    | none => c.answer call reply
  (c, .stored call key entry :: notices)

/-- Remove the entry under a key if a test accepts it. -/
def removeWhen (c : KeyedCache V E) (call : CallId) (key : String) (test : Entry V E → Bool) :
    KeyedCache V E × List (Notice V E) :=
  match (c.table.find? key).filter test with
  | some entry =>
    { c with table := c.table.erase key }.evict call key entry (.reply (.removed true))
  | none => c.answer call (.removed false)

/-- The next removal of a sweep. An entry of the snapshot that has been removed or replaced since
is passed over. -/
def sweepNext (c : KeyedCache V E) (call : CallId) (rest : List (Nat × String)) (count : Nat)
    (sweep : Sweep) : KeyedCache V E × List (Notice V E) :=
  match rest with
  | [] => c.answer call (sweep.reply count)
  | (seq, key) :: rest =>
    match (c.table.find? key).filter (·.seq == seq) with
    | some entry =>
      { c with table := c.table.erase key }.evict call key entry (.sweep rest (count + 1) sweep)
    | none => (c.moveTo call (.sweeping rest count sweep), [])

/-- The first step of a call. -/
def begin (c : KeyedCache V E) (now : Nat) (call : CallId) :
    Request V E → KeyedCache V E × List (Notice V E)
  | .get key => c.answer call (.found (c.table.lookup now key))
  | .getOrUpdate key ttl =>
    match c.table.lookup now key with
    | some result => c.answer call (.result result)
    | none => (c.moveTo call (.missed key ttl), [])
  | .set key ttl value => c.store now call key ttl (.ok value) .stored
  | .remove key => c.removeWhen call key fun _ => true
  | .removeIf key test => c.removeWhen call key fun entry => test entry.result
  | .flush => (c.moveTo call (.sweeping (c.table.liveThenExpired now) 0 .flush), [])
  | .purge => (c.moveTo call (.sweeping (c.table.expired now) 0 .purge), [])

/-- The next step of a call, or `none` if it has to wait or is not in progress. -/
def resume (c : KeyedCache V E) (now : Nat) (call : CallId) :
    Option (KeyedCache V E × List (Notice V E)) :=
  match c.calls.find? call with
  | none => none
  | some (.requested request) => some (c.begin now call request)
  | some (.missed key ttl) =>
    some ({ c with lanes := c.lanes.request call (c.laneOf key) }.moveTo call (.queued key ttl), [])
  | some (.queued key ttl) =>
    if c.lanes.holds call (c.laneOf key) then
      match c.table.lookup now key with
      | some result => some (c.answer call (.result result))
      | none => some (c.moveTo call (.generating key ttl), [.generate call key])
    else none
  | some (.generating _ _) => none
  | some (.generated key ttl result) =>
    some (c.store now call key ttl result (.result result))
  | some (.sweeping rest count sweep) => some (c.sweepNext call rest count sweep)
  | some (.evicting _) => none

/-- What one event does. -/
def apply (c : KeyedCache V E) (now : Nat) : Event V E → KeyedCache V E × List (Notice V E)
  | .call call request => (c.moveTo call (.requested request), [])
  | .resume call => (c.resume now call).getD (c, [])
  | .generated call result =>
    match c.calls.find? call with
    | some (.generating key ttl) => (c.moveTo call (.generated key ttl result), [])
    | _ => (c, [])
  | .evicted call =>
    match c.calls.find? call with
    | some (.evicting (.reply reply)) => c.answer call reply
    | some (.evicting (.sweep rest count sweep)) =>
      (c.moveTo call (.sweeping rest count sweep), [])
    | _ => (c, [])
  | .abort call => c.leave call

end KeyedCache

end CachedStreams
