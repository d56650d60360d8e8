import CachedStreams.Stream.Buffer

/-!
# Following a buffer

A follower reads a buffer from its start on. Each look asks for the bytes behind those that it
has: it takes what it gets, comes back later when there is nothing yet, and is done when there will
never be more or the buffer answers with a failure.
-/

set_option autoImplicit false

namespace CachedStreams

/-- How following a buffer ended. -/
inductive FollowEnd where
  /-- Everything has been received. -/
  | complete
  | broken (cause : IoError)
  deriving DecidableEq, Repr

/-- A consumer that reads a buffer from its start on. -/
structure Follower where
  received : List UInt8
  ending : Option FollowEnd

namespace Follower

/-- A follower that has not looked yet. -/
def initial : Follower := ⟨[], none⟩

/-- One look at a buffer, for at most `length` bytes. -/
def look (f : Follower) (b : Buffer) (length : Nat) : Follower :=
  match f.ending with
  | some _ => f
  | none =>
    match b.readAt length f.received.length with
    | .ok [] => { f with ending := some .complete }
    | .ok bytes => { f with received := f.received ++ bytes }
    | .error e => if e.kind = .wouldBlock then f else { f with ending := some (.broken e) }

/-- Look until a look brings nothing, at most `count` times. -/
def looks (b : Buffer) (length : Nat) : Nat → Follower → Follower
  | 0, f => f
  | count + 1, f =>
    let next := f.look b length
    if next.received.length = f.received.length then next else looks b length count next

/-- Look until a look brings nothing. All others bring at least a byte. -/
def catchUp (f : Follower) (b : Buffer) (length : Nat) : Follower :=
  f.looks b length (b.snapshot.length - f.received.length + 1)

end Follower

end CachedStreams
