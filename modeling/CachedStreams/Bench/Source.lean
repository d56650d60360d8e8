import CachedStreams.Stream.Failure

/-!
# Scripted streams

An underlying stream as a script describes it: how opening it goes, the pieces it gives and when,
and how it ends.
-/

set_option autoImplicit false

namespace CachedStreams.Bench

/-- How a stream ends once its pieces are used up. -/
inductive SourceEnd where
  | ends
  /-- It never gives anything again. -/
  | hangs
  | panics
  | fails (cause : IoError)
  deriving DecidableEq, Repr

/-- A stream that has been opened: its pieces with the time each takes, and its end. -/
structure Source where
  pieces : List (Nat × List UInt8)
  ending : SourceEnd
  endDelay : Nat

namespace Source

/-- How long the next read has to wait for what it meets, the first time it meets it. -/
def nextDelay (s : Source) : Nat :=
  match s.pieces with
  | (delay, _) :: _ => delay
  | [] => s.endDelay

/-- What a read of up to `room` bytes takes from a piece, and what it leaves. The rest of a piece
needs no more time. -/
def serve (s : Source) (room : Nat) : Option (List UInt8 × Source) :=
  match s.pieces with
  | [] => none
  | (_, bytes) :: rest =>
    let left := bytes.drop room
    some (bytes.take room,
      { s with pieces := if left.isEmpty then rest else (0, left) :: rest })

end Source

/-- How opening a stream goes. -/
inductive OpeningEnd where
  | opens (source : Source)
  | fails (cause : IoError)
  | panics

/-- A scripted way to open a stream, known by its tag. -/
structure Opener (τ : Type) where
  tag : τ
  delay : Option Nat
  ending : OpeningEnd

end CachedStreams.Bench
