import CachedStreams.CallTable
import CachedStreams.Stream.Content
import CachedStreams.Stream.Failure

/-!
# A buffer that many consumers share

A buffer counts its consumers. The first one starts a pump, which opens the underlying stream and
reads it into the buffer; later ones join. The release that leaves no consumer behind ends the
pump and waits until it is gone. This module has the state and what consumers do with it;
`CachedStreams.Stream.Pumping` has what the pump does.

The call that started the pump waits for a verdict on the stream's readiness. The verdict is
delivered at most once, by whoever comes first.
-/

set_option autoImplicit false

namespace CachedStreams

/-- Where a buffer stands in its life. -/
inductive Phase where
  /-- No pump was started, or the last one could not open its stream. -/
  | idle
  /-- A pump was started and has not reported an end. -/
  | streaming
  /-- The stream ended or failed. -/
  | finished
  /-- The last consumer released the buffer. -/
  | closed
  deriving DecidableEq, Repr

/-- The word for a phase. -/
def Phase.name : Phase → String
  | idle => "Idle"
  | streaming => "Streaming"
  | finished => "Finished"
  | closed => "Closed"

/-- The phase after the last consumer has released the buffer. -/
def Phase.afterLastRelease : Phase → Phase
  | idle => idle
  | streaming => closed
  | finished => closed
  | closed => closed

/-- How far a pump has come. -/
inductive PumpStage where
  /-- The pump has not run yet. -/
  | starting
  /-- The underlying stream is being opened. -/
  | opening
  /-- The underlying stream is open and being read. -/
  | reading
  | ended (panicked : Bool)
  deriving DecidableEq, Repr

/-- What watches for the buffer to become ready. -/
inductive Confirmation where
  /-- The underlying stream has not been opened. -/
  | absent
  /-- The watch has not run yet. -/
  | fresh
  /-- The buffer is ready at `deadline`, and earlier if nothing arrives until `quiet`; the watch
  has seen `seen` arrivals. -/
  | watching (deadline quiet seen : Nat)
  | over
  deriving DecidableEq, Repr

/-- The task that fills a buffer. -/
structure Pump where
  /-- The call that waits for the verdict. -/
  opener : CallId
  stage : PumpStage
  /-- Whether the pump has been asked to end. -/
  releaseAsked : Bool
  /-- Whether the verdict has been delivered or can never be. -/
  settled : Bool
  /-- How many pieces have arrived. -/
  arrivals : Nat
  confirmation : Confirmation
  deriving DecidableEq, Repr

/-- What a call on a buffer waits for. -/
inductive BufferCall where
  /-- The verdict on the stream's readiness. -/
  | readiness
  /-- The end of the pump. -/
  | pumpEnd
  deriving DecidableEq, Repr

/-- A growable buffer fed by a pump and shared by its consumers. -/
structure Buffer where
  name : String
  options : BufferOptions
  transform : Option Transform
  content : Content
  /-- How many times content has been published. -/
  commits : Nat
  /-- How many consumers are registered. -/
  refs : Nat
  phase : Phase
  failure : Option StreamError
  /-- Whether the release of the last consumer still has a pump to end. -/
  pumpHeld : Bool
  pump : Option Pump
  calls : CallTable BufferCall

namespace Buffer

/-- What a buffer makes known to whoever drives it. -/
inductive Notice where
  | answered (call : CallId) (result : Except StreamError Unit)
  | retained (registered : Bool)
  /-- A pump is to be run. -/
  | pumpStarted
  /-- The underlying stream is to be opened. -/
  | openCalled
  /-- The watch for readiness is to be run. -/
  | watchStarted
  /-- The transform was given a storage of some length and the position of the fresh bytes. -/
  | transformed (length fresh : Nat)
  /-- A piece has arrived. -/
  | arrived
  /-- The underlying stream was let go. -/
  | readerDropped
  /-- The pump is asked to end. -/
  | releaseAsked
  | pumpEnded

/-- A buffer without content, consumers or pump. -/
def create (name : String) (options : BufferOptions) (transform : Option Transform) : Buffer where
  name
  options
  transform
  content := .initial options
  commits := 0
  refs := 0
  phase := .idle
  failure := none
  pumpHeld := false
  pump := none
  calls := .empty

/-- The number of bytes visible to readers, as last published. -/
def size (b : Buffer) : Nat := b.content.size

/-- Whether no more bytes will arrive. -/
def isFinished (b : Buffer) : Bool := b.phase == .finished || b.phase == .closed

/-- Whether the last consumer released the buffer after it had been streamed. -/
def isClosed (b : Buffer) : Bool := b.phase == .closed

/-- Every visible byte. -/
def snapshot (b : Buffer) : List UInt8 := b.content.visible

/-- At most `length` visible bytes from `offset` on. Past the visible bytes the answer is empty if
no more will arrive, and the error "would block" otherwise. -/
def readAt (b : Buffer) (length offset : Nat) : Except IoError (List UInt8) :=
  match b.failure with
  | some e => .error e.toIoError
  | none =>
    if offset < b.snapshot.length then .ok (b.content.read length offset)
    else if b.isFinished then .ok []
    else .error ⟨.wouldBlock, none⟩

/-- Register one more consumer of a buffer that has some. -/
def retain (b : Buffer) : Buffer × Bool :=
  if b.refs = 0 then (b, false) else ({ b with refs := b.refs + 1 }, true)

/-- Register a consumer. The first consumer of an idle buffer starts a pump and waits for its
verdict; anyone else is answered at once. -/
def join (b : Buffer) (call : CallId) : Buffer × List Notice :=
  if 0 < b.refs ∨ b.phase ≠ .idle then
    ({ b with refs := b.refs + 1 }, [.answered call (.ok ())])
  else
    ({ b with
        refs := b.refs + 1
        phase := .streaming
        pumpHeld := true
        pump := some ⟨call, .starting, false, false, 0, .absent⟩
        calls := b.calls.set call .readiness },
      [.pumpStarted])

/-- The answer to a release that waited for the pump. -/
def releaseResult (panicked : Bool) : Except StreamError Unit :=
  if panicked then .error .pumpPanicked else .ok ()

/-- Release a consumer. The last one asks the pump to end and waits for that; without consumers
nothing happens. -/
def release (b : Buffer) (call : CallId) : Buffer × List Notice :=
  match b.refs with
  | 0 => (b, [.answered call (.ok ())])
  | 1 =>
    let b := { b with refs := 0, phase := b.phase.afterLastRelease }
    match b.pumpHeld, b.pump with
    | true, some pump =>
      let b := { b with pumpHeld := false, pump := some { pump with releaseAsked := true } }
      match pump.stage with
      | .ended panicked => (b, [.answered call (releaseResult panicked)])
      | _ => ({ b with calls := b.calls.set call .pumpEnd }, [.releaseAsked])
    | _, _ => (b, [.answered call (.ok ())])
  | refs + 2 => ({ b with refs := refs + 1 }, [.answered call (.ok ())])

/-- Give up a call; what it started goes on. -/
def abandon (b : Buffer) (call : CallId) : Buffer :=
  { b with calls := b.calls.erase call }

end Buffer

end CachedStreams
