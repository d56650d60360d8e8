import CachedStreams.Stream.Buffer

/-!
# Filling a buffer

What the pump of a buffer and the watch for its readiness do. `Buffer.apply` says what one event
does to a buffer; an event that does not fit the buffer's state does nothing.

The first thing a pump does is to call for the stream, and a pump that has been asked to end before
it ever ran still does that. From then on it sees before anything else that it is asked to end, so
it takes in nothing more. The verdict for the call that started the pump is delivered by the end of
the stream, by a failure to open it, by the release, or by the watch. If the pump breaks off before
that, the call learns of it as soon as the watch is over too.

The watch waits for its timers and for the pump at once. Where both have something for it, it may
heed either first, and the event of its run says which.
-/

set_option autoImplicit false

namespace CachedStreams.Buffer

/-- What can happen to a pump. -/
inductive PumpEvent where
  /-- The pump runs for the first time and calls for the stream. -/
  | started
  /-- The pump sees that it is asked to end. -/
  | releaseSeen
  /-- The underlying stream has been opened. -/
  | opened
  | openFailed (cause : IoError)
  /-- Opening the stream panics: the call for it does, or what that call gave to wait for. -/
  | openPanicked
  /-- The underlying stream gave some bytes; none mean that it has ended. -/
  | received (bytes : List UInt8)
  | readFailed (cause : IoError)
  | readPanicked

/-- What the watch heeds when both its timers and the pump have something for it. -/
inductive Heeding where
  /-- A timer that is due. -/
  | timers
  /-- A piece that has arrived, or that the pump is gone. -/
  | pump
  deriving DecidableEq, Repr

/-- What can happen to a buffer. -/
inductive Event where
  /-- A consumer registers and has the stream pumped. -/
  | join (call : CallId)
  /-- A consumer registers if there are others. -/
  | retain
  /-- A consumer releases the buffer. -/
  | release (call : CallId)
  /-- A call is given up. -/
  | abandon (call : CallId)
  | pump (event : PumpEvent)
  /-- The watch for readiness runs. -/
  | watch (heeding : Heeding)

/-- Deliver the verdict, unless it has been delivered. -/
def settle (b : Buffer) (p : Pump) (result : Except StreamError Unit) :
    Buffer × Pump × List Notice :=
  if p.settled then (b, p, [])
  else
    let p := { p with settled := true }
    match b.calls.find? p.opener with
    | some .readiness =>
      ({ b with calls := b.calls.erase p.opener }, p, [.answered p.opener result])
    | _ => (b, p, [])

/-- The calls that wait for the end of the pump. -/
def pumpEndCalls (b : Buffer) : List CallId :=
  b.calls.rows.filterMap fun row => if row.2 = .pumpEnd then some row.1 else none

/-- The pump is over. If it broke off and nobody is left to deliver a verdict, the call that
started it learns of that. -/
def endPump (b : Buffer) (p : Pump) (panicked : Bool) : Buffer × List Notice :=
  let p := { p with stage := .ended panicked }
  let (b, p, verdict) :=
    if panicked ∧ p.confirmation = .absent then b.settle p (.error .pumpPanicked) else (b, p, [])
  let waiting := b.pumpEndCalls
  ({ b with
      pump := some p
      calls := waiting.foldl CallTable.erase b.calls },
    verdict ++ .pumpEnded :: waiting.map fun call => .answered call (releaseResult panicked))

/-- Record how the stream ended; a buffer that was released stays closed. -/
def finish (b : Buffer) (failure : Option StreamError) : Buffer :=
  { b with
    content := if failure.isSome then b.content.discard else b.content
    failure
    phase := if b.phase = .streaming then .finished else b.phase }

/-- The stream reported its end. -/
def reachEnd (b : Buffer) (p : Pump) : Buffer × List Notice :=
  let (b, p, verdict) := b.settle p (.ok ())
  let (b, ending) := (b.finish none).endPump p false
  (b, verdict ++ .readerDropped :: ending)

/-- The stream failed while it was read. -/
def fail (b : Buffer) (p : Pump) (cause : IoError) : Buffer × List Notice :=
  let (b, p, verdict) := (b.finish (some (.readFailed cause))).settle p (.ok ())
  let (b, ending) := b.endPump p false
  (b, .readerDropped :: verdict ++ ending)

/-- The stream could not be opened: the registration of its opener is undone. -/
def failOpen (b : Buffer) (p : Pump) (cause : IoError) : Buffer × List Notice :=
  let b := { b with refs := b.refs - 1, phase := .idle, pumpHeld := false }
  let (b, p, verdict) := b.settle p (.error (.openFailed cause))
  let (b, ending) := b.endPump p false
  (b, verdict ++ ending)

/-- The pump breaks off; an open stream is let go. -/
def breakOff (b : Buffer) (p : Pump) : Buffer × List Notice :=
  let dropped := if p.stage = .reading then [.readerDropped] else []
  let (b, ending) := b.endPump p true
  (b, dropped ++ ending)

/-- The pump sees that it is asked to end. -/
def stop (b : Buffer) (p : Pump) : Buffer × List Notice :=
  let dropped := if p.stage = .reading then [.readerDropped] else []
  let (b, p, verdict) := b.settle p (.ok ())
  let (b, ending) := b.endPump p false
  (b, dropped ++ verdict ++ ending)

/-- Some bytes arrived: they are stored, transformed and published. A transform that breaks off or
names impossible positions takes the pump with it. -/
def take (b : Buffer) (p : Pump) (bytes : List UInt8) : Buffer × List Notice :=
  let shown := match b.transform with
    | some _ => [Notice.transformed (b.content.stored.length + bytes.length)
        b.content.stored.length]
    | none => []
  let (content, published) := b.content.commit b.transform bytes
  if published then
    ({ b with
        content := content.reserve b.options
        commits := b.commits + 1
        pump := some { p with arrivals := p.arrivals + 1 } },
      shown ++ [.arrived])
  else
    let (b, ending) := { b with content }.breakOff p
    (b, shown ++ ending)

/-- The call for the stream panics, in the first run of the pump. -/
def breakCall (b : Buffer) (p : Pump) : Buffer × List Notice :=
  let (b, ending) := b.breakOff p
  (b, .openCalled :: ending)

/-- What an event does to the pump. Whether it has been asked to end makes no difference to its
first run before the call for the stream has been made. -/
def pumpStep (b : Buffer) (p : Pump) : PumpEvent → Buffer × List Notice
  | .releaseSeen =>
    match p.releaseAsked, p.stage with
    | true, .opening => b.stop p
    | true, .reading => b.stop p
    | _, _ => (b, [])
  | .started =>
    if p.stage = .starting then
      ({ b with pump := some { p with stage := .opening } }, [.openCalled])
    else (b, [])
  | .opened =>
    if p.stage = .opening ∧ ¬p.releaseAsked then
      ({ b with
          content := b.content.reserve b.options
          pump := some { p with stage := .reading, confirmation := .fresh } },
        [.watchStarted])
    else (b, [])
  | .openFailed cause =>
    if p.stage = .opening ∧ ¬p.releaseAsked then b.failOpen p cause else (b, [])
  | .openPanicked =>
    if p.stage = .starting then b.breakCall p
    else if p.stage = .opening ∧ ¬p.releaseAsked then b.breakOff p
    else (b, [])
  | .received [] =>
    if p.stage = .reading ∧ ¬p.releaseAsked then b.reachEnd p else (b, [])
  | .received bytes =>
    if p.stage = .reading ∧ ¬p.releaseAsked ∧ bytes.length ≤ b.content.room then b.take p bytes
    else (b, [])
  | .readFailed cause =>
    if p.stage = .reading ∧ ¬p.releaseAsked then b.fail p cause else (b, [])
  | .readPanicked =>
    if p.stage = .reading ∧ ¬p.releaseAsked then b.breakOff p else (b, [])

/-- The watch ends and, if it has one, delivers a verdict. -/
def endWatch (b : Buffer) (p : Pump) (result : Option (Except StreamError Unit)) :
    Buffer × List Notice :=
  let p := { p with confirmation := .over }
  match result with
  | some result =>
    let (b, p, verdict) := b.settle p result
    ({ b with pump := some p }, verdict)
  | none => ({ b with pump := some p }, [])

/-- The watch sees the pump gone. If that broke off before a verdict was delivered, this is the
verdict. -/
def seePumpGone (b : Buffer) (p : Pump) (panicked : Bool) : Buffer × List Notice :=
  b.endWatch p (if panicked then some (.error .pumpPanicked) else none)

/-- The watch has seen every piece that has arrived. It ends if a timer is due or the pump is gone,
and goes on waiting otherwise. -/
def awaitQuiet (b : Buffer) (now : Nat) (p : Pump) (heeding : Heeding) (deadline quiet seen : Nat) :
    Buffer × List Notice :=
  match heeding, p.stage with
  | .pump, .ended panicked => b.seePumpGone p panicked
  | _, stage =>
    if deadline ≤ now ∨ quiet ≤ now then b.endWatch p (some (.ok ()))
    else
      match stage with
      | .ended panicked => b.seePumpGone p panicked
      | _ => ({ b with pump := some { p with confirmation := .watching deadline quiet seen } }, [])

/-- The watch waits until `deadline`, or until nothing has arrived up to `quiet`, unless the buffer
is ready already or the pump is gone. A piece that it has not seen has it look once more, with the
wait for quiet begun anew; to heed one thing first in both looks gives every way the two can go. -/
def keepWatch (b : Buffer) (now : Nat) (p : Pump) (heeding : Heeding) (deadline quiet seen : Nat) :
    Buffer × List Notice :=
  if seen < p.arrivals ∧ (heeding = .pump ∨ ¬(deadline ≤ now ∨ quiet ≤ now)) then
    b.awaitQuiet now p heeding deadline (Clock.timerDue now b.options.idleConfirm) p.arrivals
  else b.awaitQuiet now p heeding deadline quiet seen

/-- The watch runs. -/
def watchStep (b : Buffer) (now : Nat) (p : Pump) (heeding : Heeding) : Buffer × List Notice :=
  match p.confirmation with
  | .absent => (b, [])
  | .over => (b, [])
  | .fresh =>
    if p.settled then b.endWatch p none
    else
      b.keepWatch now p heeding (Clock.timerDue now b.options.maxConfirm)
        (Clock.timerDue now b.options.idleConfirm) 0
  | .watching deadline quiet seen =>
    if p.settled then b.endWatch p none else b.keepWatch now p heeding deadline quiet seen

/-- What one event does. -/
def apply (b : Buffer) (now : Nat) : Event → Buffer × List Notice
  | .join call => b.join call
  | .retain =>
    let (b, registered) := b.retain
    (b, [.retained registered])
  | .release call => b.release call
  | .abandon call => (b.abandon call, [])
  | .pump event =>
    match b.pump with
    | some p => b.pumpStep p event
    | none => (b, [])
  | .watch heeding =>
    match b.pump with
    | some p => b.watchStep now p heeding
    | none => (b, [])

end CachedStreams.Buffer
