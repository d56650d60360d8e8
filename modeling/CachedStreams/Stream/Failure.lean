/-!
# Failures of a stream

The kinds of input and output errors, an error of one of these kinds, and the ways in which a
shared stream fails. Each has one text; a stream failure also has a kind, that of the error behind
it where there is one.
-/

set_option autoImplicit false

namespace CachedStreams

/-- Kinds of input and output errors. -/
inductive IoErrorKind where
  | notFound
  | permissionDenied
  | connectionRefused
  | connectionReset
  | connectionAborted
  | notConnected
  | addrInUse
  | addrNotAvailable
  | brokenPipe
  | alreadyExists
  | wouldBlock
  | invalidInput
  | invalidData
  | timedOut
  | writeZero
  | interrupted
  | unsupported
  | unexpectedEof
  | outOfMemory
  | other
  deriving DecidableEq, Repr

namespace IoErrorKind

/-- Every kind. -/
def all : List IoErrorKind :=
  [.notFound, .permissionDenied, .connectionRefused, .connectionReset, .connectionAborted,
    .notConnected, .addrInUse, .addrNotAvailable, .brokenPipe, .alreadyExists, .wouldBlock,
    .invalidInput, .invalidData, .timedOut, .writeZero, .interrupted, .unsupported,
    .unexpectedEof, .outOfMemory, .other]

/-- The name of a kind. -/
def name : IoErrorKind → String
  | notFound => "NotFound"
  | permissionDenied => "PermissionDenied"
  | connectionRefused => "ConnectionRefused"
  | connectionReset => "ConnectionReset"
  | connectionAborted => "ConnectionAborted"
  | notConnected => "NotConnected"
  | addrInUse => "AddrInUse"
  | addrNotAvailable => "AddrNotAvailable"
  | brokenPipe => "BrokenPipe"
  | alreadyExists => "AlreadyExists"
  | wouldBlock => "WouldBlock"
  | invalidInput => "InvalidInput"
  | invalidData => "InvalidData"
  | timedOut => "TimedOut"
  | writeZero => "WriteZero"
  | interrupted => "Interrupted"
  | unsupported => "Unsupported"
  | unexpectedEof => "UnexpectedEof"
  | outOfMemory => "OutOfMemory"
  | other => "Other"

/-- The text of an error of which only the kind is known. -/
def text : IoErrorKind → String
  | notFound => "entity not found"
  | permissionDenied => "permission denied"
  | connectionRefused => "connection refused"
  | connectionReset => "connection reset"
  | connectionAborted => "connection aborted"
  | notConnected => "not connected"
  | addrInUse => "address in use"
  | addrNotAvailable => "address not available"
  | brokenPipe => "broken pipe"
  | alreadyExists => "entity already exists"
  | wouldBlock => "operation would block"
  | invalidInput => "invalid input parameter"
  | invalidData => "invalid data"
  | timedOut => "timed out"
  | writeZero => "write zero"
  | interrupted => "operation interrupted"
  | unsupported => "unsupported"
  | unexpectedEof => "unexpected end of file"
  | outOfMemory => "out of memory"
  | other => "other error"

/-- The kind of a given name; a name that no kind has means `other`. -/
def ofName (s : String) : IoErrorKind :=
  (all.find? (·.name == s)).getD .other

/-- A kind of failure is read back from its own name. -/
theorem ofName_name (k : IoErrorKind) : ofName k.name = k := by
  cases k <;> rfl

end IoErrorKind

/-- An input or output error: its kind, and its message if it has one of its own. -/
structure IoError where
  kind : IoErrorKind
  message : Option String
  deriving DecidableEq, Repr

/-- The text of an error. -/
def IoError.text (e : IoError) : String :=
  e.message.getD e.kind.text

/-- How a shared stream fails. -/
inductive StreamError where
  /-- The underlying stream could not be opened. -/
  | openFailed (cause : IoError)
  /-- The underlying stream failed while it was read. -/
  | readFailed (cause : IoError)
  /-- The pump ended without reporting a result. -/
  | pumpPanicked
  /-- Nobody was left who wanted the stream when it had been opened. -/
  | released
  deriving DecidableEq, Repr

namespace StreamError

/-- The kind of input or output error that describes a failure best. -/
def kind : StreamError → IoErrorKind
  | openFailed cause => cause.kind
  | readFailed cause => cause.kind
  | pumpPanicked => .other
  | released => .connectionAborted

/-- The text of a failure. -/
def text : StreamError → String
  | openFailed cause => "failed to open stream: " ++ cause.text
  | readFailed cause => "stream read failed: " ++ cause.text
  | pumpPanicked => "stream pump terminated unexpectedly"
  | released => "stream was released while it was being opened"

/-- A failure as an input or output error. -/
def toIoError (e : StreamError) : IoError := ⟨e.kind, some e.text⟩

end StreamError

end CachedStreams
