import CachedStreams.Config.Basic
import CachedStreams.Files
import CachedStreams.Stream.Following

/-!
# The tail of a file

A file is opened as a stream of a cache of its own and followed to its end. The pump takes the file
in piece by piece; after each piece the watch for readiness runs, the call to open goes as far as it
can, and once that has the buffer the follower takes in what is new. The tail fails only if the
stream cannot be opened or the buffer cannot be released; a file that breaks off later ends it.
-/

set_option autoImplicit false

namespace CachedStreams

/-- A file that is being followed. -/
structure Tail where
  streams : StreamCache
  /-- The answer to the call to open. -/
  opened : Option (Except StreamError BufferId)
  follower : Follower

namespace Tail

/-- The call to open. -/
def openCall : CallId := 0

/-- The call to release the buffer. -/
def releaseCall : CallId := 1

/-- The only buffer. -/
def theBuffer : BufferId := 0

/-- How many bytes a look asks for. -/
def lookLength : Nat := 65536

/-- The call to open takes its steps until it waits, at most `steps` of them. -/
def proceed (now : Nat) : Nat → Tail → Tail
  | 0, t => t
  | steps + 1, t =>
    match t.streams.resume now openCall with
    | some (streams, notices) =>
      proceed now steps { t with
        streams
        opened := t.opened <|> StreamCache.openedIn notices }
    | none => t

/-- More steps than a call to open ever takes before it waits. -/
def openSteps : Nat := 8

/-- The follower takes in what is new, once the buffer is open. -/
def catchUp (t : Tail) : Tail :=
  match t.opened with
  | some (.ok id) =>
    match t.streams.buffers[id]? with
    | some b => { t with follower := t.follower.catchUp b lookLength }
    | none => t
  | _ => t

/-- Begin to open a stream of some name; its pump is about to open the file. -/
def start (c : Config) (now : Nat) (name : String) : Tail :=
  let t := proceed now openSteps
    ⟨(c.streamCache.apply now (.open openCall name none)).1, none, .initial⟩
  { t with streams := (t.streams.apply now (.buffer theBuffer (.pump .started))).1 }

/-- Something happens to the pump, and everybody else goes on. The pump of a file never panics, so it
makes no difference to the call what the watch heeds first. -/
def step (t : Tail) (now : Nat) (event : Buffer.PumpEvent) : Tail :=
  let streams := (t.streams.apply now (.buffer theBuffer (.pump event))).1
  let streams := (streams.apply now (.buffer theBuffer (.watch .timers))).1
  (proceed now openSteps { t with streams }).catchUp

/-- How much the next read may give. -/
def room (t : Tail) : Nat :=
  match t.streams.buffers[theBuffer]? with
  | some b => b.content.room
  | none => 0

/-- Read the rest of a file, in at most `reads` reads. -/
def readAll (now : Nat) : Nat → List UInt8 → Tail → Tail
  | 0, _, t => t
  | reads + 1, rest, t =>
    let piece := rest.take t.room
    let next := t.step now (.received piece)
    if piece.isEmpty then next else readAll now reads (rest.drop piece.length) next

/-- The error of opening or reading a file. -/
def fileError (fault : FileFault) : IoError :=
  ⟨if fault = .missing then .notFound else .other, some fault.text⟩

/-- Open a file and read it. -/
def feed (t : Tail) (now : Nat) : FileContent → Tail
  | .absent => t.step now (.openFailed (fileError .missing))
  | .directory => (t.step now .opened).step now (.readFailed (fileError .isDirectory))
  | .bytes bytes => readAll now (bytes.length + 1) bytes (t.step now .opened)

/-- The tail of a file that does not change, with the settings `c`. -/
def ofFile (c : Config) (name : String) (file : FileContent) : Tail :=
  (start c 0 name).feed 0 file

/-- The answer to the release of the buffer, if it is given at once. -/
def releasedIn (id : BufferId) : List StreamCache.Notice → Except StreamError Unit
  | .buffer other (.answered call result) :: rest =>
    if other = id ∧ call = releaseCall then result else releasedIn id rest
  | _ :: rest => releasedIn id rest
  | [] => .ok ()

/-- What the follower has received, unless opening or releasing the buffer failed. -/
def result (t : Tail) : Except StreamError (List UInt8) :=
  match t.opened with
  | some (.ok id) => do
    releasedIn id (t.streams.apply 0 (.buffer id (.release releaseCall))).2
    pure t.follower.received
  | some (.error e) => .error e
  | none => .error .pumpPanicked

end Tail

end CachedStreams
