import CachedStreams.KeyedCache.Basic
import CachedStreams.Stream.Pumping

/-!
# A cache of shared buffers

Openers of the same key share one buffer. The cache is a registered consumer of every buffer it
stores: the generator of a key creates a buffer and registers with it, and the eviction hook
releases it. An opener registers on its own account before it gets the buffer. If nobody is
registered any more with the buffer that it found, it removes exactly that buffer from the cache
and tries again, unless it has already used its way to open the stream.

`StreamCache.apply` composes the machines of the keyed cache and of the buffers: a call of the cache
that lets a generator or a hook run is, for that time, a call on a buffer under the same name.
-/

set_option autoImplicit false

namespace CachedStreams

/-- Names a buffer by its place in the order of creation. -/
abbrev BufferId := Nat

/-- How far a call to open has come. -/
inductive OpenStage where
  /-- The buffer of the key is looked up or generated. -/
  | fetching
  /-- A buffer was found; the call is about to register with it. -/
  | holding (buffer : BufferId)
  /-- The buffer had no consumers left; its entry is being removed. -/
  | unlinking
  deriving DecidableEq, Repr

/-- A call to open. -/
structure OpenCall where
  key : String
  transform : Option Transform
  /-- Whether the call can still open the underlying stream. -/
  unused : Bool
  stage : OpenStage

/-- What a generator or a hook is doing, and its result once there is one. -/
inductive Errand where
  /-- A generator waits for its new buffer to become ready. -/
  | starting (buffer : BufferId) (result : Option (Except StreamError Unit))
  /-- A hook releases a buffer. -/
  | releasing (buffer : BufferId) (ended : Bool)
  /-- A hook has nothing to release. -/
  | idle

/-- A cache of shared buffers. -/
structure StreamCache where
  /-- How long a buffer stays in the cache. -/
  ttl : Nat
  /-- The options of new buffers. -/
  options : BufferOptions
  keyed : KeyedCache BufferId StreamError
  /-- Every buffer that was ever created. -/
  buffers : List Buffer
  opens : CallTable OpenCall
  errands : CallTable Errand

namespace StreamCache

/-- What can happen to the cache and its buffers. -/
inductive Event where
  /-- A call to open a key begins. -/
  | «open» (call : CallId) (key : String) (transform : Option Transform)
  /-- Any other call of the cache begins. -/
  | call (call : CallId) (request : KeyedCache.Request BufferId StreamError)
  /-- A call takes its next step, if it can. -/
  | resume (call : CallId)
  /-- A call is given up. -/
  | abort (call : CallId)
  /-- Something happens to a buffer. -/
  | buffer (id : BufferId) (event : Buffer.Event)

/-- What the cache makes known to whoever drives it. -/
inductive Notice where
  /-- A call to open has its answer. -/
  | opened (call : CallId) (result : Except StreamError BufferId)
  /-- Another call of the cache has its answer. -/
  | answered (call : CallId) (reply : KeyedCache.Reply BufferId StreamError)
  /-- A call that waited can go on. -/
  | ready (call : CallId)
  /-- A buffer makes something known. -/
  | buffer (id : BufferId) (notice : Buffer.Notice)

/-- The answer of a call to open among some notices. -/
def openedIn : List Notice → Option (Except StreamError BufferId)
  | [] => none
  | .opened _ result :: _ => some result
  | _ :: rest => openedIn rest

/-- A cache without buffers. -/
def create (lanes ttl : Nat) (options : BufferOptions) : StreamCache :=
  ⟨ttl, options, .create lanes, [], .empty, .empty⟩

/-- How long at least passes between two sweeps for expired buffers. -/
def minSweepPeriod : Nat := Duration.ofMillis 10

/-- How often expired buffers are swept. -/
def sweepPeriod (c : StreamCache) : Nat := max c.ttl minSweepPeriod

/-- The number of cached entries, failures included. -/
def size (c : StreamCache) : Nat := c.keyed.table.size

/-- Pass on what a buffer makes known. An answer to a generator or a hook is kept for it. -/
def relay (c : StreamCache) (id : BufferId) : List Buffer.Notice → StreamCache × List Notice
  | [] => (c, [])
  | .answered call result :: rest =>
    let (c, notice) := match c.errands.find? call with
      | some (.starting _ _) =>
        ({ c with errands := c.errands.set call (.starting id (some result)) }, Notice.ready call)
      | some (.releasing _ _) =>
        ({ c with errands := c.errands.set call (.releasing id true) }, Notice.ready call)
      | _ => (c, Notice.buffer id (.answered call result))
    let (c, notices) := c.relay id rest
    (c, notice :: notices)
  | notice :: rest =>
    let (c, notices) := c.relay id rest
    (c, .buffer id notice :: notices)

/-- Let something happen to a buffer. -/
def applyBuffer (c : StreamCache) (now : Nat) (id : BufferId) (event : Buffer.Event) :
    StreamCache × List Notice :=
  match c.buffers[id]? with
  | none => (c, [])
  | some b =>
    let (b, notices) := b.apply now event
    { c with buffers := c.buffers.set id b }.relay id notices

/-- The generator of a call creates a buffer and registers with it. A call that has used its way to
open the stream cannot. -/
def generate (c : StreamCache) (now : Nat) (call : CallId) (key : String) :
    StreamCache × List Notice :=
  match c.opens.find? call with
  | some o =>
    if o.unused then
      let id := c.buffers.length
      { c with
        buffers := c.buffers ++ [Buffer.create key c.options o.transform]
        opens := c.opens.set call { o with unused := false }
        errands := c.errands.set call (.starting id none) }.applyBuffer now id (.join call)
    else
      ({ c with keyed := (c.keyed.apply now (.generated call (.error .released))).1 }, [])
  | none => (c, [])

/-- The hook of a call releases the buffer of an entry that it removed. -/
def evict (c : StreamCache) (now : Nat) (call : CallId) (result : Except StreamError BufferId) :
    StreamCache × List Notice :=
  match result with
  | .ok id =>
    { c with errands := c.errands.set call (.releasing id false) }.applyBuffer now id
      (.release call)
  | .error _ => ({ c with errands := c.errands.set call .idle }, [])

/-- Begin to look the key of a call to open up. -/
def fetch (c : StreamCache) (now : Nat) (call : CallId) (o : OpenCall) : StreamCache :=
  { c with
    opens := c.opens.set call { o with stage := .fetching }
    keyed := (c.keyed.apply now (.call call (.getOrUpdate o.key c.ttl))).1 }

/-- End a call to open. -/
def finishOpen (c : StreamCache) (call : CallId) (result : Except StreamError BufferId) :
    StreamCache × List Notice :=
  ({ c with opens := c.opens.erase call }, [.opened call result])

/-- A call of the keyed cache has its answer. -/
def answer (c : StreamCache) (now : Nat) (call : CallId)
    (reply : KeyedCache.Reply BufferId StreamError) : StreamCache × List Notice :=
  match c.opens.find? call with
  | none => (c, [.answered call reply])
  | some o =>
    match o.stage, reply with
    | .fetching, .result (.ok id) =>
      ({ c with opens := c.opens.set call { o with stage := .holding id } }, [])
    | .fetching, .result (.error e) => c.finishOpen call (.error e)
    | .unlinking, _ =>
      if o.unused then (c.fetch now call o, []) else c.finishOpen call (.error .released)
    | _, _ => (c, [])

/-- Put what the keyed cache makes known into effect. -/
def heed (now : Nat) : StreamCache → List (KeyedCache.Notice BufferId StreamError) →
    StreamCache × List Notice
  | c, [] => (c, [])
  | c, notice :: rest =>
    let (c, first) := match notice with
      | .generate call key => c.generate now call key
      | .stored _ _ _ => (c, [])
      | .evict call _ entry => c.evict now call entry.result
      | .admitted call => (c, [.ready call])
      | .answered call reply => c.answer now call reply
    let (c, others) := heed now c rest
    (c, first ++ others)

/-- Let something happen to the keyed cache. -/
def applyKeyed (c : StreamCache) (now : Nat) (event : KeyedCache.Event BufferId StreamError) :
    StreamCache × List Notice :=
  let (keyed, notices) := c.keyed.apply now event
  heed now { c with keyed } notices

/-- Whether a result is a given buffer. -/
def isBuffer (id : BufferId) : Except StreamError BufferId → Bool
  | .ok other => other == id
  | .error _ => false

/-- A call to open registers with the buffer it found, or begins to remove that from the cache. -/
def register (c : StreamCache) (now : Nat) (call : CallId) (o : OpenCall) (id : BufferId) :
    StreamCache × List Notice :=
  match c.buffers[id]? with
  | none => (c, [])
  | some b =>
    match b.retain with
    | (b, true) => { c with buffers := c.buffers.set id b }.finishOpen call (.ok id)
    | (_, false) =>
      { c with opens := c.opens.set call { o with stage := .unlinking } }.applyKeyed now
        (.call call (.removeIf o.key (isBuffer id)))

/-- The next step of a call, or `none` if it has to wait or is not in progress. -/
def resume (c : StreamCache) (now : Nat) (call : CallId) : Option (StreamCache × List Notice) :=
  match c.errands.find? call with
  | some (.starting id (some result)) =>
    some ({ c with errands := c.errands.erase call }.applyKeyed now
      (.generated call (result.map fun _ => id)))
  | some (.starting _ none) => none
  | some (.releasing _ true) =>
    some ({ c with errands := c.errands.erase call }.applyKeyed now (.evicted call))
  | some (.releasing _ false) => none
  | some .idle =>
    some ({ c with errands := c.errands.erase call }.applyKeyed now (.evicted call))
  | none =>
    match c.opens.find? call with
    | some ⟨key, transform, unused, .holding id⟩ =>
      some (c.register now call ⟨key, transform, unused, .holding id⟩ id)
    | _ =>
      (c.keyed.resume now call).map fun (keyed, notices) => heed now { c with keyed } notices

/-- Give up a call; a pump that it started goes on. -/
def abort (c : StreamCache) (now : Nat) (call : CallId) : StreamCache × List Notice :=
  let c := { c with
    buffers := c.buffers.map (Buffer.abandon · call)
    opens := c.opens.erase call
    errands := c.errands.erase call }
  c.applyKeyed now (.abort call)

/-- What one event does. -/
def apply (c : StreamCache) (now : Nat) : Event → StreamCache × List Notice
  | .open call key transform => (c.fetch now call ⟨key, transform, true, .fetching⟩, [])
  | .call call request => c.applyKeyed now (.call call request)
  | .resume call => (c.resume now call).getD (c, [])
  | .abort call => c.abort now call
  | .buffer id event => c.applyBuffer now id event

end StreamCache

end CachedStreams
