import CachedStreams.Stream.StreamCache
import CachedStreams.Text.Quoted
import CachedStreams.Ticker
import CachedStreams.Bench.Script
import CachedStreams.Bench.Source

/-!
# Scripts for shared buffers and their cache

The operations of `StreamCache` and of its buffers as a subject for scripts, with underlying
streams that a script describes. Each pump and each watch for readiness is a task of its own, and
so is the sweep for expired buffers, which ends when nobody keeps the cache. A script names the
buffers it was given; for a single buffer there is one name and no sweep.
-/

set_option autoImplicit false

namespace CachedStreams.Bench

/-- An operation on a buffer. -/
inductive BufferOperation (τ : Type) where
  | join (opener : Opener τ)
  | retain
  | release
  | readAt (length offset : Nat)
  | snapshot
  | failure
  | name
  | describe
  /-- Whether anything was published since this was last asked. -/
  | touched

/-- An operation on a cache of buffers, or on a buffer under the name that the script gave it. -/
inductive StreamOperation (τ : Type) where
  | «open» (key handle : String) (opener : Opener τ) (transform : Option Transform)
  | remove (key : String)
  | flush
  | length
  | drop
  /-- Whether two names stand for one buffer. -/
  | same (first second : String)
  | on (handle : String) (operation : BufferOperation τ)

/-- What an operation gives. -/
inductive StreamResult where
  /-- A buffer was opened: its name and its consumers. -/
  | opened (name : String) (refs : Nat)
  | failed (error : StreamError)
  | succeeded
  | removed (present : Bool)
  | length (count : Nat)
  | flag (value : Bool)
  | bytes (bytes : List UInt8)
  | read (result : Except IoError (List UInt8))
  | failure (error : Option StreamError)
  | text (text : String)
  /-- The script has let go of the cache. -/
  | dropped
  /-- The script has given no buffer that name. -/
  | noHandle

/-- What the journal of such a script shows. -/
inductive StreamEvent (τ : Type) where
  | opening (tag : τ)
  /-- A read of `room` bytes gave `count`. -/
  | read (room count : Nat)
  /-- A read of `room` bytes failed. -/
  | readFailed (room : Nat)
  | readerDropped (tag : τ)
  | transformed (length fresh : Nat)

/-- What a pump has in hand. -/
inductive PumpScript (τ : Type) where
  | opener (opener : Opener τ)
  /-- An open stream, and whether the time that its next piece takes has been started. -/
  | source (tag : τ) (source : Source) (delayed : Bool)

/-- What a task is doing. -/
inductive StreamTask (τ : Type) where
  /-- An operation that has not begun. -/
  | operation (operation : StreamOperation τ)
  /-- An operation on a cache that the script has let go of. -/
  | refused
  /-- A call to open, and the name for the buffer it gets. -/
  | «open» (handle : String) (opener : Opener τ)
  /-- Another call of the cache. -/
  | call
  /-- A call on a buffer, and its result once there is one. -/
  | bufferCall (result : Option (Except StreamError Unit))
  | pump (buffer : BufferId) (script : PumpScript τ)
  | watch (buffer : BufferId)
  /-- A sweep that has not run yet. -/
  | newSweep
  /-- The sweep waits for its next due time. -/
  | sweep (ticker : Ticker)
  /-- The sweep is purging the cache. -/
  | sweeping (ticker : Ticker)

/-- Whether a task keeps the cache. -/
def StreamTask.keepsCache {τ : Type} : StreamTask τ → Bool
  | .open _ _ => true
  | call => true
  | _ => false

/-- A cache of buffers and the tasks that use it. -/
structure StreamBench (τ : Type) where
  cache : StreamCache
  /-- Whether the script keeps the cache. -/
  held : Bool
  tasks : CallTable (StreamTask τ)
  /-- The buffers that the script has named. -/
  handles : List (String × BufferId)
  pumps : List (BufferId × TaskId)
  watches : List (BufferId × TaskId)
  /-- The task that sweeps for expired buffers. -/
  sweeper : Option TaskId
  /-- How many publications of each buffer the script has been told of. -/
  seen : List (BufferId × Nat)

namespace StreamBench

variable {τ : Type}

/-- A bench with a cache; its sweep is the first task. -/
def withCache (cache : StreamCache) : StreamBench τ :=
  ⟨cache, true, CallTable.empty.set 0 .newSweep, [], [], [], some 0, []⟩

/-- A bench with a single buffer, whose name is empty. -/
def withBuffer (buffer : Buffer) : StreamBench τ :=
  ⟨{ StreamCache.create 1 0 buffer.options with buffers := [buffer] }, true, .empty, [("", 0)], [],
    [], none, []⟩

/-- The buffer of a name that the script has given. -/
def handle? (b : StreamBench τ) (handle : String) : Option BufferId := b.handles.lookup handle

/-- The pump of a buffer. -/
def pump? (b : StreamBench τ) (id : BufferId) : Option Pump :=
  match b.cache.buffers[id]? with
  | some buffer => buffer.pump
  | none => none

/-- Whether an operation needs the cache that the script holds. -/
def needsCache : StreamOperation τ → Bool
  | .same _ _ => false
  | .on _ _ => false
  | _ => true

/-- Register the operation of a new task. -/
def start (task : TaskId) (operation : StreamOperation τ) (b : StreamBench τ) : StreamBench τ :=
  let doing := if needsCache operation && !b.held then .refused else .operation operation
  { b with tasks := b.tasks.set task doing }

/-- Record what a task is doing. -/
def become (b : StreamBench τ) (task : TaskId) (doing : StreamTask τ) : StreamBench τ :=
  { b with tasks := b.tasks.set task doing }

/-- The agenda after waking a task that may not exist. -/
def wakeTask (agenda : Agenda (StreamEvent τ)) : Option TaskId → Agenda (StreamEvent τ)
  | some task => agenda.wake task
  | none => agenda

/-- The tag of the stream that a buffer's pump has open. -/
def sourceTag (b : StreamBench τ) (id : BufferId) : Option τ :=
  match (b.pumps.lookup id).bind b.tasks.find? with
  | some (.pump _ (.source tag _ _)) => some tag
  | _ => none

/-- Put what a buffer makes known into effect. A pump that is started runs with the opener of the
task that started it. -/
def heedBuffer (opener : Option (Opener τ)) (b : StreamBench τ)
    (agenda : Agenda (StreamEvent τ)) (id : BufferId) (notice : Buffer.Notice) :
    StreamBench τ × Agenda (StreamEvent τ) :=
  match notice with
  | .answered call result =>
    match b.tasks.find? call with
    | some (.bufferCall _) => (b.become call (.bufferCall (some result)), agenda.wake call)
    | _ => (b, agenda)
  | .retained _ => (b, agenda)
  | .pumpStarted =>
    match opener with
    | some opener =>
      let (task, agenda) := agenda.spawn
      ({ b.become task (.pump id (.opener opener)) with
          pumps := (id, task) :: b.pumps.filter (·.1 != id) }, agenda)
    | none => (b, agenda)
  | .openCalled => (b, agenda)
  | .watchStarted =>
    let (task, agenda) := agenda.spawn
    ({ b.become task (.watch id) with watches := (id, task) :: b.watches }, agenda)
  | .transformed length fresh => (b, agenda.log (.transformed length fresh))
  | .arrived => (b, wakeTask agenda (b.watches.lookup id))
  | .readerDropped =>
    match b.sourceTag id with
    | some tag => (b, agenda.log (.readerDropped tag))
    | none => (b, agenda)
  | .releaseAsked => (b, wakeTask agenda (b.pumps.lookup id))
  | .pumpEnded => (b, wakeTask agenda (b.watches.lookup id))

/-- Put what the cache makes known into effect. -/
def heed (opener : Option (Opener τ)) (b : StreamBench τ) (agenda : Agenda (StreamEvent τ)) :
    List StreamCache.Notice → StreamBench τ × Agenda (StreamEvent τ)
  | [] => (b, agenda)
  | .ready call :: rest => heed opener b (agenda.wake call) rest
  | .buffer id notice :: rest =>
    let (b, agenda) := b.heedBuffer opener agenda id notice
    heed opener b agenda rest
  | .opened _ _ :: rest => heed opener b agenda rest
  | .answered _ _ :: rest => heed opener b agenda rest

/-- Let an event happen to the cache and put its notices into effect. -/
def applyEvent (b : StreamBench τ) (opener : Option (Opener τ)) (agenda : Agenda (StreamEvent τ))
    (event : StreamCache.Event) :
    StreamBench τ × Agenda (StreamEvent τ) × List StreamCache.Notice :=
  let (cache, notices) := b.cache.apply agenda.now event
  let (b, agenda) := { b with cache }.heed opener agenda notices
  (b, agenda, notices)

/-- Whether anybody keeps the cache. -/
def isKept (b : StreamBench τ) : Bool :=
  b.held || b.tasks.rows.any fun row => row.2.keepsCache

/-- When nobody keeps the cache any more, its sweep is given up. -/
def dropUnkept (b : StreamBench τ) (agenda : Agenda (StreamEvent τ)) :
    StreamBench τ × Agenda (StreamEvent τ) :=
  match b.sweeper with
  | some task =>
    if b.isKept then (b, agenda)
    else
      let (b, agenda, _) := b.applyEvent none agenda (.abort task)
      ({ b with tasks := b.tasks.erase task, sweeper := none }, agenda.forget task)
  | none => (b, agenda)

/-- A task ends. -/
def finish (b : StreamBench τ) (task : TaskId) (agenda : Agenda (StreamEvent τ))
    (answer : Answer StreamResult) : Turn (StreamBench τ) (StreamEvent τ) StreamResult :=
  let (b, agenda) := { b with tasks := b.tasks.erase task }.dropUnkept agenda
  .finish b agenda answer

/-- A task ends with a result. -/
def give (b : StreamBench τ) (task : TaskId) (agenda : Agenda (StreamEvent τ))
    (result : StreamResult) : Turn (StreamBench τ) (StreamEvent τ) StreamResult :=
  b.finish task agenda (.gave result)

/-- One line about a buffer. -/
def describe (b : Buffer) : String :=
  "StreamingBuffer \x7b name: " ++ Text.quoted b.name ++ ", size: " ++ toString b.size ++
    ", refcount: " ++ toString b.refs ++ ", phase: " ++ b.phase.name ++ ", .. \x7d"

/-- A task begins an operation on a buffer. -/
def beginOn (b : StreamBench τ) (task : TaskId) (agenda : Agenda (StreamEvent τ)) (id : BufferId)
    (buffer : Buffer) :
    BufferOperation τ → Turn (StreamBench τ) (StreamEvent τ) StreamResult
  | .join opener => bufferCall (some opener) (.join task)
  | .release => bufferCall none (.release task)
  | .retain =>
    let (b, agenda, _) := b.applyEvent none agenda (.buffer id .retain)
    b.give task agenda (.flag buffer.retain.2)
  | .readAt length offset => b.give task agenda (.read (buffer.readAt length offset))
  | .snapshot => b.give task agenda (.bytes buffer.snapshot)
  | .failure => b.give task agenda (.failure buffer.failure)
  | .name => b.give task agenda (.text buffer.name)
  | .describe => b.give task agenda (.text (describe buffer))
  | .touched =>
    let known := (b.seen.lookup id).getD 0
    { b with seen := (id, buffer.commits) :: b.seen.filter (·.1 != id) }.give task agenda
      (.flag (known != buffer.commits))
where
  /-- Begin a call on the buffer. -/
  bufferCall (opener : Option (Opener τ)) (event : Buffer.Event) :
      Turn (StreamBench τ) (StreamEvent τ) StreamResult :=
    let (b, agenda, _) :=
      (b.become task (.bufferCall none)).applyEvent opener agenda (.buffer id event)
    .again b agenda

/-- A task begins its operation. -/
def beginOperation (b : StreamBench τ) (task : TaskId) (agenda : Agenda (StreamEvent τ)) :
    StreamOperation τ → Turn (StreamBench τ) (StreamEvent τ) StreamResult
  | .open key handle opener transform =>
    let (b, agenda, _) := b.applyEvent none agenda (.open task key transform)
    .again (b.become task (.open handle opener)) agenda
  | .remove key => call (.remove key)
  | .flush => call .flush
  | .length => b.give task agenda (.length b.cache.size)
  | .drop => { b with held := false }.finish task agenda .nothing
  | .same first second =>
    match b.handle? first, b.handle? second with
    | some x, some y => b.give task agenda (.flag (x == y))
    | _, _ => b.give task agenda .noHandle
  | .on handle operation =>
    match b.handle? handle with
    | none => b.give task agenda .noHandle
    | some id =>
      match b.cache.buffers[id]? with
      | none => b.give task agenda .noHandle
      | some buffer => b.beginOn task agenda id buffer operation
where
  /-- Begin a call of the cache. -/
  call (request : KeyedCache.Request BufferId StreamError) :
      Turn (StreamBench τ) (StreamEvent τ) StreamResult :=
    let (b, agenda, _) := b.applyEvent none agenda (.call task request)
    .again (b.become task .call) agenda

/-- The answer of a call of the cache, as the result of an operation. -/
def replyResult : KeyedCache.Reply BufferId StreamError → Answer StreamResult
  | .removed present => .gave (.removed present)
  | _ => .nothing

/-- A call to open has its answer: its buffer gets its name. -/
def finishOpen (b : StreamBench τ) (task : TaskId) (agenda : Agenda (StreamEvent τ))
    (handle : String) (result : Except StreamError BufferId) :
    Turn (StreamBench τ) (StreamEvent τ) StreamResult :=
  match result with
  | .error e => b.give task agenda (.failed e)
  | .ok id =>
    match b.cache.buffers[id]? with
    | none => b.give task agenda .noHandle
    | some buffer =>
      { b with handles := (handle, id) :: b.handles.filter (·.1 != handle) }.give task agenda
        (.opened buffer.name buffer.refs)

/-- The answer of another call among some notices. -/
def replyIn : List StreamCache.Notice → Option (KeyedCache.Reply BufferId StreamError)
  | [] => none
  | .answered _ reply :: _ => some reply
  | _ :: rest => replyIn rest

/-- One step of a call of the cache. -/
def resumeCall (b : StreamBench τ) (task : TaskId) (opener : Option (Opener τ))
    (agenda : Agenda (StreamEvent τ)) :
    Option (StreamBench τ × Agenda (StreamEvent τ) × List StreamCache.Notice) :=
  (b.cache.resume agenda.now task).map fun _ => b.applyEvent opener agenda (.resume task)

/-- A pump does something; when it is over its task ends. -/
def pumpDoes (b : StreamBench τ) (task : TaskId) (agenda : Agenda (StreamEvent τ)) (id : BufferId)
    (event : Buffer.PumpEvent) : Turn (StreamBench τ) (StreamEvent τ) StreamResult :=
  let (b, agenda, _) := b.applyEvent none agenda (.buffer id (.pump event))
  match b.pump? id with
  | some ⟨_, .ended _, _, _, _, _⟩ => b.finish task agenda .nothing
  | _ => .again b agenda

/-- One step of opening a stream. -/
def stepOpening (b : StreamBench τ) (task : TaskId) (agenda : Agenda (StreamEvent τ))
    (id : BufferId) (opener : Opener τ) : Turn (StreamBench τ) (StreamEvent τ) StreamResult :=
  if agenda.isSet task .delay then .pause b agenda
  else
    match opener.ending with
    | .panics => b.pumpDoes task agenda id .openPanicked
    | .fails cause => b.pumpDoes task agenda id (.openFailed cause)
    | .opens source =>
      (b.become task (.pump id (.source opener.tag source false))).pumpDoes task agenda id .opened

/-- One read of up to `room` bytes. -/
def stepReading (b : StreamBench τ) (task : TaskId) (agenda : Agenda (StreamEvent τ))
    (id : BufferId) (tag : τ) (source : Source) (delayed : Bool) (room : Nat) :
    Turn (StreamBench τ) (StreamEvent τ) StreamResult :=
  if room = 0 then b.pumpDoes task (agenda.log (.read 0 0)) id (.received [])
  else if agenda.isSet task .delay then .pause b agenda
  else if !delayed && source.nextDelay != 0 then
    .again (b.become task (.pump id (.source tag source true)))
      (agenda.setFor task .delay source.nextDelay)
  else
    match source.serve room, source.ending with
    | some (bytes, left), _ =>
      (b.become task (.pump id (.source tag left false))).pumpDoes task
        (agenda.log (.read room bytes.length)) id (.received bytes)
    | none, .ends => b.pumpDoes task (agenda.log (.read room 0)) id (.received [])
    | none, .fails cause =>
      b.pumpDoes task (agenda.log (.readFailed room)) id (.readFailed cause)
    | none, .panics => b.pumpDoes task agenda id .readPanicked
    | none, .hangs => .pause b agenda

/-- One step of a pump. It calls for its stream when it first runs, and from then on looks first
whether it is asked to end; what the call gave does nothing before it is waited for. -/
def stepPump (b : StreamBench τ) (task : TaskId) (agenda : Agenda (StreamEvent τ)) (id : BufferId)
    (script : PumpScript τ) : Turn (StreamBench τ) (StreamEvent τ) StreamResult :=
  match b.cache.buffers[id]? with
  | none => .pause b agenda
  | some buffer =>
    match buffer.pump, script with
    | none, _ => .pause b agenda
    | some pump, script =>
      match pump.stage, pump.releaseAsked, script with
      | .starting, true, _ =>
        let (b, agenda, _) := b.applyEvent none agenda (.buffer id (.pump .started))
        .again b agenda
      | _, true, _ => b.pumpDoes task agenda id .releaseSeen
      | .starting, false, .opener opener =>
        let (b, agenda, _) :=
          b.applyEvent none (agenda.log (.opening opener.tag)) (.buffer id (.pump .started))
        .again b (match opener.delay with
          | some d => agenda.setFor task .delay d
          | none => agenda)
      | _, false, .opener opener => b.stepOpening task agenda id opener
      | _, false, .source tag source delayed =>
        b.stepReading task agenda id tag source delayed buffer.content.room

/-- One step of a watch for readiness, which heeds its timers first. -/
def stepWatch (b : StreamBench τ) (task : TaskId) (agenda : Agenda (StreamEvent τ))
    (id : BufferId) : Turn (StreamBench τ) (StreamEvent τ) StreamResult :=
  let (b, agenda, _) := b.applyEvent none agenda (.buffer id (.watch .timers))
  match b.pump? id with
  | some ⟨_, _, _, _, _, .watching deadline quiet _⟩ =>
    .pause b ((agenda.set task .deadline deadline).set task .quiet quiet)
  | _ => b.finish task agenda .nothing

/-- The sweep looks whether it is due, and purges the cache when it is. -/
def stepSweep (b : StreamBench τ) (task : TaskId) (agenda : Agenda (StreamEvent τ))
    (ticker : Ticker) : Turn (StreamBench τ) (StreamEvent τ) StreamResult :=
  let due := Clock.roundUp ticker.due
  if agenda.now < due then .pause b (agenda.set task .delay due)
  else
    let (b, agenda, _) := b.applyEvent none agenda (.call task .purge)
    .again (b.become task (.sweeping (ticker.next agenda.now))) agenda

/-- One step of a task. -/
def step (task : TaskId) (b : StreamBench τ) (agenda : Agenda (StreamEvent τ)) :
    Turn (StreamBench τ) (StreamEvent τ) StreamResult :=
  match b.tasks.find? task with
  | none => .pause b agenda
  | some .refused => b.give task agenda .dropped
  | some (.operation operation) => b.beginOperation task agenda operation
  | some (.open handle opener) =>
    match b.resumeCall task (some opener) agenda with
    | none => .pause b agenda
    | some (b, agenda, notices) =>
      match StreamCache.openedIn notices with
      | some result => b.finishOpen task agenda handle result
      | none => .again b agenda
  | some .call =>
    match b.resumeCall task none agenda with
    | none => .pause b agenda
    | some (b, agenda, notices) =>
      match replyIn notices with
      | some reply => b.finish task agenda (replyResult reply)
      | none => .again b agenda
  | some (.bufferCall none) => .pause b agenda
  | some (.bufferCall (some (.ok ()))) => b.give task agenda .succeeded
  | some (.bufferCall (some (.error e))) => b.give task agenda (.failed e)
  | some (.pump id script) => b.stepPump task agenda id script
  | some (.watch id) => b.stepWatch task agenda id
  | some .newSweep =>
    .again (b.become task (.sweep (.starting agenda.now b.cache.sweepPeriod))) agenda
  | some (.sweep ticker) => b.stepSweep task agenda ticker
  | some (.sweeping ticker) =>
    match b.resumeCall task none agenda with
    | none => .pause b agenda
    | some (b, agenda, notices) =>
      match replyIn notices with
      | some _ => .again (b.become task (.sweep ticker)) agenda
      | none => .again b agenda

/-- Give up a task and the calls it makes. -/
def cancel (task : TaskId) (b : StreamBench τ) (agenda : Agenda (StreamEvent τ)) :
    StreamBench τ × Agenda (StreamEvent τ) :=
  let (b, agenda, _) := b.applyEvent none agenda (.abort task)
  { b with tasks := b.tasks.erase task }.dropUnkept agenda

/-- Shared buffers and their cache as a subject for scripts. -/
def subject : Subject (StreamOperation τ) (StreamBench τ) (StreamEvent τ) StreamResult :=
  ⟨start, step, cancel⟩

/-- The steps of a script on an empty cache. -/
def runCacheScript (cache : StreamCache) (commands : List (Command (StreamOperation τ))) :
    List (Step (StreamBench τ) (StreamEvent τ) StreamResult) :=
  let (_, agenda) := (Agenda.initial : Agenda (StreamEvent τ)).spawn
  runCommands subject ⟨withCache cache, agenda, none, [], [], 0⟩ commands

/-- The steps of a script on a single buffer. -/
def runBufferScript (buffer : Buffer) (commands : List (Command (BufferOperation τ))) :
    List (Step (StreamBench τ) (StreamEvent τ) StreamResult) :=
  runCommands subject ⟨withBuffer buffer, .initial, none, [], [], 0⟩
    (commands.map (·.map (.on "")))

/-- The buffer of a script on a single buffer. -/
def theBuffer? (b : StreamBench τ) : Option Buffer := b.cache.buffers[0]?

/-- The named buffers. -/
def namedBuffers (b : StreamBench τ) : List (String × Buffer) :=
  b.handles.filterMap fun (handle, id) => (b.cache.buffers[id]?).map fun buffer => (handle, buffer)

/-- The number of entries, unless the script has let go of the cache. -/
def length? (b : StreamBench τ) : Option Nat := if b.held then some b.cache.size else none

end StreamBench

end CachedStreams.Bench
