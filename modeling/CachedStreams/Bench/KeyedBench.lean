import CachedStreams.KeyedCache.Basic
import CachedStreams.Ticker
import CachedStreams.Bench.Generator
import CachedStreams.Bench.Script

/-!
# Scripts for a cache of results by key

The operations of `KeyedCache` as a subject for scripts, with generators that a script describes,
one of four eviction hooks, and janitors that purge the cache regularly. The script can let go of
the cache; background operations keep it until they end, and a janitor stops when it comes to
purge a cache that nobody keeps.
-/

set_option autoImplicit false

namespace CachedStreams.Bench

/-- What happens to an entry that leaves the cache. -/
inductive EvictionHook where
  /-- Nothing. -/
  | silent
  /-- The journal shows the entry. -/
  | logging
  /-- The journal shows the entry, and after a while that the hook has finished. -/
  | slow (delay : Nat)
  /-- A value is released, which the journal shows. -/
  | releasing
  deriving DecidableEq, Repr

/-- Which results a conditional removal accepts. -/
inductive RemovalTest (V : Type) where
  | any
  | values
  | failures
  | equalTo (result : Except String V)

/-- Whether a removal test accepts a result. -/
def RemovalTest.accepts {V : Type} [DecidableEq V] : RemovalTest V → Except String V → Bool
  | any, _ => true
  | values, .ok _ => true
  | failures, .error _ => true
  | equalTo (.ok v), .ok w => v == w
  | equalTo (.error e), .error f => e == f
  | _, _ => false

/-- An operation on a keyed cache. -/
inductive KeyedOperation (V : Type) where
  | get (key : String)
  | getOrUpdate (key : String) (ttl : Nat) (generator : Generator V String)
  | set (key : String) (ttl : Nat) (value : V)
  | remove (key : String)
  | removeIf (key : String) (test : RemovalTest V)
  | flush
  | purge
  | length
  | startJanitor (period : Nat)
  | janitorStates
  | drop

/-- What an operation on a keyed cache gives. -/
inductive KeyedResult (V : Type) where
  | reply (reply : KeyedCache.Reply V String)
  | length (count : Nat)
  /-- For each janitor in the order of creation, whether it is still running. -/
  | janitors (running : List Bool)
  /-- The script has let go of the cache. -/
  | dropped

/-- What the journal of such a script shows. -/
inductive KeyedEvent (V : Type) where
  | generatorStarted (key : String)
  | generatorEnded (key : String)
  | evicting (key : String) (result : Except String V)
  | evicted (key : String)
  | released (value : V)

/-- What a task is doing. -/
inductive KeyedTask (V : Type) where
  /-- An operation that has not begun. -/
  | operation (operation : KeyedOperation V)
  /-- A call of the cache, with its generator and the key that its hook is busy with. -/
  | call (generator : Option (Generator V String)) (evicting : Option String)
  /-- An operation on a cache that the script has let go of. -/
  | refused
  /-- A janitor that has not run yet. -/
  | newJanitor (period : Nat)
  /-- A janitor that waits for its next due time. -/
  | janitor (ticker : Ticker)
  /-- A janitor that is purging the cache. -/
  | purging (ticker : Ticker) (evicting : Option String)

/-- Whether a task keeps the cache. -/
def KeyedTask.keepsCache {V : Type} : KeyedTask V → Bool
  | operation _ => true
  | call _ _ => true
  | refused => false
  | newJanitor _ => false
  | janitor _ => false
  | purging _ _ => true

/-- A keyed cache and the tasks that use it. -/
structure KeyedBench (V : Type) where
  cache : KeyedCache V String
  hook : EvictionHook
  /-- Whether the script keeps the cache. -/
  held : Bool
  tasks : CallTable (KeyedTask V)
  /-- The janitors in the order of creation. -/
  janitors : List TaskId

namespace KeyedBench

variable {V : Type} [DecidableEq V]

/-- A bench with an empty cache. -/
def create (lanes : Nat) (hook : EvictionHook) : KeyedBench V :=
  ⟨.create lanes, hook, true, .empty, []⟩

/-- Whether anybody keeps the cache. -/
def isKept (b : KeyedBench V) : Bool :=
  b.held || b.tasks.rows.any fun row => row.2.keepsCache

/-- Whether an operation needs the cache that the script holds. -/
def needsCache : KeyedOperation V → Bool
  | .janitorStates => false
  | _ => true

/-- Register the operation of a new task. -/
def start (task : TaskId) (operation : KeyedOperation V) (b : KeyedBench V) : KeyedBench V :=
  let doing := if needsCache operation && !b.held then .refused else .operation operation
  { b with tasks := b.tasks.set task doing }

/-- Record what a task is doing. -/
def become (b : KeyedBench V) (task : TaskId) (doing : KeyedTask V) : KeyedBench V :=
  { b with tasks := b.tasks.set task doing }

/-- Begin a call of the cache. -/
def callCache (b : KeyedBench V) (task : TaskId) (request : KeyedCache.Request V String) :
    KeyedBench V :=
  { b with cache := (b.cache.apply 0 (.call task request)).1 }

/-- How a call of the cache goes on. -/
inductive CallTurn (V : Type) where
  /-- It can go on at once; its hook is busy with the given key. -/
  | again (bench : KeyedBench V) (agenda : Agenda (KeyedEvent V)) (evicting : Option String)
  | pause (bench : KeyedBench V) (agenda : Agenda (KeyedEvent V))
  | answered (bench : KeyedBench V) (agenda : Agenda (KeyedEvent V))
      (reply : KeyedCache.Reply V String)
  | panicked (bench : KeyedBench V) (agenda : Agenda (KeyedEvent V))

/-- Put the notices of the cache into effect: calls that were admitted are woken, generators and
hooks are started. -/
def heed (hook : EvictionHook) (generator : Option (Generator V String))
    (agenda : Agenda (KeyedEvent V)) :
    List (KeyedCache.Notice V String) → Agenda (KeyedEvent V)
  | [] => agenda
  | .generate call key :: rest =>
    let agenda := agenda.log (.generatorStarted key)
    heed hook generator
      (match generator.bind (·.delay) with
        | some d => agenda.setFor call .delay d
        | none => agenda) rest
  | .evict call key entry :: rest =>
    heed hook generator
      (match hook, entry.result with
        | .silent, _ => agenda
        | .logging, result => agenda.log (.evicting key result)
        | .slow d, result => (agenda.log (.evicting key result)).setFor call .delay d
        | .releasing, .ok value => agenda.log (.released value)
        | .releasing, .error _ => agenda) rest
  | .admitted call :: rest => heed hook generator (agenda.wake call) rest
  | _ :: rest => heed hook generator agenda rest

/-- The answer among some notices. -/
def answerIn : List (KeyedCache.Notice V String) → Option (KeyedCache.Reply V String)
  | [] => none
  | .answered _ reply :: _ => some reply
  | _ :: rest => answerIn rest

/-- The key that the hook is asked to deal with among some notices. -/
def evictionIn : List (KeyedCache.Notice V String) → Option String
  | [] => none
  | .evict _ key _ :: _ => some key
  | _ :: rest => evictionIn rest

/-- Let an event happen to the cache and see how the call goes on. -/
def applyCall (b : KeyedBench V) (generator : Option (Generator V String))
    (agenda : Agenda (KeyedEvent V)) (event : KeyedCache.Event V String) : CallTurn V :=
  let (cache, notices) := b.cache.apply agenda.now event
  let agenda := heed b.hook generator agenda notices
  match answerIn notices with
  | some reply => .answered { b with cache } agenda reply
  | none => .again { b with cache } agenda (evictionIn notices)

/-- The generator of a call has taken its time and ends. -/
def endGenerator (b : KeyedBench V) (task : TaskId) (key : String)
    (generator : Generator V String) (agenda : Agenda (KeyedEvent V)) : CallTurn V :=
  let agenda := if generator.delay.isSome then agenda.log (.generatorEnded key) else agenda
  match generator.ending with
  | .returns result => b.applyCall none agenda (.generated task result)
  | .panics =>
    let (cache, notices) := b.cache.apply agenda.now (.abort task)
    .panicked { b with cache } (heed b.hook none agenda notices)

/-- The hook that a call waits for has taken its time and ends. -/
def endHook (b : KeyedBench V) (task : TaskId) (evicting : Option String)
    (agenda : Agenda (KeyedEvent V)) : CallTurn V :=
  let agenda := match b.hook, evicting with
    | .slow _, some key => agenda.log (.evicted key)
    | _, _ => agenda
  b.applyCall none agenda (.evicted task)

/-- One step of a call of the cache. -/
def stepCall (b : KeyedBench V) (task : TaskId) (generator : Option (Generator V String))
    (evicting : Option String) (agenda : Agenda (KeyedEvent V)) : CallTurn V :=
  match b.cache.calls.find? task, generator with
  | none, _ => .pause b agenda
  | some (.generating key _), some generator =>
    if agenda.isSet task .delay then .pause b agenda
    else b.endGenerator task key generator agenda
  | some (.evicting _), _ =>
    if agenda.isSet task .delay then .pause b agenda else b.endHook task evicting agenda
  | some _, generator =>
    match b.cache.resume agenda.now task with
    | none => .pause b agenda
    | some _ => b.applyCall generator agenda (.resume task)

/-- What a task with a call of the cache does next. -/
def turnOf (task : TaskId) (doing : Option String → KeyedTask V) :
    CallTurn V → Turn (KeyedBench V) (KeyedEvent V) (KeyedResult V)
  | .again b agenda evicting => .again (b.become task (doing evicting)) agenda
  | .pause b agenda => .pause b agenda
  | .answered b agenda reply =>
    .finish { b with tasks := b.tasks.erase task } agenda (.gave (.reply reply))
  | .panicked b agenda => .finish { b with tasks := b.tasks.erase task } agenda .panicked

/-- A task ends with a result. -/
def finish (b : KeyedBench V) (task : TaskId) (agenda : Agenda (KeyedEvent V))
    (answer : Answer (KeyedResult V)) : Turn (KeyedBench V) (KeyedEvent V) (KeyedResult V) :=
  .finish { b with tasks := b.tasks.erase task } agenda answer

/-- A task begins its operation. -/
def beginOperation (b : KeyedBench V) (task : TaskId) (agenda : Agenda (KeyedEvent V)) :
    KeyedOperation V → Turn (KeyedBench V) (KeyedEvent V) (KeyedResult V)
  | .get key => call (.get key) none
  | .getOrUpdate key ttl generator => call (.getOrUpdate key ttl) (some generator)
  | .set key ttl value => call (.set key ttl value) none
  | .remove key => call (.remove key) none
  | .removeIf key test => call (.removeIf key test.accepts) none
  | .flush => call .flush none
  | .purge => call .purge none
  | .length => b.finish task agenda (.gave (.length b.cache.table.size))
  | .startJanitor period =>
    let (janitor, agenda) := agenda.spawn
    { b with
        tasks := b.tasks.set janitor (.newJanitor period)
        janitors := b.janitors ++ [janitor] }.finish task agenda .nothing
  | .janitorStates =>
    b.finish task agenda (.gave (.janitors (b.janitors.map fun j => (b.tasks.find? j).isSome)))
  | .drop => { b with held := false }.finish task agenda .nothing
where
  /-- Begin a call of the cache. -/
  call (request : KeyedCache.Request V String) (generator : Option (Generator V String)) :
      Turn (KeyedBench V) (KeyedEvent V) (KeyedResult V) :=
    .again ((b.callCache task request).become task (.call generator none)) agenda

/-- A janitor looks whether it is due. When it is and somebody keeps the cache, it purges. -/
def stepJanitor (b : KeyedBench V) (task : TaskId) (ticker : Ticker)
    (agenda : Agenda (KeyedEvent V)) : Turn (KeyedBench V) (KeyedEvent V) (KeyedResult V) :=
  let due := Clock.roundUp ticker.due
  if agenda.now < due then .pause b (agenda.set task .delay due)
  else if b.isKept then
    .again ((b.callCache task .purge).become task (.purging (ticker.next agenda.now) none)) agenda
  else b.finish task agenda .nothing

/-- One step of a task. -/
def step (task : TaskId) (b : KeyedBench V) (agenda : Agenda (KeyedEvent V)) :
    Turn (KeyedBench V) (KeyedEvent V) (KeyedResult V) :=
  match b.tasks.find? task with
  | none => .pause b agenda
  | some .refused => b.finish task agenda (.gave .dropped)
  | some (.operation operation) => b.beginOperation task agenda operation
  | some (.call generator evicting) =>
    turnOf task (.call generator) (b.stepCall task generator evicting agenda)
  | some (.newJanitor period) =>
    if period = 0 then b.finish task agenda .panicked
    else .again (b.become task (.janitor (.starting agenda.now period))) agenda
  | some (.janitor ticker) => b.stepJanitor task ticker agenda
  | some (.purging ticker evicting) =>
    match b.stepCall task none evicting agenda with
    | .answered b agenda _ => .again (b.become task (.janitor ticker)) agenda
    | turn => turnOf task (.purging ticker) turn

/-- Give up a task and the call it makes. -/
def cancel (task : TaskId) (b : KeyedBench V) (agenda : Agenda (KeyedEvent V)) :
    KeyedBench V × Agenda (KeyedEvent V) :=
  let (cache, notices) := b.cache.apply agenda.now (.abort task)
  ({ b with cache, tasks := b.tasks.erase task }, heed b.hook none agenda notices)

/-- A keyed cache as a subject for scripts. -/
def subject : Subject (KeyedOperation V) (KeyedBench V) (KeyedEvent V) (KeyedResult V) :=
  ⟨start, step, cancel⟩

/-- The steps of a script on an empty cache. -/
def runScript (lanes : Nat) (hook : EvictionHook) (commands : List (Command (KeyedOperation V))) :
    List (Step (KeyedBench V) (KeyedEvent V) (KeyedResult V)) :=
  runCommands subject ⟨create lanes hook, .initial, none, [], [], 0⟩ commands

/-- The number of entries, unless the script has let go of the cache. -/
def length? (b : KeyedBench V) : Option Nat :=
  if b.held then some b.cache.table.size else none

end KeyedBench

end CachedStreams.Bench
