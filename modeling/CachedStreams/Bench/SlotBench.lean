import CachedStreams.SlotCache
import CachedStreams.Bench.Generator
import CachedStreams.Bench.Script

/-!
# Scripts for a cache of one value

The operations of `SlotCache` as a subject for scripts, with computations that a script
describes. The journal shows when a computation starts and, if it takes time, when it ends.
-/

set_option autoImplicit false

namespace CachedStreams.Bench

/-- An operation on a cache of one value. -/
inductive SlotOperation (T : Type) where
  | get
  | set (value : T)
  | clear
  | update (generator : Generator T String)
  | lifetime

/-- What an operation on a cache of one value gives. -/
inductive SlotResult (T : Type) where
  | found (value : Option T)
  | updated (result : Except String T)
  | lifetime (ttl : Nat)

/-- What the journal of such a script shows. -/
inductive SlotEvent where
  | started
  | ended

/-- A cache of one value, and the operations of the tasks that use it. -/
structure SlotBench (T : Type) where
  cache : SlotCache T String
  operations : CallTable (SlotOperation T)

namespace SlotBench

variable {T : Type}

/-- A bench with an empty cache. -/
def create (ttl : Nat) : SlotBench T := ⟨.empty ttl, .empty⟩

/-- Register the operation of a new task; an update becomes a call of the cache. -/
def start (task : TaskId) (operation : SlotOperation T) (b : SlotBench T) : SlotBench T :=
  { b with
    operations := b.operations.set task operation
    cache := match operation with
      | .update _ => (b.cache.apply 0 (.update task)).1
      | _ => b.cache }

/-- What the notices of the cache lead to: calls that come to the head of the queue are woken. -/
def heed (agenda : Agenda SlotEvent) : List (SlotCache.Notice T String) → Agenda SlotEvent
  | [] => agenda
  | .admitted call :: rest => heed (agenda.wake call) rest
  | _ :: rest => heed agenda rest

/-- The answer among some notices. -/
def answerIn : List (SlotCache.Notice T String) → Option (Except String T)
  | [] => none
  | .answered _ result :: _ => some result
  | _ :: rest => answerIn rest

/-- One step of a computation: it waits for its delay and then ends. -/
def compute (task : TaskId) (generator : Generator T String) (b : SlotBench T)
    (agenda : Agenda SlotEvent) : Turn (SlotBench T) SlotEvent (SlotResult T) :=
  if agenda.isSet task .delay then .pause b agenda
  else
    let agenda := if generator.delay.isSome then agenda.log .ended else agenda
    match generator.ending with
    | .returns result =>
      .again { b with cache := (b.cache.apply agenda.now (.computed task result)).1 } agenda
    | .panics =>
      let (cache, notices) := b.cache.apply agenda.now (.abort task)
      .finish { b with cache } (heed agenda notices) .panicked

/-- One step of a call to update. -/
def update (task : TaskId) (generator : Generator T String) (b : SlotBench T)
    (agenda : Agenda SlotEvent) : Turn (SlotBench T) SlotEvent (SlotResult T) :=
  match b.cache.resume agenda.now task with
  | some (cache, notices) =>
    let b := { b with cache }
    let agenda := heed agenda notices
    match answerIn notices, b.cache.calls.find? task with
    | some result, _ => .finish b agenda (.gave (.updated result))
    | none, some .computing =>
      let agenda := agenda.log .started
      .again b (match generator.delay with
        | some d => agenda.setFor task .delay d
        | none => agenda)
    | none, _ => .again b agenda
  | none =>
    match b.cache.calls.find? task with
    | some .computing => compute task generator b agenda
    | _ => .pause b agenda

/-- One step of a task. -/
def step (task : TaskId) (b : SlotBench T) (agenda : Agenda SlotEvent) :
    Turn (SlotBench T) SlotEvent (SlotResult T) :=
  match b.operations.find? task with
  | none => .pause b agenda
  | some .get =>
    let (cache, value) := b.cache.get agenda.now
    .finish { b with cache } agenda (.gave (.found value))
  | some (.set value) =>
    .finish { b with cache := b.cache.store agenda.now value } agenda .nothing
  | some .clear =>
    .finish { b with cache := (b.cache.apply agenda.now .clear).1 } agenda .nothing
  | some .lifetime => .finish b agenda (.gave (.lifetime b.cache.ttl))
  | some (.update generator) => update task generator b agenda

/-- Give up a task; a call of it leaves the queue. -/
def cancel (task : TaskId) (b : SlotBench T) (agenda : Agenda SlotEvent) :
    SlotBench T × Agenda SlotEvent :=
  let (cache, notices) := b.cache.apply agenda.now (.abort task)
  ({ b with cache, operations := b.operations.erase task }, heed agenda notices)

/-- A cache of one value as a subject for scripts. -/
def subject : Subject (SlotOperation T) (SlotBench T) SlotEvent (SlotResult T) :=
  ⟨start, step, cancel⟩

/-- The steps of a script on an empty cache. -/
def runScript (ttl : Nat) (commands : List (Command (SlotOperation T))) :
    List (Step (SlotBench T) SlotEvent (SlotResult T)) :=
  runCommands subject ⟨create ttl, .initial, none, [], [], 0⟩ commands

end SlotBench

end CachedStreams.Bench
