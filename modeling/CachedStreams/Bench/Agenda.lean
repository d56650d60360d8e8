import CachedStreams.Time
import CachedStreams.CallTable

/-!
# The agenda of a bench

A bench runs tasks on a clock that moves only when every task waits. Its agenda holds the clock,
the tasks that are ready to run in the order they became ready, the timers that are set, and the
journal of what happened. Timers that come due together wake their tasks in the order they were
set.
-/

set_option autoImplicit false

namespace CachedStreams.Bench

/-- Names a task. The calls that a task makes carry its name. -/
abbrev TaskId := CallId

/-- What one of a task's timers is for. -/
inductive TimerUse where
  | delay
  | deadline
  | quiet
  deriving DecidableEq, Repr

/-- A timer of a task, and its place in the order in which timers were set. -/
structure Timer where
  task : TaskId
  use : TimerUse
  due : Nat
  order : Nat

/-- Clock, ready tasks, timers and journal. -/
structure Agenda (ε : Type) where
  now : Nat
  /-- The name of the next task. -/
  nextTask : TaskId
  ready : List TaskId
  timers : List Timer
  /-- How many timers have been set. -/
  timersSet : Nat
  /-- What happened and when, newest first. -/
  journal : List (Nat × ε)

namespace Agenda

variable {ε : Type}

/-- The agenda at the start: the clock stands at zero and nothing is to be done. -/
def initial : Agenda ε := ⟨0, 0, [], [], 0, []⟩

/-- Write an event into the journal. -/
def log (a : Agenda ε) (event : ε) : Agenda ε :=
  { a with journal := (a.now, event) :: a.journal }

/-- Make a task ready, behind those that are ready already. -/
def wake (a : Agenda ε) (task : TaskId) : Agenda ε :=
  if a.ready.contains task then a else { a with ready := a.ready ++ [task] }

/-- A new task, ready to run. -/
def spawn (a : Agenda ε) : TaskId × Agenda ε :=
  (a.nextTask, { a with nextTask := a.nextTask + 1, ready := a.ready ++ [a.nextTask] })

/-- Whether a timer of the task is still running. -/
def isSet (a : Agenda ε) (task : TaskId) (use : TimerUse) : Bool :=
  a.timers.any fun t => t.task == task && t.use == use

/-- Take a timer of the task away. -/
def unset (a : Agenda ε) (task : TaskId) (use : TimerUse) : Agenda ε :=
  { a with timers := a.timers.filter fun t => !(t.task == task && t.use == use) }

/-- Set a timer of the task, in place of one for the same use. One that is due at once never
runs. -/
def set (a : Agenda ε) (task : TaskId) (use : TimerUse) (due : Nat) : Agenda ε :=
  let a := a.unset task use
  if due ≤ a.now then a
  else { a with
    timers := a.timers ++ [⟨task, use, due, a.timersSet⟩]
    timersSet := a.timersSet + 1 }

/-- Set a timer of the task for `d` from now. -/
def setFor (a : Agenda ε) (task : TaskId) (use : TimerUse) (d : Nat) : Agenda ε :=
  a.set task use (Clock.timerDue a.now d)

/-- Strike a task off: it is not ready and has no timers. -/
def forget (a : Agenda ε) (task : TaskId) : Agenda ε :=
  { a with ready := a.ready.filter (· != task), timers := a.timers.filter (·.task != task) }

/-- Let the timers that are due wake their tasks. -/
def fire (a : Agenda ε) : Agenda ε :=
  let (due, rest) := a.timers.partition (·.due ≤ a.now)
  (due.mergeSort fun s t => s.due < t.due || (s.due == t.due && s.order ≤ t.order)).foldl
    (fun a t => a.wake t.task) { a with timers := rest }

/-- Move the clock by exactly `d`. -/
def tick (a : Agenda ε) (d : Nat) : Agenda ε :=
  { a with now := a.now + d }.fire

/-- The instant to which the clock moves when nothing is ready: that of the next timer, or `goal`
if it comes first. -/
def nextDue (a : Agenda ε) (goal : Option Nat) : Option Nat :=
  (a.timers.map (·.due) ++ goal.toList).min?

/-- Move the clock to the next due instant, by whole milliseconds. -/
def elapse (a : Agenda ε) (goal : Option Nat) : Option (Agenda ε) :=
  (a.nextDue goal).map fun due =>
    { a with now := a.now + Duration.ofMillis (Clock.millis due - Clock.millis a.now) }.fire

end Agenda

end CachedStreams.Bench
