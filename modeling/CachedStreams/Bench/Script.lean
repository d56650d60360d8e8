import CachedStreams.Bench.Agenda

/-!
# Scripts

A script is a list of commands run one after another against one subject. An operation is
performed to its end or started in the background; in between, time can be let pass and
background operations joined or aborted. After each command everything runs that can run without
moving the clock; then the step is recorded.

The subject says what its operations are and what a task does in one step. Everything about
clocks, queues and results is here and the same for every subject.
-/

set_option autoImplicit false

namespace CachedStreams.Bench

/-- How an operation ended, as a script records it. -/
inductive Answer (ρ : Type) where
  | nothing
  | gave (result : ρ)
  | panicked
  | unknownCommand

/-- What one step of a task led to. -/
inductive Turn (σ ε ρ : Type) where
  /-- The task can go on at once. -/
  | again (state : σ) (agenda : Agenda ε)
  /-- The task waits for something that will wake it. -/
  | pause (state : σ) (agenda : Agenda ε)
  /-- The task is over. -/
  | finish (state : σ) (agenda : Agenda ε) (answer : Answer ρ)

/-- What scripts are run against: operations `α` on states `σ`, with events `ε` and results
`ρ`. -/
structure Subject (α σ ε ρ : Type) where
  /-- Let a task carry out an operation; the task has not run yet. -/
  start : TaskId → α → σ → σ
  /-- The next step of a task. -/
  step : TaskId → σ → Agenda ε → Turn σ ε ρ
  /-- Give a task up where it stands. -/
  cancel : TaskId → σ → Agenda ε → σ × Agenda ε

/-- One line of a script. -/
inductive Command (α : Type) where
  | sleep (d : Nat)
  | tick (d : Nat)
  /-- Start an operation in the background; without one, what is started ends at once. -/
  | spawn (name : String) (operation : Option α)
  | join (name : String)
  | abort (name : String)
  | perform (operation : α)
  | unknown

/-- The same line for other operations. -/
def Command.map {α β : Type} (f : α → β) : Command α → Command β
  | sleep d => .sleep d
  | tick d => .tick d
  | spawn name operation => .spawn name (operation.map f)
  | join name => .join name
  | abort name => .abort name
  | perform operation => .perform (f operation)
  | unknown => .unknown

/-- What is recorded after one command. -/
structure Step (σ ε ρ : Type) where
  answer : Answer ρ
  now : Nat
  state : σ
  events : List (Nat × ε)
  /-- The background operations that ended since the step before. -/
  ended : List (Nat × String × Answer ρ)

/-- A subject and its tasks in the middle of a script. -/
structure Session (σ ε ρ : Type) where
  state : σ
  agenda : Agenda ε
  /-- The task whose turn it is. -/
  running : Option TaskId
  /-- The tasks that have ended, when and how, newest first. -/
  ended : List (TaskId × Nat × Answer ρ)
  /-- The background operations by name, newest first. -/
  background : List (String × TaskId)
  /-- How many of the ended tasks earlier steps have reported. -/
  reported : Nat

/-- What a session runs for. -/
inductive Goal where
  | ended (task : TaskId)
  | reached (instant : Nat)
  | quiet

namespace Session

variable {α σ ε ρ : Type}

/-- How `task` ended, if it has. -/
def answerOf (s : Session σ ε ρ) (task : TaskId) : Option (Answer ρ) :=
  (s.ended.find? (·.1 == task)).map (·.2.2)

/-- Whether the session has got what it runs for. -/
def meets (s : Session σ ε ρ) : Goal → Bool
  | .ended task => (s.answerOf task).isSome
  | .reached instant => instant ≤ s.agenda.now
  | .quiet => true

/-- The instant that a goal waits for. -/
def goalInstant : Goal → Option Nat
  | .reached instant => some instant
  | _ => none

/-- One step of the session: of the running task, else of the next ready one, else of the clock.
`none` when nothing is ready and either the goal is met or nothing will ever happen. -/
def advance (subject : Subject α σ ε ρ) (goal : Goal) (s : Session σ ε ρ) :
    Option (Session σ ε ρ) :=
  match s.running with
  | some task =>
    some <| match subject.step task s.state s.agenda with
    | .again state agenda => { s with state, agenda }
    | .pause state agenda => { s with state, agenda, running := none }
    | .finish state agenda answer =>
      { s with
        state
        agenda := agenda.forget task
        running := none
        ended := (task, Clock.millis agenda.now, answer) :: s.ended }
  | none =>
    match s.agenda.ready with
    | task :: rest =>
      some { s with agenda := { s.agenda with ready := rest }, running := some task }
    | [] =>
      if s.meets goal then none
      else (s.agenda.elapse (goalInstant goal)).map fun agenda => { s with agenda }

/-- Run for a goal, for at most `fuel` steps. -/
def settle (subject : Subject α σ ε ρ) (goal : Goal) : Nat → Session σ ε ρ → Session σ ε ρ
  | 0, s => s
  | fuel + 1, s =>
    match s.advance subject goal with
    | some s' => settle subject goal fuel s'
    | none => s

/-- More steps than any script takes. -/
def stepLimit : Nat := Nat.pow 2 60

/-- Start a task that carries out an operation. -/
def launch (subject : Subject α σ ε ρ) (operation : α) (s : Session σ ε ρ) :
    TaskId × Session σ ε ρ :=
  let (task, agenda) := s.agenda.spawn
  (task, { s with state := subject.start task operation s.state, agenda })

/-- Start a task that has nothing to do and is over. -/
def launchUnknown (s : Session σ ε ρ) : TaskId × Session σ ε ρ :=
  let (task, agenda) := s.agenda.spawn
  (task, { s with
    agenda := agenda.forget task
    ended := (task, Clock.millis agenda.now, .unknownCommand) :: s.ended })

/-- Carry out one command and run until nothing more can be done without moving the clock. -/
def command (subject : Subject α σ ε ρ) (s : Session σ ε ρ) :
    Command α → Answer ρ × Session σ ε ρ
  | .sleep d =>
    (.nothing, s.settle subject (.reached (Clock.timerDue s.agenda.now d)) stepLimit)
  | .tick d =>
    (.nothing, { s with agenda := s.agenda.tick d }.settle subject .quiet stepLimit)
  | .spawn name operation =>
    let (task, s) := match operation with
      | some operation => s.launch subject operation
      | none => s.launchUnknown
    (.nothing,
      { s with background := (name, task) :: s.background }.settle subject .quiet stepLimit)
  | .join name =>
    match s.background.lookup name with
    | none => (.nothing, s)
    | some task =>
      let s := s.settle subject (.ended task) stepLimit
      ((s.answerOf task).getD .nothing, s)
  | .abort name =>
    match s.background.lookup name with
    | none => (.nothing, s)
    | some task =>
      if (s.answerOf task).isSome then (.nothing, s)
      else
        let (state, agenda) := subject.cancel task s.state s.agenda
        (.nothing, { s with
          state
          agenda := agenda.forget task
          background := s.background.filter (·.2 != task) }.settle subject .quiet stepLimit)
  | .perform operation =>
    let (task, s) := s.launch subject operation
    let s := s.settle subject (.ended task) stepLimit
    ((s.answerOf task).getD .nothing, s)
  | .unknown => (.unknownCommand, s.settle subject .quiet stepLimit)

/-- The background operations that ended since the step before, by time and then by name. -/
def newlyEnded (s : Session σ ε ρ) : List (Nat × String × Answer ρ) :=
  let fresh := s.ended.take (s.ended.length - s.reported)
  let named := fresh.reverse.filterMap fun (task, at_, answer) =>
    (s.background.find? (·.2 == task)).map fun b => (at_, b.1, answer)
  named.mergeSort fun x y => x.1 < y.1 || (x.1 == y.1 && !(y.2.1 < x.2.1))

/-- Carry out one command and record the step. -/
def record (subject : Subject α σ ε ρ) (s : Session σ ε ρ) (c : Command α) :
    Step σ ε ρ × Session σ ε ρ :=
  let (answer, s) := s.command subject c
  (⟨answer, Clock.millis s.agenda.now, s.state,
      s.agenda.journal.reverse.map fun (at_, event) => (Clock.millis at_, event), s.newlyEnded⟩,
    { s with agenda := { s.agenda with journal := [] }, reported := s.ended.length })

end Session

variable {α σ ε ρ : Type}

/-- The steps of a script run on a session. -/
def runCommands (subject : Subject α σ ε ρ) : Session σ ε ρ → List (Command α) →
    List (Step σ ε ρ)
  | _, [] => []
  | s, c :: rest =>
    let (step, s) := s.record subject c
    step :: runCommands subject s rest

end CachedStreams.Bench
