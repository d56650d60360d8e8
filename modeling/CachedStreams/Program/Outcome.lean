import CachedStreams.Config.Lookup
import CachedStreams.Config.Writing
import CachedStreams.Program.Usage
import CachedStreams.Tail

/-!
# What the program does

What a run of the program writes and how it exits: with 0 after success, 1 after a failure and 2
when it was called in a wrong way. Only success writes output; otherwise there is a complaint.
-/

set_option autoImplicit false

namespace CachedStreams.Program

/-- How a run ends. -/
structure Outcome where
  exitCode : Nat
  output : List UInt8
  complaint : String
  deriving DecidableEq, Repr

namespace Outcome

/-- Success, with some output. -/
def success (output : List UInt8) : Outcome := ⟨0, output, ""⟩

/-- Success, with a text. -/
def saying (text : String) : Outcome := success text.toUTF8.toList

/-- Failure. -/
def failure (complaint : String) : Outcome := ⟨1, [], complaint⟩

/-- A call that makes no sense. -/
def misuse : Outcome := ⟨2, [], usage .program⟩

end Outcome

/-- The words for what is wrong with the settings. -/
def faultText (fault : Config.Fault) : String :=
  fault.text.getD "the text is not a document"

/-- What an action leads to, with some settings. -/
def Action.outcome (e : Environment) (c : Config) : Action → Outcome
  | tail file =>
    match (Tail.ofFile c file (e.files file)).result with
    | .ok output => .success output
    | .error error => .failure ("Tail failed: " ++ error.text)
  | showConfig =>
    match c.toToml with
    | .ok text => .saying text
    | .error fault => .failure ("Failed to render configuration: " ++ faultText fault)

/-- What a request leads to. Settings are loaded for actions alone. -/
def Request.outcome (e : Environment) : Request → Outcome
  | perform path action =>
    match Config.load e path with
    | .ok c => action.outcome e c
    | .error fault => .failure ("Failed to load configuration: " ++ faultText fault)
  | help topic => .saying topic.text
  | version => .saying versionText
  | misuse => .misuse

/-- What a call of the program leads to. -/
def run (e : Environment) (args : List String) : Outcome :=
  (Request.ofArguments args).outcome e

end CachedStreams.Program
