import CachedStreams.Program.Outcome

/-!
# The program

Gathers what the program needs to know from the system, and writes what a run comes to.
-/

set_option autoImplicit false

namespace CachedStreams.Program

/-- What the system has under a path. What is there but cannot be read as a file counts as a
directory. -/
def examine (path : String) : IO FileContent := do
  try
    return .bytes (← IO.FS.readBinFile path).toList
  catch
    | .noFileOrDirectory .. => return .absent
    | _ => return .directory

/-- Every path that a run with some arguments may look at. -/
def paths (e : Environment) (args : List String) : List String :=
  match Request.ofArguments args with
  | .perform path action =>
    (match path with
      | some path => [path]
      | none => e.configPaths) ++
      match action with
      | .tail file => [file]
      | .showConfig => []
  | _ => []

/-- Run the program and write what it comes to. -/
def execute (args : List String) : IO UInt32 := do
  let bare : Environment :=
    ⟨fun _ => .absent, ← IO.getEnv "HOME", ← IO.getEnv "XDG_CONFIG_HOME"⟩
  let found ← (paths bare args).mapM fun path => return (path, ← examine path)
  let outcome := run { bare with files := fun path => (found.lookup path).getD .absent } args
  let output ← IO.getStdout
  output.write ⟨outcome.output.toArray⟩
  output.flush
  unless outcome.complaint.isEmpty do IO.eprintln outcome.complaint
  return outcome.exitCode.toUInt32

end CachedStreams.Program

/-- The entry point of the program. -/
def main (args : List String) : IO UInt32 := CachedStreams.Program.execute args
