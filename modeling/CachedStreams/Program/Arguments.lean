/-!
# Arguments of the program

What a list of arguments asks for. The path of the settings may be given once, before the command.
A command takes only its own arguments. Help and version are shown as soon as they are asked for,
if nothing before them is wrong; a value that stands by itself counts as looked at only when the
next option of the same command line comes, or the line ends.
-/

set_option autoImplicit false

namespace CachedStreams.Program

/-- What the program can do. -/
inductive Action where
  | tail (file : String)
  | showConfig
  deriving DecidableEq, Repr

/-- What help can be about. -/
inductive Topic where
  | program
  | tail
  | showConfig
  | help
  deriving DecidableEq, Repr

/-- What a command asks for. -/
inductive CommandRequest where
  | perform (action : Action)
  | help (topic : Topic)
  | misuse
  deriving DecidableEq, Repr

/-- What the arguments ask for. -/
inductive Request where
  | perform (configPath : Option String) (action : Action)
  | help (topic : Topic)
  | version
  | misuse
  deriving DecidableEq, Repr

/-- An argument by its form. -/
inductive Argument where
  /-- The end of options. -/
  | endOfOptions
  | long (name : String) (value : Option String)
  /-- An option of one letter, and what stands behind the letter. -/
  | short (letter : Char) (rest : List Char)
  | plain (text : String)
  deriving DecidableEq, Repr

/-- The part of some characters before the first equals sign, and the part behind it. -/
def splitEquals (cs : List Char) : String × Option String :=
  let name := String.ofList (cs.takeWhile (· != '='))
  match cs.dropWhile (· != '=') with
  | _ :: value => (name, some (String.ofList value))
  | [] => (name, none)

/-- The form of an argument. A lone dash is plain. -/
def Argument.of (text : String) : Argument :=
  match text.toList with
  | ['-', '-'] => .endOfOptions
  | '-' :: '-' :: rest => .long (splitEquals rest).1 (splitEquals rest).2
  | '-' :: letter :: rest => .short letter rest
  | _ => .plain text

/-- Whether an argument asks for help. -/
def Argument.isHelp : Argument → Bool
  | long "help" none => true
  | short 'h' _ => true
  | _ => false

/-- The arguments of a command that follows a file. -/
def readTail (file : Option String) : List String → CommandRequest
  | [] => follow file
  | arg :: rest =>
    match Argument.of arg with
    | .endOfOptions => readPlain file rest
    | .plain text => if file.isNone then readTail (some text) rest else .misuse
    | argument => if argument.isHelp ∧ file ≠ some "" then .help .tail else .misuse
where
  /-- Follow the file, if there is one. -/
  follow : Option String → CommandRequest
    | none => .misuse
    | some file => if file = "" then .misuse else .perform (.tail file)
  /-- The arguments behind the end of options. -/
  readPlain : Option String → List String → CommandRequest
    | file, [] => follow file
    | none, [file] => follow (some file)
    | _, _ => .misuse

/-- The arguments of the command that shows the settings. -/
def readShowConfig : List String → CommandRequest
  | [] => .perform .showConfig
  | arg :: rest =>
    match Argument.of arg with
    | .endOfOptions => if rest.isEmpty then .perform .showConfig else .misuse
    | argument => if argument.isHelp then .help .showConfig else .misuse

/-- The arguments of the command that shows help. -/
def readHelp : List String → CommandRequest
  | [] => .help .program
  | ["tail"] => .help .tail
  | ["show-config"] => .help .showConfig
  | ["help"] => .help .help
  | _ => .misuse

/-- The command of a given name, with its arguments. -/
def readCommand (name : String) (rest : List String) : Option CommandRequest :=
  match name with
  | "tail" => some (readTail none rest)
  | "show-config" => some (readShowConfig rest)
  | "help" => some (readHelp rest)
  | _ => none

/-- The path of the settings as far as it has been read. -/
structure PathOption where
  /-- The path, looked at. -/
  path : Option String
  /-- A path that has not been looked at. -/
  fresh : Option String
  deriving DecidableEq, Repr

namespace PathOption

/-- No path has been read. -/
def empty : PathOption := ⟨none, none⟩

/-- Look at a path. It must not be empty, and there must be only one. -/
def accept (o : PathOption) (path : String) : Option PathOption :=
  if path = "" ∨ o.path.isSome then none else some ⟨some path, none⟩

/-- Look at the fresh path, if there is one. -/
def settle (o : PathOption) : Option PathOption :=
  match o.fresh with
  | none => some o
  | some path => o.accept path

/-- Read a path that stands by itself. -/
def read (o : PathOption) (path : String) : Option PathOption :=
  o.settle.map fun o => { o with fresh := some path }

/-- Read a path that stands in the same argument as its option. -/
def readAttached (o : PathOption) (path : String) : Option PathOption :=
  o.settle.bind (·.accept path)

end PathOption

/-- What an option for the path says in the same argument: `some none` if it says nothing. -/
def Argument.pathValue : Argument → Option (Option String)
  | long "config-path" value => some value
  | short 'c' [] => some none
  | short 'c' ('=' :: value) => some (some (String.ofList value))
  | short 'c' value => some (some (String.ofList value))
  | _ => none

/-- Whether an argument asks for the version. -/
def Argument.isVersion : Argument → Bool
  | long "version" none => true
  | short 'V' _ => true
  | _ => false

/-- A request, if everything that has been read is right. -/
def whenSettled (o : PathOption) (request : Option String → Request) : Request :=
  match o.settle with
  | some o => request o.path
  | none => .misuse

/-- What the arguments ask for, after some have been read. -/
def readArguments (o : PathOption) : List String → Request
  | [] => .misuse
  | arg :: rest =>
    let argument := Argument.of arg
    match argument.pathValue with
    | some (some path) =>
      match o.readAttached path with
      | some o => readArguments o rest
      | none => .misuse
    | some none =>
      match rest with
      | [] => .misuse
      | path :: rest =>
        match Argument.of path, o.read path with
        | .plain _, some o => readArguments o rest
        | _, _ => .misuse
    | none =>
      if argument.isHelp then whenSettled o fun _ => .help .program
      else if argument.isVersion then whenSettled o fun _ => .version
      else
        match readCommand arg rest with
        | some (.perform action) => whenSettled o fun path => .perform path action
        | some (.help topic) => .help topic
        | _ => .misuse

/-- What the arguments ask for. -/
def Request.ofArguments (args : List String) : Request := readArguments .empty args

end CachedStreams.Program
