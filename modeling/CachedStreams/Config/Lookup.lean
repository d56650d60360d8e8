import CachedStreams.Config.Reading

/-!
# Finding settings

Settings are read from a given file, or else from the first file that exists in a list of places;
where there is none, the defaults hold. A file that exists but gives no settings is a fault, and
places after it are not looked at.
-/

set_option autoImplicit false

namespace CachedStreams

/-- What a program finds around it. -/
structure Environment where
  files : String → FileContent
  /-- The user's home directory. -/
  home : Option String
  /-- The directory that the user has named for settings. -/
  configHome : Option String

namespace Environment

/-- Whether a path starts at the root. -/
def isAbsolute (path : String) : Bool := path.toList.head? == some '/'

/-- The user's directory for settings: the named one if its path starts at the root, and otherwise
the usual one in the home directory. -/
def configDirectory (e : Environment) : Option String :=
  match e.configHome.filter isAbsolute with
  | some directory => some directory
  | none => e.home.map (· ++ "/.config")

/-- The places of settings, in the order in which they are looked at. -/
def configPaths (e : Environment) : List String :=
  e.configDirectory.toList.map (· ++ "/gatefs/config.toml") ++
    e.home.toList.map (· ++ "/.config/gatefs/config.toml") ++ ["/etc/gatefs/config.toml"]

end Environment

namespace Config

/-- The settings in a file. -/
def ofFile (file : FileContent) : Except Fault Config :=
  match file.text with
  | .ok text => ofToml text
  | .error fault => .error (.unreadable fault)

/-- The settings in the given file, or else in the first one that exists. -/
def load (e : Environment) (given : Option String) : Except Fault Config :=
  match given <|> e.configPaths.find? fun path => (e.files path).isPresent with
  | some path => ofFile (e.files path)
  | none => .ok {}

end Config

end CachedStreams
