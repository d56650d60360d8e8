import CachedStreams.Program.Arguments

/-!
# What the program says about itself

The texts of help and version.
-/

set_option autoImplicit false

namespace CachedStreams.Program

/-- The version. -/
def versionText : String := "gatefs 0.1.0\n"

/-- How the program is called. -/
def usage : Topic → String
  | .program => "Usage: gatefs [OPTIONS] <COMMAND>\n"
  | .tail => "Usage: gatefs tail <FILE>\n"
  | .showConfig => "Usage: gatefs show-config\n"
  | .help => "Usage: gatefs help [COMMAND]...\n"

/-- The text of help about a topic. -/
def Topic.text (topic : Topic) : String :=
  match topic with
  | .program =>
    "Caching and stream-buffering layer of the gatefs gateway.\n\n" ++
      usage topic ++
      "\nCommands:\n" ++
      "  tail         " ++
      "Stream a file through a shared buffer and copy it to stdout as it grows\n" ++
      "  show-config  Print the effective configuration\n" ++
      "  help         Print this message or the help of the given subcommand(s)\n" ++
      "\nOptions:\n" ++
      "  -c, --config-path <CONFIG_PATH>  Optional path to a gatefs config TOML.\n" ++
      "  -h, --help                       Print help\n" ++
      "  -V, --version                    Print version\n"
  | .tail =>
    "Stream a file through a shared buffer and copy it to stdout as it grows\n\n" ++
      usage topic ++
      "\nArguments:\n  <FILE>  The file to stream\n" ++
      "\nOptions:\n  -h, --help  Print help\n"
  | .showConfig =>
    "Print the effective configuration\n\n" ++
      usage topic ++
      "\nOptions:\n  -h, --help  Print help\n"
  | .help =>
    "Print this message or the help of the given subcommand(s)\n\n" ++
      usage topic ++
      "\nArguments:\n  [COMMAND]...  Print help for the subcommand(s)\n"

end CachedStreams.Program
