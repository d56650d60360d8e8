/-!
# Files

What a program that only reads finds under a path, and how the text of a file is had from that.
-/

set_option autoImplicit false

namespace CachedStreams

/-- What is found under a path. -/
inductive FileContent where
  | absent
  | directory
  | bytes (content : List UInt8)
  deriving DecidableEq, Repr

/-- How a file fails to give a text. -/
inductive FileFault where
  | missing
  | isDirectory
  | notText
  deriving DecidableEq, Repr

/-- The text of a fault. -/
def FileFault.text : FileFault → String
  | missing => "No such file or directory (os error 2)"
  | isDirectory => "Is a directory (os error 21)"
  | notText => "stream did not contain valid UTF-8"

namespace FileContent

/-- Whether there is anything under the path. -/
def isPresent : FileContent → Bool
  | absent => false
  | directory => true
  | bytes _ => true

/-- The text of a file in UTF-8. -/
def text : FileContent → Except FileFault String
  | absent => .error .missing
  | directory => .error .isDirectory
  | bytes content =>
    match String.fromUTF8? ⟨content.toArray⟩ with
    | some text => .ok text
    | none => .error .notText

end FileContent

end CachedStreams
