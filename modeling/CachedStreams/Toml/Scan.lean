/-!
# Reading characters

A scanner takes something off the front of the characters that are left, or fails. These are the
scanners for what surrounds values: blanks, line ends, comments and keys, and for quoted strings.
-/

set_option autoImplicit false

namespace CachedStreams.Toml

/-- Reads a value off the front of some characters. -/
abbrev Scanner (α : Type) := List Char → Option (α × List Char)

/-- Skip spaces and tabs. -/
def skipBlanks (cs : List Char) : List Char :=
  cs.dropWhile fun c => c == ' ' || c == '\t'

/-- A line end. -/
def scanLineEnd : List Char → Option (List Char)
  | '\n' :: rest => some rest
  | '\r' :: '\n' :: rest => some rest
  | _ => none

/-- Whether a character may stand in a comment or a string: no control but the tab. -/
def isPlain (c : Char) : Bool :=
  c == '\t' || (0x20 ≤ c.toNat && c.toNat != 0x7f)

/-- Skip a comment, if there is one. -/
def skipComment : List Char → List Char
  | '#' :: rest => rest.dropWhile isPlain
  | cs => cs

/-- The rest of a line after its content: blanks, perhaps a comment, and a line end or the end of
the text. -/
def scanTrailing (cs : List Char) : Option (List Char) :=
  match skipComment (skipBlanks cs) with
  | [] => some []
  | rest => scanLineEnd rest

/-- Skip blanks, line ends and comments, as they may stand between the items of an array. -/
def skipFiller : Nat → List Char → List Char
  | 0, cs => cs
  | fuel + 1, cs =>
    match cs with
    | ' ' :: rest => skipFiller fuel rest
    | '\t' :: rest => skipFiller fuel rest
    | '\n' :: rest => skipFiller fuel rest
    | '\r' :: '\n' :: rest => skipFiller fuel rest
    | '#' :: rest => skipFiller fuel (rest.dropWhile isPlain)
    | cs => cs

/-- The value of a hexadecimal digit. -/
def hexValue? (c : Char) : Option Nat :=
  if c.isDigit then some (c.toNat - 48)
  else if 'a' ≤ c ∧ c ≤ 'f' then some (c.toNat - 87)
  else if 'A' ≤ c ∧ c ≤ 'F' then some (c.toNat - 55)
  else none

/-- The character with a given number, unless that is a surrogate or too large. -/
def charOfNumber (n : Nat) : Option Char :=
  if n.isValidChar then some (Char.ofNat n) else none

/-- A character given by exactly `count` hexadecimal digits. -/
def scanHexChar (count : Nat) (cs : List Char) : Option (Char × List Char) := do
  let digits := cs.take count
  let values ← digits.mapM hexValue?
  if digits.length = count then
    let c ← charOfNumber (values.foldl (fun n d => n * 16 + d) 0)
    pure (c, cs.drop count)
  else none

/-- What stands for a character after a backslash. -/
def scanEscape : Scanner Char
  | 'b' :: rest => some ('\x08', rest)
  | 't' :: rest => some ('\t', rest)
  | 'n' :: rest => some ('\n', rest)
  | 'f' :: rest => some ('\x0c', rest)
  | 'r' :: rest => some ('\r', rest)
  | '"' :: rest => some ('"', rest)
  | '\\' :: rest => some ('\\', rest)
  | 'u' :: rest => scanHexChar 4 rest
  | 'U' :: rest => scanHexChar 8 rest
  | _ => none

/-- The rest of a string in double quotes on one line. `fuel` bounds its length. -/
def scanBasic : Nat → List Char → List Char → Option (List Char × List Char)
  | 0, _, _ => none
  | fuel + 1, text, cs =>
    match cs with
    | [] => none
    | '"' :: rest => some (text.reverse, rest)
    | '\\' :: rest =>
      match scanEscape rest with
      | some (c, rest) => scanBasic fuel (c :: text) rest
      | none => none
    | c :: rest => if isPlain c then scanBasic fuel (c :: text) rest else none

/-- The rest of a string in single quotes on one line. -/
def scanLiteral (cs : List Char) : Option (List Char × List Char) :=
  let text := cs.takeWhile fun c => isPlain c && c != '\''
  match cs.drop text.length with
  | '\'' :: rest => some (text, rest)
  | _ => none

/-- Skip blanks and line ends after a backslash at the end of a line. -/
def skipFold (cs : List Char) : Option (List Char) :=
  (scanLineEnd (skipBlanks cs)).map (skip cs.length)
where
  /-- Skip blanks and line ends. -/
  skip : Nat → List Char → List Char
    | 0, cs => cs
    | fuel + 1, cs =>
      match cs with
      | ' ' :: rest => skip fuel rest
      | '\t' :: rest => skip fuel rest
      | '\n' :: rest => skip fuel rest
      | '\r' :: '\n' :: rest => skip fuel rest
      | cs => cs

/-- How many quotes of a run inside a string of several lines belong to its text, and whether the
string ends there: three quotes end it, and up to two may stand before them. -/
def quoteRun (length : Nat) : Nat × Bool :=
  if length < 3 then (length, false) else (min (length - 3) 2, true)

/-- The rest of a string of several lines in double quotes. -/
def scanLongBasic : Nat → List Char → List Char → Option (List Char × List Char)
  | 0, _, _ => none
  | fuel + 1, text, cs =>
    match cs with
    | [] => none
    | '"' :: _ =>
      let run := (cs.takeWhile (· == '"')).length
      let (kept, ends) := quoteRun run
      let text := List.replicate kept '"' ++ text
      if ends then some (text.reverse, cs.drop (kept + 3))
      else scanLongBasic fuel text (cs.drop run)
    | '\\' :: rest =>
      match skipFold rest with
      | some rest => scanLongBasic fuel text rest
      | none =>
        match scanEscape rest with
        | some (c, rest) => scanLongBasic fuel (c :: text) rest
        | none => none
    | '\n' :: rest => scanLongBasic fuel ('\n' :: text) rest
    | '\r' :: '\n' :: rest => scanLongBasic fuel ('\n' :: text) rest
    | c :: rest => if isPlain c then scanLongBasic fuel (c :: text) rest else none

/-- The rest of a string of several lines in single quotes. -/
def scanLongLiteral : Nat → List Char → List Char → Option (List Char × List Char)
  | 0, _, _ => none
  | fuel + 1, text, cs =>
    match cs with
    | [] => none
    | '\'' :: _ =>
      let run := (cs.takeWhile (· == '\'')).length
      let (kept, ends) := quoteRun run
      let text := List.replicate kept '\'' ++ text
      if ends then some (text.reverse, cs.drop (kept + 3))
      else scanLongLiteral fuel text (cs.drop run)
    | '\n' :: rest => scanLongLiteral fuel ('\n' :: text) rest
    | '\r' :: '\n' :: rest => scanLongLiteral fuel ('\n' :: text) rest
    | c :: rest => if isPlain c then scanLongLiteral fuel (c :: text) rest else none

/-- Skip a line end right after the quotes that open a string of several lines. -/
def skipFirstLineEnd (cs : List Char) : List Char := (scanLineEnd cs).getD cs

/-- A string in any of the four kinds of quotes. -/
def scanString : Scanner String
  | '"' :: '"' :: '"' :: rest =>
    (scanLongBasic (rest.length + 1) [] (skipFirstLineEnd rest)).map (·.map String.ofList id)
  | '"' :: rest => (scanBasic (rest.length + 1) [] rest).map (·.map String.ofList id)
  | '\'' :: '\'' :: '\'' :: rest =>
    (scanLongLiteral (rest.length + 1) [] (skipFirstLineEnd rest)).map (·.map String.ofList id)
  | '\'' :: rest => (scanLiteral rest).map (·.map String.ofList id)
  | _ => none

/-- Whether a character may stand in a key without quotes. -/
def isBareKeyChar (c : Char) : Bool := c.isAlphanum || c == '-' || c == '_'

/-- One part of a key. -/
def scanSimpleKey (cs : List Char) : Option (String × List Char) :=
  match cs with
  | '"' :: rest => (scanBasic (rest.length + 1) [] rest).map (·.map String.ofList id)
  | '\'' :: rest => (scanLiteral rest).map (·.map String.ofList id)
  | cs =>
    let name := cs.takeWhile isBareKeyChar
    if name.isEmpty then none else some (String.ofList name, cs.drop name.length)

/-- The parts of a key after the first, each after a dot. -/
def scanKeyParts : Nat → List Char → Option (List String × List Char)
  | 0, _ => none
  | fuel + 1, cs =>
    match scanSimpleKey (skipBlanks cs) with
    | none => none
    | some (part, rest) =>
      match skipBlanks rest with
      | '.' :: rest => (scanKeyParts fuel rest).map fun (parts, rest) => (part :: parts, rest)
      | rest => some ([part], rest)

/-- How many levels of nesting, and parts of a key, are too many. -/
def nestingLimit : Nat := 80

/-- A key: one or more parts with dots between them. -/
def scanKey (cs : List Char) : Option (List String × List Char) :=
  match scanKeyParts (cs.length + 1) cs with
  | some (parts, rest) => if parts.length < nestingLimit then some (parts, rest) else none
  | none => none

end CachedStreams.Toml
