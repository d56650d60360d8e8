import CachedStreams.Toml.Assembly
import CachedStreams.Toml.Scalar

/-!
# TOML documents

The grammar of values and of lines, and how a text becomes a document. A text that is not
well-formed, or that defines something twice, is no document.
-/

set_option autoImplicit false

namespace CachedStreams.Toml

/-- The items of an array up to its end, after its opening bracket or a comma. -/
def scanItems (item : Scanner Value) : Nat → Scanner (List Value)
  | 0, _ => none
  | fuel + 1, cs =>
    match skipFiller cs.length cs with
    | ']' :: rest => some ([], rest)
    | cs =>
      match item cs with
      | none => none
      | some (value, rest) =>
        match skipFiller rest.length rest with
        | ',' :: rest =>
          (scanItems item fuel rest).map fun (values, rest) => (value :: values, rest)
        | ']' :: rest => some ([value], rest)
        | _ => none

/-- A key and its value. -/
def scanPair (value : Scanner Value) (cs : List Char) :
    Option ((List String × Value) × List Char) :=
  match scanKey cs with
  | some (key, '=' :: rest) => (value (skipBlanks rest)).map fun (v, rest) => ((key, v), rest)
  | _ => none

/-- The pairs of a table between braces up to its end, after its opening brace or a comma. -/
def scanPairs (value : Scanner Value) : Nat → Scanner (List (List String × Value))
  | 0, _ => none
  | fuel + 1, cs =>
    match scanPair value cs with
    | none => none
    | some (pair, rest) =>
      match skipBlanks rest with
      | ',' :: rest => (scanPairs value fuel rest).map fun (pairs, rest) => (pair :: pairs, rest)
      | '}' :: rest => some ([pair], rest)
      | _ => none

/-- A value in which arrays and tables between braces are nested at most `levels` deep. -/
def scanValue : Nat → Scanner Value
  | 0, cs => scanScalar cs
  | levels + 1, cs =>
    match cs with
    | '[' :: rest =>
      (scanItems (scanValue levels) (rest.length + 1) rest).map fun (values, rest) =>
        (.array values, rest)
    | '{' :: rest =>
      match skipBlanks rest with
      | '}' :: rest => some (.table .inline [], rest)
      | rest => do
        let (pairs, rest) ← scanPairs (scanValue levels) (rest.length + 1) rest
        let entries ← fill [] pairs
        pure (.table .inline entries, rest)
    | cs => scanScalar cs

/-- A line with content. -/
inductive Line where
  | pair (key : List String) (value : Value)
  | header (header : Header)

/-- A header after its opening bracket. -/
def scanHeader (cs : List Char) : Option (Header × List Char) :=
  match cs with
  | '[' :: cs =>
    match scanKey cs with
    | some (key, ']' :: ']' :: rest) => some (⟨true, key⟩, rest)
    | _ => none
  | cs =>
    match scanKey cs with
    | some (key, ']' :: rest) => some (⟨false, key⟩, rest)
    | _ => none

/-- A line with content, up to the end of its content. -/
def scanLine : Scanner Line
  | '[' :: rest => (scanHeader rest).map fun (header, rest) => (.header header, rest)
  | cs =>
    (scanPair (scanValue (nestingLimit - 1)) cs).map fun (pair, rest) => (.pair pair.1 pair.2, rest)

/-- The lines of a document. -/
def scanLines : Nat → List Char → Option (List Line)
  | 0, _ => none
  | fuel + 1, cs =>
    match skipBlanks cs with
    | [] => some []
    | '#' :: rest => do scanLines fuel (← scanTrailing ('#' :: rest))
    | '\n' :: rest => scanLines fuel rest
    | '\r' :: '\n' :: rest => scanLines fuel rest
    | cs => do
      let (line, rest) ← scanLine cs
      let lines ← scanLines fuel (← scanTrailing rest)
      pure (line :: lines)

/-- The keys before the first header, and the sections. -/
def sections (lines : List Line) : List (List String × Value) × List Section :=
  lines.foldr
    (fun line (pairs, sections) =>
      match line with
      | .pair key value => ((key, value) :: pairs, sections)
      | .header header => ([], ⟨header, pairs⟩ :: sections))
    ([], [])

/-- The document that some lines make. -/
def assemble (lines : List Line) : Option Entries := do
  let (pairs, sections) := sections lines
  sections.foldlM addSection (← fill [] pairs)

/-- Skip a byte order mark at the start. -/
def skipByteOrderMark : List Char → List Char
  | '\ufeff' :: rest => rest
  | cs => cs

/-- The document that a text spells. -/
def parse (s : String) : Option Entries :=
  let cs := skipByteOrderMark s.toList
  (scanLines (cs.length + 1) cs).bind assemble

end CachedStreams.Toml
