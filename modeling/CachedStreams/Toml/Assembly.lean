import CachedStreams.Toml.Value

/-!
# Assembling tables

How the lines of a document build up its tables. A key is defined once. Dotted keys may add to
tables that were made by dotted keys or as parents of headers, and end in a table made by dotted
keys; a header may take over a table that only came to be as a parent of others, or add an item to
an array of tables; a table between braces takes nothing from outside.
-/

set_option autoImplicit false

namespace CachedStreams.Toml

/-- Define a key, given by its last part, below the tables that the parts before it name. -/
def put (key : String) (value : Value) (viaDots : Bool) :
    List String → TableForm → Entries → Option Entries
  | [], form, entries =>
    if (form == .dotted) == viaDots && (entries.find? key).isNone then
      some (entries.add key value)
    else none
  | part :: path, _, entries =>
    match entries.find? part with
    | none =>
      (put key value viaDots path .dotted []).map fun inner =>
        entries.add part (.table .dotted inner)
    | some (.table form inner) =>
      if form = .inline ∨ form = .header then none
      else
        (put key value viaDots path form inner).map fun inner =>
          entries.replace part (.table form inner)
    | some (.tables items) =>
      (updateLast? (put key value viaDots path .header) items).map fun items =>
        entries.replace part (.tables items)
    | some _ => none

/-- Define a key of one or more parts in a table. -/
def define (entries : Entries) (key : List String) (value : Value) : Option Entries :=
  match key.getLast? with
  | some last => put last value (1 < key.length) key.dropLast .header entries
  | none => none

/-- Define several keys in a table, one after another. -/
def fill (entries : Entries) (pairs : List (List String × Value)) : Option Entries :=
  pairs.foldlM (fun entries pair => define entries pair.1 pair.2) entries

/-- Change the table that some parts of a header name, making those that are missing. -/
def within (f : Entries → Option Entries) : List String → Entries → Option Entries
  | [], entries => f entries
  | part :: path, entries =>
    match entries.find? part with
    | none => (within f path []).map fun inner => entries.add part (.table .implied inner)
    | some (.table form inner) =>
      if form = .inline then none
      else (within f path inner).map fun inner => entries.replace part (.table form inner)
    | some (.tables items) =>
      (updateLast? (within f path) items).map fun items => entries.replace part (.tables items)
    | some _ => none

/-- A table with a header. It moves behind the tables that were defined since it was implied. -/
def openTable (key : String) (pairs : List (List String × Value)) (entries : Entries) :
    Option Entries :=
  match entries.find? key with
  | none => (fill [] pairs).map fun inner => entries.add key (.table .header inner)
  | some (.table .implied inner) =>
    (fill inner pairs).map fun inner => (entries.remove key).add key (.table .header inner)
  | some _ => none

/-- One more item of an array of tables. -/
def openItem (key : String) (pairs : List (List String × Value)) (entries : Entries) :
    Option Entries :=
  match entries.find? key with
  | none => (fill [] pairs).map fun inner => entries.add key (.tables [inner])
  | some (.tables items) =>
    (fill [] pairs).map fun inner => entries.replace key (.tables (items ++ [inner]))
  | some _ => none

/-- A header: of a table or of an item of an array of tables. -/
structure Header where
  isItem : Bool
  key : List String

/-- A header and the keys defined below it. -/
structure Section where
  header : Header
  pairs : List (List String × Value)

/-- Add a section to a document. -/
def addSection (document : Entries) (s : Section) : Option Entries :=
  match s.header.key.getLast? with
  | none => none
  | some last =>
    within (if s.header.isItem then openItem last s.pairs else openTable last s.pairs)
      s.header.key.dropLast document

end CachedStreams.Toml
