import CachedStreams.Decimal.Shortest

/-!
# TOML values

What a TOML document can hold. Tables keep their entries in the order in which they were defined,
and remember in which way they were defined, which decides whether a later line may add to them.
-/

set_option autoImplicit false

namespace CachedStreams.Toml

open Decimal

/-- A floating-point number. -/
inductive FloatValue where
  | nan
  | infinite (negative : Bool)
  | finite (negative : Bool) (magnitude : Binary64)
  deriving DecidableEq, Repr

/-- The text of a floating-point number: the shortest one that reads back, always with a point. -/
def FloatValue.text : FloatValue → String
  | nan => "NaN"
  | infinite false => "inf"
  | infinite true => "-inf"
  | finite false x => x.shortest.text
  | finite true x => "-" ++ x.shortest.text

/-- How a table was defined. -/
inductive TableForm where
  /-- Between braces: complete where it stands. -/
  | inline
  /-- By a header of its own. -/
  | header
  /-- As a parent of a table with a header. -/
  | implied
  /-- By dotted keys. -/
  | dotted
  deriving DecidableEq, Repr

/-- A TOML value. -/
inductive Value where
  | string (s : String)
  | integer (n : Int)
  | float (x : FloatValue)
  | boolean (b : Bool)
  | datetime
  | array (items : List Value)
  | table (form : TableForm) (entries : List (String × Value))
  /-- An array of tables with headers. -/
  | tables (items : List (List (String × Value)))

/-- The entries of a table in the order in which they were defined. -/
abbrev Entries := List (String × Value)

namespace Entries

/-- The value of a key. -/
def find? (entries : Entries) (key : String) : Option Value := entries.lookup key

/-- Give a key that is there another value, in the same place. -/
def replace (entries : Entries) (key : String) (value : Value) : Entries :=
  entries.map fun entry => if entry.1 == key then (key, value) else entry

/-- Add a key at the end. -/
def add (entries : Entries) (key : String) (value : Value) : Entries :=
  entries ++ [(key, value)]

/-- Take a key out. -/
def remove (entries : Entries) (key : String) : Entries :=
  entries.filter (·.1 != key)

end Entries

/-- Change the last item of a list, if it has one. -/
def updateLast? {α : Type} (f : α → Option α) : List α → Option (List α)
  | [] => none
  | [a] => (f a).map fun a => [a]
  | a :: rest => (updateLast? f rest).map (a :: ·)

end CachedStreams.Toml
