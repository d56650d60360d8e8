import CachedStreams.Decimal.Binary64
import CachedStreams.Text.Blank

/-!
# Sizes in bytes

Counts of bytes below `2 ^ 64` as text. A size is written as a plain count below 1024, and otherwise
with one decimal in the largest binary unit that is not above it. It is read as a plain count, or as
a number with a decimal or binary unit; whole numbers are multiplied exactly, others in binary
floating point, and what does not fit is cut off at the largest count.
-/

set_option autoImplicit false

namespace CachedStreams.Size

open Decimal

/-- The largest size. -/
def maxSize : Nat := Nat.pow 2 64 - 1

/-- The value of a digit. -/
def digitValue (c : Char) : Nat := c.toNat - 48

/-- The number that some digits spell. -/
def ofDigits (cs : List Char) : Nat := cs.foldl (fun n c => n * 10 + digitValue c) 0

/-- A character of ASCII in lower case, any other one as it is. -/
def lowerChar (c : Char) : Char :=
  if 65 ≤ c.toNat ∧ c.toNat ≤ 90 then Char.ofNat (c.toNat + 32) else c

/-- The number of bytes in a unit, given in lower case. -/
def unitFactor : List Char → Option Nat
  | ['b'] => some 1
  | ['k'] => some 1000
  | ['k', 'b'] => some 1000
  | ['m'] => some (Nat.pow 1000 2)
  | ['m', 'b'] => some (Nat.pow 1000 2)
  | ['g'] => some (Nat.pow 1000 3)
  | ['g', 'b'] => some (Nat.pow 1000 3)
  | ['t'] => some (Nat.pow 1000 4)
  | ['t', 'b'] => some (Nat.pow 1000 4)
  | ['p'] => some (Nat.pow 1000 5)
  | ['p', 'b'] => some (Nat.pow 1000 5)
  | ['e'] => some (Nat.pow 1000 6)
  | ['e', 'b'] => some (Nat.pow 1000 6)
  | ['k', 'i'] => some 1024
  | ['k', 'i', 'b'] => some 1024
  | ['m', 'i'] => some (Nat.pow 1024 2)
  | ['m', 'i', 'b'] => some (Nat.pow 1024 2)
  | ['g', 'i'] => some (Nat.pow 1024 3)
  | ['g', 'i', 'b'] => some (Nat.pow 1024 3)
  | ['t', 'i'] => some (Nat.pow 1024 4)
  | ['t', 'i', 'b'] => some (Nat.pow 1024 4)
  | ['p', 'i'] => some (Nat.pow 1024 5)
  | ['p', 'i', 'b'] => some (Nat.pow 1024 5)
  | ['e', 'i'] => some (Nat.pow 1024 6)
  | ['e', 'i', 'b'] => some (Nat.pow 1024 6)
  | _ => none

/-- A plain count: digits, perhaps after a plus sign, that do not exceed the largest size. -/
def parseCount (cs : List Char) : Option Nat :=
  let digits := match cs with
    | '+' :: rest => rest
    | cs => cs
  if digits ≠ [] ∧ digits.all Char.isDigit ∧ ofDigits digits ≤ maxSize then some (ofDigits digits)
  else none

/-- The digits before and after the point of a number with at most one point and at least one
digit. -/
def splitPoint (cs : List Char) : Option (List Char × List Char) :=
  let whole := cs.takeWhile Char.isDigit
  match cs.dropWhile Char.isDigit with
  | [] => if whole.isEmpty then none else some (whole, [])
  | '.' :: fraction =>
    if fraction.all Char.isDigit ∧ (whole ≠ [] ∨ fraction ≠ []) then some (whole, fraction)
    else none
  | _ => none

/-- The product of a decimal number and a unit in binary floating point, without its fraction. -/
def floatProduct (whole fraction : List Char) (factor : Nat) : Nat :=
  match (Binary64.ofDecimal (ofDigits (whole ++ fraction)) (-(fraction.length : Int))).bind
      (·.mulNat factor) with
  | some product => min product.floor maxSize
  | none => maxSize

/-- The size that a number and a unit make. -/
def withUnit (number : List Char) (factor : Nat) : Option Nat :=
  match splitPoint number with
  | none => none
  | some (whole, fraction) =>
    if number.contains '.' || maxSize < ofDigits whole then
      some (floatProduct whole fraction factor)
    else some (min (ofDigits whole * factor) maxSize)

/-- Whether a character can stand in a number before a unit. -/
def isNumberChar (c : Char) : Bool := c.isDigit || c == '.'

/-- The size that some characters spell. -/
def parseChars (cs : List Char) : Option Nat :=
  match parseCount cs with
  | some n => some n
  | none =>
    let number := cs.takeWhile isNumberChar
    let unit := ((cs.dropWhile isNumberChar).dropWhile Text.isBlank).map lowerChar
    (unitFactor unit).bind (withUnit number)

/-- The size that a text spells. -/
def parse (s : String) : Option Nat := parseChars s.toList

/-- The letters of the binary units, in rising order. -/
def unitLetters : List Char := ['K', 'M', 'G', 'T', 'P', 'E']

/-- The largest power of 1024, up to the sixth, that is not above `value`, as an exponent. -/
def unitExponent (value : Nat) : Nat := min (value.log2 / 10) 6

/-- The value of a size in binary floating point. -/
def floatValue (n : Nat) : Nat :=
  match Binary64.ofRatio n 1 with
  | some x => x.floor
  | none => n

/-- How many tenths of its unit a size is written with. -/
def tenths (n : Nat) : Nat :=
  let value := floatValue n
  roundDiv (value * 10) (Nat.pow 1024 (unitExponent value))

/-- The characters of a size's text. -/
def renderChars (n : Nat) : List Char :=
  if n < 1024 then Nat.toDigits 10 n ++ [' ', 'B']
  else
    Nat.toDigits 10 (tenths n / 10) ++ '.' :: Nat.toDigits 10 (tenths n % 10) ++
      [' ', unitLetters.getD (unitExponent (floatValue n) - 1) 'K', 'i', 'B']

/-- The text of a size. -/
def render (n : Nat) : String := String.ofList (renderChars n)

end CachedStreams.Size
