import CachedStreams.Toml.Scan
import CachedStreams.Toml.Value

/-!
# Numbers, truth values, dates and times

The scanners for TOML values that are neither strings nor made of other values. Whole numbers have
64 bits with a sign; a number with a fraction or an exponent is rounded to binary floating point,
and is refused if it is positive and too large.
-/

set_option autoImplicit false

namespace CachedStreams.Toml

open Decimal

/-- The number that some digits of a base spell. -/
def ofBase (base : Nat) (digits : List Char) : Nat :=
  digits.foldl (fun n c => n * base + (hexValue? c).getD 0) 0

/-- Digits with single underscores between them, without the underscores. -/
def scanDigits (isDigit : Char → Bool) : Nat → Scanner (List Char)
  | 0, _ => none
  | fuel + 1, cs =>
    match cs with
    | [] => none
    | c :: rest =>
      if !isDigit c then none
      else
        match rest with
        | '_' :: more => (scanDigits isDigit fuel more).map fun (ds, rest) => (c :: ds, rest)
        | _ =>
          match scanDigits isDigit fuel rest with
          | some (ds, rest) => some (c :: ds, rest)
          | none => if startsDigit isDigit rest then none else some ([c], rest)
where
  /-- Whether a digit comes next. -/
  startsDigit (isDigit : Char → Bool) : List Char → Bool
    | c :: _ => isDigit c
    | [] => false

/-- Digits of base ten. -/
def scanDecimalDigits (cs : List Char) : Option (List Char × List Char) :=
  scanDigits Char.isDigit (cs.length + 1) cs

/-- A plus or minus sign, if there is one, as whether it is a minus. -/
def scanSign : List Char → Bool × List Char
  | '+' :: rest => (false, rest)
  | '-' :: rest => (true, rest)
  | cs => (false, cs)

/-- The whole part of a number: digits that do not start with a zero, or a single zero. -/
def scanWhole : Scanner (List Char)
  | '0' :: rest => some (['0'], rest)
  | cs => scanDecimalDigits cs

/-- The largest whole number. -/
def maxInteger : Nat := Nat.pow 2 63 - 1

/-- The whole number with a sign and a magnitude, if it fits. -/
def integerOf (negative : Bool) (n : Nat) : Option Int :=
  if negative then if n ≤ maxInteger + 1 then some (-(n : Int)) else none
  else if n ≤ maxInteger then some n else none

/-- A whole number in base sixteen, eight or two, after its mark. -/
def scanBase (base : Nat) (isDigit : Char → Bool) (cs : List Char) :
    Option (Value × List Char) := do
  let (digits, rest) ← scanDigits isDigit (cs.length + 1) cs
  let n ← integerOf false (ofBase base digits)
  pure (.integer n, rest)

/-- A whole number. -/
def scanInteger (cs : List Char) : Option (Value × List Char) :=
  match cs with
  | '0' :: 'x' :: rest => scanBase 16 (fun c => (hexValue? c).isSome) rest
  | '0' :: 'o' :: rest => scanBase 8 (fun c => '0' ≤ c && c ≤ '7') rest
  | '0' :: 'b' :: rest => scanBase 2 (fun c => c == '0' || c == '1') rest
  | cs => do
    let (negative, rest) := scanSign cs
    let (digits, rest) ← scanWhole rest
    let n ← integerOf negative (ofBase 10 digits)
    pure (.integer n, rest)

/-- An exponent of ten, which may start with zeros. -/
def scanExponent (cs : List Char) : Option (Int × List Char) := do
  let (negative, rest) := scanSign cs
  let (digits, rest) ← scanDecimalDigits rest
  let n : Int := ofBase 10 digits
  pure (if negative then -n else n, rest)

/-- Whether an exponent comes next. -/
def scanExponentMark : List Char → Option (List Char)
  | 'e' :: rest => some rest
  | 'E' :: rest => some rest
  | _ => none

/-- The floating-point number with a sign, digits and a scale, unless it is positive and too
large. -/
def floatOf (negative : Bool) (digits : List Char) (scale : Int) : Option FloatValue :=
  match Binary64.ofDecimal (ofBase 10 digits) scale with
  | some x => some (.finite negative x)
  | none => if negative then some (.infinite true) else none

/-- A number with a fraction, an exponent, or both. -/
def scanFloat (cs : List Char) : Option (Value × List Char) := do
  let (negative, rest) := scanSign cs
  let (whole, rest) ← scanWhole rest
  match rest with
  | '.' :: rest =>
    let (fraction, rest) ← scanDecimalDigits rest
    let (exponent, rest) ← match scanExponentMark rest with
      | some more => scanExponent more
      | none => some (0, rest)
    let x ← floatOf negative (whole ++ fraction) (exponent - fraction.length)
    pure (.float x, rest)
  | rest =>
    let rest ← scanExponentMark rest
    let (exponent, rest) ← scanExponent rest
    let x ← floatOf negative whole exponent
    pure (.float x, rest)

/-- Infinity and the number that is none, with or without a sign. -/
def scanSpecial (cs : List Char) : Option (Value × List Char) :=
  match scanSign cs with
  | (negative, 'i' :: 'n' :: 'f' :: rest) => some (.float (.infinite negative), rest)
  | (_, 'n' :: 'a' :: 'n' :: rest) => some (.float .nan, rest)
  | _ => none

/-- Exactly `count` digits that spell a number between `low` and `high`. -/
def scanField (count low high : Nat) (cs : List Char) : Option (Nat × List Char) :=
  let digits := cs.take count
  let n := ofBase 10 digits
  if digits.length = count ∧ digits.all Char.isDigit ∧ low ≤ n ∧ n ≤ high then
    some (n, cs.drop count)
  else none

/-- A given character. -/
def scanMark (mark : Char) : List Char → Option (List Char)
  | c :: rest => if c = mark then some rest else none
  | [] => none

/-- Whether a year has a 29th of February. -/
def isLeapYear (year : Nat) : Bool :=
  year % 4 == 0 && (year % 100 != 0 || year % 400 == 0)

/-- The number of days in a month. -/
def daysIn (year month : Nat) : Nat :=
  if month = 2 then if isLeapYear year then 29 else 28
  else if month = 4 ∨ month = 6 ∨ month = 9 ∨ month = 11 then 30
  else 31

/-- A day of the calendar. -/
def scanDate (cs : List Char) : Option (List Char) := do
  let (year, rest) ← scanField 4 0 9999 cs
  let rest ← scanMark '-' rest
  let (month, rest) ← scanField 2 1 12 rest
  let rest ← scanMark '-' rest
  let (_, rest) ← scanField 2 1 (daysIn year month) rest
  pure rest

/-- A fraction of a second, if there is one. -/
def skipSecondFraction : List Char → List Char
  | '.' :: rest =>
    if (rest.takeWhile Char.isDigit).isEmpty then '.' :: rest else rest.dropWhile Char.isDigit
  | cs => cs

/-- A time of day, which may be a leap second. -/
def scanTime (cs : List Char) : Option (List Char) := do
  let (_, rest) ← scanField 2 0 23 cs
  let rest ← scanMark ':' rest
  let (_, rest) ← scanField 2 0 59 rest
  let rest ← scanMark ':' rest
  let (_, rest) ← scanField 2 0 60 rest
  pure (skipSecondFraction rest)

/-- An offset in hours and minutes, after its sign. -/
def scanOffset (cs : List Char) : Option (List Char) := do
  let (_, rest) ← scanField 2 0 23 cs
  let rest ← scanMark ':' rest
  let (_, rest) ← scanField 2 0 59 rest
  pure rest

/-- The offset after a date and a time, if there is one. -/
def skipOffset (cs : List Char) : List Char :=
  match cs with
  | 'Z' :: rest => rest
  | 'z' :: rest => rest
  | '+' :: rest => (scanOffset rest).getD cs
  | '-' :: rest => (scanOffset rest).getD cs
  | cs => cs

/-- The time after a date, if there is one. -/
def skipTimeAfterDate (cs : List Char) : List Char :=
  match cs with
  | c :: rest =>
    if c = 'T' ∨ c = 't' ∨ c = ' ' then
      match scanTime rest with
      | some rest => skipOffset rest
      | none => cs
    else cs
  | [] => []

/-- A date, a time, or both. -/
def scanDatetime (cs : List Char) : Option (Value × List Char) :=
  match scanDate cs with
  | some rest => some (.datetime, skipTimeAfterDate rest)
  | none => (scanTime cs).map fun rest => (.datetime, rest)

/-- A value that is not made of other values. -/
def scanScalar (cs : List Char) : Option (Value × List Char) :=
  match cs with
  | '"' :: _ => (scanString cs).map fun (s, rest) => (.string s, rest)
  | '\'' :: _ => (scanString cs).map fun (s, rest) => (.string s, rest)
  | 't' :: 'r' :: 'u' :: 'e' :: rest => some (.boolean true, rest)
  | 'f' :: 'a' :: 'l' :: 's' :: 'e' :: rest => some (.boolean false, rest)
  | cs =>
    (scanDatetime cs).or ((scanFloat cs).or ((scanSpecial cs).or (scanInteger cs)))

end CachedStreams.Toml
