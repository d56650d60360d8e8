import CachedStreams.Decimal.Rounding

/-!
# Binary floating point

Magnitudes of 64-bit binary floating-point numbers as a mantissa below `2 ^ 53` and an exponent of
two, and rounding of exact ratios to them. All arithmetic is on whole numbers.
-/

set_option autoImplicit false

namespace CachedStreams.Decimal

/-- The magnitude `mantissa * 2 ^ exponent`. -/
structure Binary64 where
  mantissa : Nat
  exponent : Int
  deriving DecidableEq, Repr

namespace Binary64

/-- The smallest exponent. -/
def minExponent : Int := -1074

/-- The largest exponent. -/
def maxExponent : Int := 971

/-- Zero. -/
def zero : Binary64 := ⟨0, minExponent⟩

/-- A ratio `n / d` times `2 ^ -e`, as a ratio. -/
def scaleRatio (n d : Nat) (e : Int) : Nat × Nat :=
  if 0 ≤ e then (n, d * Nat.pow 2 e.toNat) else (n * Nat.pow 2 (-e).toNat, d)

/-- The exponent at which `n / d` has a mantissa of 53 bits, or the smallest exponent. -/
def exponentOf (n d : Nat) : Int :=
  let guess := max ((n.log2 : Int) - (d.log2 : Int) - 53) minExponent
  let (sn, sd) := scaleRatio n d guess
  if sd * Nat.pow 2 53 ≤ sn then guess + 1 else guess

/-- The number nearest to `n / d`, halves to an even mantissa; `none` past the largest number. -/
def ofRatio (n d : Nat) : Option Binary64 :=
  if n = 0 then some zero
  else
    let e := exponentOf n d
    let (sn, sd) := scaleRatio n d e
    let m := roundDiv sn sd
    let x : Binary64 := if m = Nat.pow 2 53 then ⟨Nat.pow 2 52, e + 1⟩ else ⟨m, e⟩
    if x.exponent ≤ maxExponent then some x else none

/-- The number as a ratio. -/
def toRatio (x : Binary64) : Nat × Nat :=
  if 0 ≤ x.exponent then (x.mantissa * Nat.pow 2 x.exponent.toNat, 1)
  else (x.mantissa, Nat.pow 2 (-x.exponent).toNat)

/-- The whole part of the number. -/
def floor (x : Binary64) : Nat :=
  let (n, d) := x.toRatio
  n / d

/-- The product with a whole number, rounded. -/
def mulNat (x : Binary64) (k : Nat) : Option Binary64 :=
  let (n, d) := x.toRatio
  ofRatio (n * k) d

/-- The number nearest to `digits * 10 ^ scale`. Scales far beyond the range are not computed
with. -/
def ofDecimal (digits : Nat) (scale : Int) : Option Binary64 :=
  if digits = 0 then some zero
  else
    let magnitude : Int := (digits.log2 : Int) / 4 + scale
    if 400 < magnitude then none
    else if (digits.log2 : Int) + scale < -400 then some zero
    else if 0 ≤ scale then ofRatio (digits * Nat.pow 10 scale.toNat) 1
    else ofRatio digits (Nat.pow 10 (-scale).toNat)

end Binary64

end CachedStreams.Decimal
