import CachedStreams.Decimal.Binary64

/-!
# The shortest decimal text of a binary number

Of all decimals that read back as a given binary floating-point number, the ones with the fewest
digits, and of those the nearest. The text is positional and always has a point.
-/

set_option autoImplicit false

namespace CachedStreams.Decimal

/-- The decimal `digits * 10 ^ scale`. -/
structure Numeral where
  digits : Nat
  scale : Int
  deriving DecidableEq, Repr

namespace Binary64

/-- Whether a decimal reads back as the number. -/
def isReadFrom (x : Binary64) (d : Numeral) : Bool :=
  ofDecimal d.digits d.scale == some x

/-- The number times `10 ^ -scale`, as a ratio. -/
def onGrid (x : Binary64) (scale : Int) : Nat × Nat :=
  let (n, d) := x.toRatio
  if 0 ≤ scale then (n, d * Nat.pow 10 scale.toNat) else (n * Nat.pow 10 (-scale).toNat, d)

/-- The nearer of the two neighbours of the number among the multiples of `10 ^ scale`, of those
that read back. -/
def neighbour (x : Binary64) (scale : Int) : Option Numeral :=
  let (n, d) := x.onGrid scale
  let below : Numeral := ⟨n / d, scale⟩
  let above : Numeral := ⟨n / d + 1, scale⟩
  match x.isReadFrom below, x.isReadFrom above with
  | true, true => some (if roundDiv n d = n / d then below else above)
  | true, false => some below
  | false, true => some above
  | false, false => none

/-- The first grid, from `scale` downwards, with a neighbour that reads back. -/
def search (x : Binary64) : Nat → Int → Option Numeral
  | 0, _ => none
  | fuel + 1, scale =>
    match x.neighbour scale with
    | some d => some d
    | none => x.search fuel (scale - 1)

/-- The least power of ten above the number, as an exponent; never too small. -/
def decimalExponent (x : Binary64) : Int :=
  let (n, d) := x.toRatio
  (((n.log2 : Int) - (d.log2 : Int) + 1) * 30103) / 100000 + 1

/-- The shortest decimal that reads back as the number. -/
def shortest (x : Binary64) : Numeral :=
  if x.mantissa = 0 then ⟨0, 0⟩ else (x.search 32 x.decimalExponent).getD ⟨0, 0⟩

end Binary64

/-- The positional text of a decimal, with a point and at least one digit on either side of it. -/
def Numeral.text (d : Numeral) : String :=
  if 0 ≤ d.scale then
    String.ofList (Nat.toDigits 10 d.digits ++ List.replicate d.scale.toNat '0' ++ ['.', '0'])
  else
    let places := (-d.scale).toNat
    let digits := Nat.toDigits 10 d.digits
    let padded := List.replicate (places + 1 - digits.length) '0' ++ digits
    let whole := padded.length - places
    String.ofList (padded.take whole ++ '.' :: padded.drop whole)

end CachedStreams.Decimal
