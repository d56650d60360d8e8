/-!
# Hashes of keys

A multiplicative hash of the bytes of a key, in 64-bit wrapping arithmetic. It decides which keys
share a generation lane, so its values matter only modulo the number of lanes.
-/

set_option autoImplicit false

namespace CachedStreams.KeyHash

/-- The low half of a product xored with its high half. -/
def fold (x y : UInt64) : UInt64 :=
  let product := x.toNat * y.toNat
  UInt64.ofNat product ^^^ UInt64.ofNat (product >>> 64)

/-- The number that `n` bytes from `start` on spell, least significant byte first. -/
def littleEndian (bytes : List UInt8) (start n : Nat) : UInt64 :=
  ((bytes.drop start).take n).foldr (fun b acc => acc * 256 + b.toUInt64) 0

/-- What the two halves of the state start from. -/
def seeds : UInt64 × UInt64 := (0x243f6a8885a308d3, 0x13198a2e03707344)

/-- Keeps a chunk of zeros from erasing the state. -/
def guard : UInt64 := 0xa4093822299f31d0

/-- Take `chunks` pieces of sixteen bytes into the state, from `start` on. -/
def absorb (bytes : List UInt8) : Nat → Nat → UInt64 × UInt64 → UInt64 × UInt64
  | 0, _, state => state
  | chunks + 1, start, (s0, s1) =>
    let x := littleEndian bytes start 8
    let y := littleEndian bytes (start + 8) 8
    absorb bytes chunks (start + 16) (s1, fold (s0 ^^^ x) (guard ^^^ y))

/-- The state after the bytes of a key; short keys are read from both ends, with overlaps. -/
def state (bytes : List UInt8) : UInt64 × UInt64 :=
  let n := bytes.length
  let (s0, s1) := seeds
  if 16 < n then
    let (s0, s1) := absorb bytes ((n - 1) / 16) 0 seeds
    (s0 ^^^ littleEndian bytes (n - 16) 8, s1 ^^^ littleEndian bytes (n - 8) 8)
  else if 8 ≤ n then
    (s0 ^^^ littleEndian bytes 0 8, s1 ^^^ littleEndian bytes (n - 8) 8)
  else if 4 ≤ n then
    (s0 ^^^ littleEndian bytes 0 4, s1 ^^^ littleEndian bytes (n - 4) 4)
  else if 0 < n then
    (s0 ^^^ littleEndian bytes 0 1,
      s1 ^^^ (littleEndian bytes (n - 1) 1 <<< 8 ||| littleEndian bytes (n / 2) 1))
  else (s0, s1)

/-- The factor of the last rounds. -/
def factor : UInt64 := 0xf1357aea2e62a9c5

/-- The hash of a key. -/
def hash (key : String) : UInt64 :=
  let bytes := key.toUTF8.toList
  let (s0, s1) := state bytes
  let word := fold s0 s1 ^^^ UInt64.ofNat bytes.length
  let h := (word * factor + 255) * factor
  h <<< 26 ||| h >>> 38

/-- Which of `lanes` lanes a key belongs to; there is always at least one. -/
def lane (lanes : Nat) (key : String) : Nat :=
  (hash key).toNat % max lanes 1

/-- Every key is served by one of the lanes that there are. -/
theorem lane_lt (lanes : Nat) (key : String) : lane lanes key < max lanes 1 :=
  Nat.mod_lt _ (by omega)

end CachedStreams.KeyHash
