import CachedStreams.Config.Basic

/-!
# Writing settings

Settings as a TOML document: every setting under its name, sizes as text. A number above the largest
whole number of TOML has no written form; `writable` says for which settings there is one.
-/

set_option autoImplicit false

namespace CachedStreams.Config

/-- The largest number that can be written. -/
def maxWritable : Nat := Nat.pow 2 63 - 1

/-- The settings that are written as numbers. -/
def numbers (c : Config) : List Nat :=
  [c.cache.lockShards, c.stream.idleConfirmMs, c.stream.maxConfirmMs, c.stream.ttlSecs]

/-- Whether every number can be written. -/
def writable (c : Config) : Bool := c.numbers.all (· ≤ maxWritable)

/-- A line that gives a number. -/
def numberLine (name : String) (n : Nat) : String := name ++ " = " ++ toString n ++ "\n"

/-- A line that gives a size. -/
def sizeLine (name : String) (n : Nat) : String :=
  name ++ " = \"" ++ Size.render n ++ "\"\n"

/-- The written form of settings whose numbers are not too large. -/
def render (c : Config) : String :=
  "[cache]\n" ++
    numberLine "lock-shards" c.cache.lockShards ++
    "\n[stream]\n" ++
    sizeLine "initial-capacity" c.stream.initialCapacity ++
    sizeLine "slow-growth" c.stream.slowGrowth ++
    numberLine "idle-confirm-ms" c.stream.idleConfirmMs ++
    numberLine "max-confirm-ms" c.stream.maxConfirmMs ++
    numberLine "ttl-secs" c.stream.ttlSecs

/-- The written form of settings. -/
def toToml (c : Config) : Except Fault String :=
  if c.writable then .ok c.render else .error .unwritable

end CachedStreams.Config
