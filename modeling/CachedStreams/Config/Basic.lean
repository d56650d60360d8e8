import CachedStreams.Files
import CachedStreams.KeyedCache.Basic
import CachedStreams.Size
import CachedStreams.Stream.StreamCache
import CachedStreams.Text.Quoted

/-!
# Settings

The settings of the caches and of the buffers, with a default for each, what makes them unusable,
and what can go wrong when they are read or written.
-/

set_option autoImplicit false

namespace CachedStreams

/-- The settings of the keyed caches. -/
structure CacheSettings where
  /-- How many generation lanes the keys of a cache are spread over. -/
  lockShards : Nat := KeyedCache.defaultLanes
  deriving DecidableEq, Repr

/-- The settings of the buffers and of their cache. -/
structure StreamSettings where
  /-- Capacity of a buffer before its first read, in bytes. -/
  initialCapacity : Nat := 4096
  /-- The size from which on a buffer grows by as much instead of tripling. -/
  slowGrowth : Nat := 67108864
  /-- How long a stream may be quiet before a waiting opener is let in, in milliseconds. -/
  idleConfirmMs : Nat := 100
  /-- How long an opener waits at most, in milliseconds. -/
  maxConfirmMs : Nat := 5000
  /-- How long an opened stream stays in its cache, in seconds. -/
  ttlSecs : Nat := 300
  deriving DecidableEq, Repr

/-- All settings. -/
structure Config where
  cache : CacheSettings := {}
  stream : StreamSettings := {}
  deriving DecidableEq, Repr

namespace Config

/-- Something that makes settings unusable. -/
inductive Problem where
  | noLockShards
  | noInitialCapacity
  | noSlowGrowth
  | idleExceedsMax (idle max : Nat)
  deriving DecidableEq, Repr

/-- The text of a problem. -/
def Problem.text : Problem → String
  | noLockShards => "cache.lock-shards must be at least 1."
  | noInitialCapacity => "stream.initial-capacity must be non-zero."
  | noSlowGrowth => "stream.slow-growth must be non-zero."
  | idleExceedsMax idle max =>
    "stream.idle-confirm-ms (" ++ toString idle ++ ") exceeds stream.max-confirm-ms (" ++
      toString max ++ ")."

/-- Everything that makes the settings unusable. -/
def problems (c : Config) : List Problem :=
  (if c.cache.lockShards = 0 then [.noLockShards] else []) ++
    (if c.stream.initialCapacity = 0 then [.noInitialCapacity] else []) ++
    (if c.stream.slowGrowth = 0 then [.noSlowGrowth] else []) ++
    if c.stream.maxConfirmMs < c.stream.idleConfirmMs then
      [.idleExceedsMax c.stream.idleConfirmMs c.stream.maxConfirmMs]
    else []

/-- Whether the settings are usable. -/
def isValid (c : Config) : Bool := c.problems.isEmpty

/-- How long an opened stream stays in its cache. -/
def ttl (c : Config) : Nat := Duration.ofSecs c.stream.ttlSecs

/-- The options that the settings give to buffers. -/
def bufferOptions (c : Config) : BufferOptions where
  initialCapacity := c.stream.initialCapacity
  slowGrowth := c.stream.slowGrowth
  idleConfirm := Duration.ofMillis c.stream.idleConfirmMs
  maxConfirm := Duration.ofMillis c.stream.maxConfirmMs

/-- A cache of shared buffers with these settings. -/
def streamCache (c : Config) : StreamCache :=
  .create c.cache.lockShards c.ttl c.bufferOptions

/-- What a setting is wanted to be. -/
inductive Wanted where
  | count
  | number
  | size
  | cacheSection
  | streamSection
  deriving DecidableEq, Repr

/-- The words for what is wanted. -/
def Wanted.text : Wanted → String
  | count => "usize"
  | number => "u64"
  | size => "an integer or string"
  | cacheSection => "struct CacheConfig"
  | streamSection => "struct StreamConfig"

/-- How a well-formed document fails to give settings. -/
inductive Misfit where
  /-- A value of a kind that cannot be used; `found` describes it. -/
  | wrongType (found : String) (wanted : Wanted)
  /-- A negative number. -/
  | negative (n : Int) (wanted : Wanted)
  /-- A text that is no size. -/
  | notASize (text : String)
  deriving DecidableEq, Repr

/-- The text of a misfit. -/
def Misfit.text : Misfit → String
  | wrongType found wanted => "invalid type: " ++ found ++ ", expected " ++ wanted.text
  | negative n wanted =>
    "invalid value: integer \x60" ++ toString n ++ "\x60, expected " ++
      (match wanted with
        | .size => "integer overflow"
        | wanted => wanted.text)
  | notASize text => "invalid value: string " ++ Text.quoted text ++ ", expected parsable string"

/-- What can go wrong when settings are read or written. -/
inductive Fault where
  | unusable (problems : List Problem)
  /-- The text is not a document. -/
  | malformed
  | misfit (misfit : Misfit)
  /-- A number is too large to be written. -/
  | unwritable
  | unreadable (fault : FileFault)
  deriving DecidableEq, Repr

/-- The text of what went wrong; for a malformed document there is none of our own. -/
def Fault.text : Fault → Option String
  | unusable problems =>
    some ("Configuration validation errors: " ++ Text.quotedList (problems.map (·.text)))
  | malformed => none
  | misfit m => some m.text
  | unwritable => some "Serialization error: out-of-range value for u64 type"
  | unreadable fault => some ("I/O error: " ++ fault.text)

end Config

end CachedStreams
