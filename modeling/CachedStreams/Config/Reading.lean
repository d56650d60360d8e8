import CachedStreams.Config.Basic
import CachedStreams.Toml.Document

/-!
# Reading settings

Settings from a TOML document. Each section is a table with the settings by name, or an array with
the settings in order; names that mean nothing are passed over, and what is missing has its
default. The first value in the order of the document that does not fit is reported.
-/

set_option autoImplicit false

namespace CachedStreams.Config

/-- A value as an error message describes it. -/
def describe : Toml.Value → String
  | .string s => "string " ++ Text.quoted s
  | .integer n => "integer \x60" ++ toString n ++ "\x60"
  | .float x => "floating point \x60" ++ x.text ++ "\x60"
  | .boolean b => "boolean \x60" ++ toString b ++ "\x60"
  | .datetime => "map"
  | .array _ => "sequence"
  | .table _ _ => "map"
  | .tables _ => "sequence"

/-- A number that is not negative. -/
def readNumber (wanted : Wanted) : Toml.Value → Except Misfit Nat
  | .integer n => if 0 ≤ n then .ok n.toNat else .error (.negative n wanted)
  | v => .error (.wrongType (describe v) wanted)

/-- A size, as a number of bytes or as text. -/
def readSize : Toml.Value → Except Misfit Nat
  | .integer n => if 0 ≤ n then .ok n.toNat else .error (.negative n .size)
  | .string s =>
    match Size.parse s with
    | some n => .ok n
    | none => .error (.notASize s)
  | v => .error (.wrongType (describe v) .size)

/-- One setting of a section: its name, and how a value changes the section. -/
structure Setting (σ : Type) where
  name : String
  read : σ → Toml.Value → Except Misfit σ

/-- The settings of the keyed caches, in order. -/
def cacheSettings : List (Setting CacheSettings) :=
  [⟨"lock-shards", fun s v => return { s with lockShards := ← readNumber .count v }⟩]

/-- The settings of the buffers, in order. -/
def streamSettings : List (Setting StreamSettings) :=
  [⟨"initial-capacity", fun s v => return { s with initialCapacity := ← readSize v }⟩,
    ⟨"slow-growth", fun s v => return { s with slowGrowth := ← readSize v }⟩,
    ⟨"idle-confirm-ms", fun s v => return { s with idleConfirmMs := ← readNumber .number v }⟩,
    ⟨"max-confirm-ms", fun s v => return { s with maxConfirmMs := ← readNumber .number v }⟩,
    ⟨"ttl-secs", fun s v => return { s with ttlSecs := ← readNumber .number v }⟩]

/-- A section given by name: each entry changes the section as the setting of its name says. -/
def readEntries {σ : Type} (settings : List (Setting σ)) (start : σ) (entries : Toml.Entries) :
    Except Misfit σ :=
  entries.foldlM
    (fun s entry =>
      match settings.find? (·.name == entry.1) with
      | some setting => setting.read s entry.2
      | none => .ok s)
    start

/-- A section given in order: as many settings as there are values. -/
def readItems {σ : Type} (settings : List (Setting σ)) (start : σ) (items : List Toml.Value) :
    Except Misfit σ :=
  (settings.zip items).foldlM (fun s pair => pair.1.read s pair.2) start

/-- A section. A date or time is a section without a setting in it. -/
def readSection {σ : Type} (wanted : Wanted) (settings : List (Setting σ)) (start : σ) :
    Toml.Value → Except Misfit σ
  | .table _ entries => readEntries settings start entries
  | .array items => readItems settings start items
  | .tables items => readItems settings start (items.map (.table .header ·))
  | .datetime => .ok start
  | v => .error (.wrongType (describe v) wanted)

/-- The sections of the settings. -/
def configSections : List (Setting Config) :=
  [⟨"cache", fun c v => return { c with cache := ← readSection .cacheSection cacheSettings {} v }⟩,
    ⟨"stream",
      fun c v => return { c with stream := ← readSection .streamSection streamSettings {} v }⟩]

/-- The settings that a document gives. -/
def ofDocument (document : Toml.Entries) : Except Misfit Config :=
  readEntries configSections {} document

/-- The settings that a text gives, if they are usable. -/
def ofToml (text : String) : Except Fault Config :=
  match Toml.parse text with
  | none => .error .malformed
  | some document =>
    match ofDocument document with
    | .error m => .error (.misfit m)
    | .ok c => if c.isValid then .ok c else .error (.unusable c.problems)

end CachedStreams.Config
