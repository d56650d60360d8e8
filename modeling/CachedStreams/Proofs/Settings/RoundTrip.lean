import CachedStreams.Config.Reading
import CachedStreams.Config.Writing
import CachedStreams.Proofs.Settings.Lines
import CachedStreams.Proofs.Settings.SizeRounding

/-!
# Settings that are written and read again

Whatever usable settings are written can be read, and every number comes back. A size comes back as
what its text spells (`Size.ReadsBackAs`), which is the size itself below 1024 and for multiples of
half a unit, and otherwise a size nearby: 1025 bytes are written as `1.0 KiB`, which are 1024. The
settings that have been read are written as a text that gives the same settings again.
-/

set_option autoImplicit false

namespace CachedStreams

open Toml (IsBareName IsLine)

namespace Size

/-- `m` is a size that is read from the text of `n`. -/
structure ReadsBackAs (n m : ℕ) : Prop where
  plain : n < 1024 → m = n
  halves : ∀ k, 1024 ≤ n → 2 * n = k * unit n → m = n
  tenths : 1024 ≤ n → n < 2 ^ 50 → m = tenths n * unit n / 10
  near : 1024 ≤ n → 16 * n ≤ 16 * m + unit n ∧ 16 * m ≤ 16 * n + unit n

/-- The text of a size is read as what it spells. -/
theorem readsBackAs_spelling {n : ℕ} (fits : n ≤ maxSize) : ReadsBackAs n (spelling n) where
  plain small := if_pos small
  halves _ large halves := spelling_of_halves large fits halves
  tenths := spelling_of_lt
  near large := spelling_near_size large fits

/-- A size that is not zero is not read as zero. -/
theorem spelling_pos {n : ℕ} (pos : 0 < n) (fits : n ≤ maxSize) : 0 < spelling n := by
  by_cases small : n < 1024
  · rwa [spelling, if_pos small]
  · have large := Nat.not_lt.mp small
    obtain ⟨unit_ge, unit_le, -, near, -⟩ := isWritten large fits
    have near := abs_le.mp near
    have below : (16 : ℚ) * n ≤ 16 * spelling n + unit n := by
      exact_mod_cast (spelling_near_size large fits).1
    have : (0 : ℚ) < spelling n := by linarith
    exact_mod_cast this

/-- The text of a size needs no escapes. -/
theorem isPlainText_renderChars (n : ℕ) : Toml.IsPlainText (renderChars n) := by
  have digit : ∀ m, ∀ c ∈ digits m, Toml.isPlain c = true ∧ c ≠ '"' ∧ c ≠ '\\' := by
    intro m c h
    have cases := Toml.isDigit_cases (isDigit_of_mem_digits h)
    fin_cases cases <;> decide
  have letter : ∀ e, Toml.isPlain (unitLetters.getD e 'K') = true ∧
      unitLetters.getD e 'K' ≠ '"' ∧ unitLetters.getD e 'K' ≠ '\\' := by
    intro e
    by_cases known : e < 6
    · interval_cases e <;> decide
    · rw [List.getD_eq_default _ _ (Nat.not_lt.mp known)]
      decide
  unfold renderChars
  split
  · refine ⟨by simp, fun c h => ?_⟩
    rcases List.mem_append.mp h with h | h
    · exact digit n c h
    · fin_cases h <;> decide
  · refine ⟨by simp, fun c h => ?_⟩
    rcases List.mem_append.mp h with h | h
    · rcases List.mem_append.mp h with h | h
      · exact digit _ c h
      · rcases List.mem_cons.mp h with rfl | h
        · decide
        · exact digit _ c h
    · simp only [List.mem_cons, List.not_mem_nil, or_false] at h
      rcases h with rfl | rfl | rfl | rfl
      · decide
      · exact letter _
      · decide
      · decide

end Size

namespace Config

/-- Sizes have 64 bits. -/
structure SizesFit (c : Config) : Prop where
  initialCapacity : c.stream.initialCapacity ≤ Size.maxSize
  slowGrowth : c.stream.slowGrowth ≤ Size.maxSize

/-- The settings with each size as its text spells it. -/
def respelled (c : Config) : Config :=
  { c with stream :=
    { c.stream with
      initialCapacity := Size.spelling c.stream.initialCapacity
      slowGrowth := Size.spelling c.stream.slowGrowth } }

/-- The document that the written settings make. -/
def document (c : Config) : Toml.Entries :=
  [("cache", .table .header [("lock-shards", .integer c.cache.lockShards)]),
    ("stream", .table .header
      [("initial-capacity", .string (Size.render c.stream.initialCapacity)),
        ("slow-growth", .string (Size.render c.stream.slowGrowth)),
        ("idle-confirm-ms", .integer c.stream.idleConfirmMs),
        ("max-confirm-ms", .integer c.stream.maxConfirmMs),
        ("ttl-secs", .integer c.stream.ttlSecs)])]

/-- The characters of a header. -/
def headerChars (name : String) : List Char := '[' :: name.toList ++ [']']

/-- The characters of a line that gives a value. -/
def pairChars (name : String) (text : List Char) : List Char :=
  name.toList ++ ' ' :: '=' :: ' ' :: text

/-- The text of the settings, line by line. -/
theorem toList_render (c : Config) :
    c.render.toList =
      headerChars "cache" ++ '\n' ::
      (pairChars "lock-shards" (Size.digits c.cache.lockShards) ++ '\n' ::
      '\n' ::
      (headerChars "stream" ++ '\n' ::
      (pairChars "initial-capacity" ('"' :: Size.renderChars c.stream.initialCapacity ++ ['"']) ++
      '\n' ::
      (pairChars "slow-growth" ('"' :: Size.renderChars c.stream.slowGrowth ++ ['"']) ++ '\n' ::
      (pairChars "idle-confirm-ms" (Size.digits c.stream.idleConfirmMs) ++ '\n' ::
      (pairChars "max-confirm-ms" (Size.digits c.stream.maxConfirmMs) ++ '\n' ::
      (pairChars "ttl-secs" (Size.digits c.stream.ttlSecs) ++ '\n' :: []))))))) := by
  simp [render, numberLine, sizeLine, headerChars, pairChars, Size.render, Size.digits]

/-- The lines of the settings make up their document. -/
theorem assemble_document (c : Config) : Toml.assemble
    [.header ⟨false, ["cache"]⟩, .pair ["lock-shards"] (.integer c.cache.lockShards),
      .header ⟨false, ["stream"]⟩,
      .pair ["initial-capacity"] (.string (Size.render c.stream.initialCapacity)),
      .pair ["slow-growth"] (.string (Size.render c.stream.slowGrowth)),
      .pair ["idle-confirm-ms"] (.integer c.stream.idleConfirmMs),
      .pair ["max-confirm-ms"] (.integer c.stream.maxConfirmMs),
      .pair ["ttl-secs"] (.integer c.stream.ttlSecs)] = some c.document := by
  rfl

/-- The header of a section is a line. -/
theorem isLine_header {name : String} (h : IsBareName name.toList) :
    IsLine (headerChars name) (.header ⟨false, [name]⟩) := by
  have := Toml.isLine_header h
  rwa [String.ofList_toList] at this

/-- A setting that is a number is a line. -/
theorem isLine_number {name : String} (h : IsBareName name.toList) {n : ℕ}
    (fits : n ≤ maxWritable) :
    IsLine (pairChars name (Size.digits n)) (.pair [name] (.integer n)) := by
  have := Toml.isLine_pair h (Toml.scanScalar_digits fits) (by
    obtain ⟨first, rest, starts, digit⟩ := Size.digits_eq_cons n
    refine ⟨first, rest, starts, fun bracket => ?_⟩
    fin_cases bracket <;> exact absurd digit (by decide))
  rwa [String.ofList_toList] at this

/-- A setting that is a size is a line. -/
theorem isLine_size {name : String} (h : IsBareName name.toList) (n : ℕ) :
    IsLine (pairChars name ('"' :: Size.renderChars n ++ ['"']))
      (.pair [name] (.string (Size.render n))) := by
  have scalar : ∀ rest, Toml.scanScalar (('"' :: Size.renderChars n ++ ['"']) ++ '\n' :: rest) =
      some (.string (String.ofList (Size.renderChars n)), '\n' :: rest) := by
    intro rest
    have quoted := Toml.scanScalar_quoted (Size.isPlainText_renderChars n) ('\n' :: rest)
    simpa using quoted
  have line := Toml.isLine_pair h scalar ⟨'"', _, rfl, by decide⟩
  rwa [String.ofList_toList] at line

/-- The written settings are a document. -/
theorem parse_render {c : Config} (writable : c.writable = true) :
    Toml.parse c.render = some c.document := by
  have numbers : ∀ n ∈ c.numbers, n ≤ maxWritable := by
    simpa [Config.writable] using writable
  simp only [Config.numbers, List.mem_cons, List.not_mem_nil, or_false, forall_eq_or_imp,
    forall_eq] at numbers
  obtain ⟨lanes, idle, longest, ttl⟩ := numbers
  have bare (name : String) (h : name.toList ≠ [] ∧ name.toList.all Toml.isBareKeyChar = true) :
      IsBareName name.toList :=
    ⟨h.1, List.all_eq_true.mp h.2⟩
  obtain ⟨fuel, enough⟩ : ∃ fuel, c.render.toList.length + 1 = fuel + 10 := by
    refine ⟨c.render.toList.length + 1 - 10, ?_⟩
    rw [toList_render]
    simp [headerChars]
    omega
  have noMark : Toml.skipByteOrderMark c.render.toList = c.render.toList := by
    rw [toList_render]
    rfl
  unfold Toml.parse
  simp only [noMark, enough]
  rw [toList_render, Toml.scanLines_line (isLine_header (bare _ (by decide))),
    Toml.scanLines_line (isLine_number (bare _ (by decide)) lanes), Toml.scanLines_empty,
    Toml.scanLines_line (isLine_header (bare _ (by decide))),
    Toml.scanLines_line (isLine_size (bare _ (by decide)) _),
    Toml.scanLines_line (isLine_size (bare _ (by decide)) _),
    Toml.scanLines_line (isLine_number (bare _ (by decide)) idle),
    Toml.scanLines_line (isLine_number (bare _ (by decide)) longest),
    Toml.scanLines_line (isLine_number (bare _ (by decide)) ttl), Toml.scanLines_nil]
  exact assemble_document c

/-- The text of a size is accepted as a size. -/
theorem readSize_render {n : ℕ} (fits : n ≤ Size.maxSize) :
    readSize (.string (Size.render n)) = .ok (Size.spelling n) := by
  simp only [readSize, Size.parse_render fits fun large => Size.one_le_exponent large fits]

/-- A number is accepted as itself wherever one is wanted. -/
theorem readNumber_natCast (wanted : Wanted) (n : ℕ) : readNumber wanted (.integer n) = .ok n := by
  simp [readNumber]

/-- An entry with a known name sets what it names, before the others are read. -/
theorem readEntries_cons {σ : Type} {settings : List (Setting σ)} {setting : Setting σ} {s t : σ}
    {name : String} {v : Toml.Value} (rest : Toml.Entries)
    (found : settings.find? (·.name == name) = some setting) (read : setting.read s v = .ok t) :
    readEntries settings s ((name, v) :: rest) = readEntries settings t rest := by
  simp only [readEntries, List.foldlM_cons, found, read]
  rfl

/-- The document gives each number back, and each size as it is spelled. -/
theorem ofDocument_document {c : Config} (fits : c.SizesFit) :
    ofDocument c.document = .ok c.respelled := by
  have cache : readSection .cacheSection cacheSettings {}
      (.table .header [("lock-shards", .integer c.cache.lockShards)]) = .ok c.cache := by
    rw [readSection, readEntries_cons [] rfl
      (t := { lockShards := c.cache.lockShards }) (by simp [readNumber_natCast])]
    rfl
  have stream : readSection .streamSection streamSettings {} (.table .header
      [("initial-capacity", .string (Size.render c.stream.initialCapacity)),
        ("slow-growth", .string (Size.render c.stream.slowGrowth)),
        ("idle-confirm-ms", .integer c.stream.idleConfirmMs),
        ("max-confirm-ms", .integer c.stream.maxConfirmMs),
        ("ttl-secs", .integer c.stream.ttlSecs)]) = .ok c.respelled.stream := by
    rw [readSection]
    iterate 5
      rw [readEntries_cons _ rfl (by
        simp only [readSize_render fits.initialCapacity, readSize_render fits.slowGrowth,
          readNumber_natCast]
        rfl)]
    rfl
  rw [ofDocument, document, readEntries_cons _ rfl (t := { cache := c.cache }) (by
      simp only [cache]
      rfl),
    readEntries_cons [] rfl (t := c.respelled) (by
      simp only [stream]
      rfl)]
  rfl

/-- Settings are valid if the counts and sizes are positive and the idle window is no longer than
the maximum. -/
theorem isValid_iff (c : Config) : c.isValid = true ↔
    c.cache.lockShards ≠ 0 ∧ c.stream.initialCapacity ≠ 0 ∧ c.stream.slowGrowth ≠ 0 ∧
      c.stream.idleConfirmMs ≤ c.stream.maxConfirmMs := by
  unfold isValid problems
  repeat' split
  all_goals simp_all

/-- Valid settings stay valid when their sizes are read from their texts. -/
theorem isValid_respelled {c : Config} (fits : c.SizesFit) (valid : c.isValid = true) :
    c.respelled.isValid = true := by
  rw [isValid_iff] at valid ⊢
  obtain ⟨lanes, initial, slow, confirm⟩ := valid
  exact ⟨lanes,
    (Size.spelling_pos (Nat.pos_of_ne_zero initial) fits.initialCapacity).ne',
    (Size.spelling_pos (Nat.pos_of_ne_zero slow) fits.slowGrowth).ne', confirm⟩

/-- The sizes that are read from the texts of sizes fit. -/
theorem sizesFit_respelled {c : Config} (fits : c.SizesFit) : c.respelled.SizesFit :=
  ⟨Size.spelling_le_maxSize fits.initialCapacity, Size.spelling_le_maxSize fits.slowGrowth⟩

/-- Sizes that have been read from their texts once do not change any more. -/
theorem respelled_respelled {c : Config} (fits : c.SizesFit) :
    c.respelled.respelled = c.respelled := by
  unfold respelled
  simp only [Size.spelling_spelling fits.initialCapacity, Size.spelling_spelling fits.slowGrowth]

/-- The text of valid settings is read as these settings with the sizes that it spells. -/
theorem ofToml_render {c : Config} (fits : c.SizesFit) (valid : c.isValid = true)
    (writable : c.writable = true) : ofToml c.render = .ok c.respelled := by
  simp only [ofToml, parse_render writable, ofDocument_document fits, isValid_respelled fits valid,
    if_true]

/-- `d` are settings that are read from the text of `c`. -/
structure ReadsBackAs (c d : Config) : Prop where
  cache : d.cache = c.cache
  idleConfirmMs : d.stream.idleConfirmMs = c.stream.idleConfirmMs
  maxConfirmMs : d.stream.maxConfirmMs = c.stream.maxConfirmMs
  ttlSecs : d.stream.ttlSecs = c.stream.ttlSecs
  initialCapacity : Size.ReadsBackAs c.stream.initialCapacity d.stream.initialCapacity
  slowGrowth : Size.ReadsBackAs c.stream.slowGrowth d.stream.slowGrowth
  /-- A second round changes nothing any more. -/
  settled : ∃ text, d.toToml = .ok text ∧ ofToml text = .ok d

/-- Usable settings that can be written can be read again: the numbers come back as they are and the
sizes as they are spelled, and what has been read survives another round unchanged. -/
theorem ofToml_toToml {c : Config} {text : String} (fits : c.SizesFit) (valid : c.isValid = true)
    (written : c.toToml = .ok text) : ∃ d, ofToml text = .ok d ∧ c.ReadsBackAs d := by
  unfold toToml at written
  split at written
  case isFalse => cases written
  case isTrue writable =>
    cases written
    have writable' : c.respelled.writable = true := writable
    refine ⟨c.respelled, ofToml_render fits valid writable, rfl, rfl, rfl, rfl,
      Size.readsBackAs_spelling fits.initialCapacity, Size.readsBackAs_spelling fits.slowGrowth,
      c.respelled.render, if_pos writable', ?_⟩
    rw [ofToml_render (sizesFit_respelled fits) (isValid_respelled fits valid) writable',
      respelled_respelled fits]

/-- Two sizes that do not come back: they are written as `1.0 KiB` and `1.4 MiB`. -/
theorem ofToml_toToml_of_odd_sizes :
    let c : Config := { stream := { initialCapacity := 1025, slowGrowth := 1500000 } }
    c.SizesFit ∧ c.isValid = true ∧ ∃ text d, c.toToml = .ok text ∧ ofToml text = .ok d ∧
      d = { c with
        stream := { c.stream with initialCapacity := 1024, slowGrowth := 1468006 } } := by
  intro c
  have fits : c.SizesFit := ⟨by decide, by decide⟩
  have valid : c.isValid = true := by decide
  have written : c.toToml = .ok c.render := rfl
  obtain ⟨d, read, back⟩ := ofToml_toToml fits valid written
  have initial : d.stream.initialCapacity = 1024 :=
    (back.initialCapacity.tenths (by decide) (by decide)).trans (by decide +kernel)
  have slow : d.stream.slowGrowth = 1468006 :=
    (back.slowGrowth.tenths (by decide) (by decide)).trans (by decide +kernel)
  refine ⟨fits, valid, c.render, d, written, read, ?_⟩
  rcases d with ⟨cache, ⟨_, _, _, _, _⟩⟩
  obtain ⟨rfl, rfl, rfl, rfl, -, -, -⟩ := back
  simp only at initial slow
  rw [initial, slow]

/-- Settings need not come back as they are: 1025 bytes are written as `1.0 KiB`. -/
theorem not_ofToml_toToml_self :
    ¬ ∀ (c : Config) (text : String), c.SizesFit → c.isValid = true → c.toToml = .ok text →
      ofToml text = .ok c := by
  intro same
  have read := same { stream := { initialCapacity := 1025 } } _ ⟨by decide, by decide⟩ (by decide)
    rfl
  rw [ofToml_render ⟨by decide, by decide⟩ (by decide) (by decide)] at read
  have : Size.spelling 1025 = 1025 := congrArg (·.stream.initialCapacity) (Except.ok.inj read)
  have : Size.spelling 1025 = 1024 := by decide +kernel
  omega

end Config

end CachedStreams
