import CachedStreams.Size
import Mathlib.Data.List.TakeWhile
import Mathlib.Tactic.IntervalCases
import Mathlib.Tactic.NormNum

/-!
# What the text of a size spells

A size below 1024 is written as its digits, which spell it. Any other size is written as a number of
tenths of a unit, and its text spells what the product of the two is in binary floating point:
`spelling` says so without a detour through text.
-/

set_option autoImplicit false

namespace CachedStreams.Size

/-! ### Digits -/

/-- The digits of a number in base ten. -/
abbrev digits (n : ℕ) : List Char := Nat.toDigits 10 n

/-- The digits of a number are digits. -/
theorem isDigit_of_mem_digits {n : ℕ} {c : Char} (h : c ∈ digits n) : c.isDigit = true :=
  Nat.isDigit_of_mem_toDigits (by decide) (by decide) h

/-- All the digits of a number are digits. -/
theorem all_isDigit_digits (n : ℕ) : (digits n).all Char.isDigit = true :=
  List.all_eq_true.mpr fun _ => isDigit_of_mem_digits

/-- Digits are read here as the standard library reads them. -/
theorem ofDigits_eq_ofDigitChars (cs : List Char) : ofDigits cs = Nat.ofDigitChars 10 cs 0 := by
  unfold ofDigits Nat.ofDigitChars
  congr 1
  funext n c
  rw [Nat.mul_comm]
  rfl

/-- A number is what its digits spell. -/
theorem ofDigits_digits (n : ℕ) : ofDigits (digits n) = n := by
  rw [ofDigits_eq_ofDigitChars, Nat.ofDigitChars_ten_toDigits]

/-- The digits of the tens and the last digit spell the number. -/
theorem ofDigits_split (n : ℕ) : ofDigits (digits (n / 10) ++ digits (n % 10)) = n := by
  rw [ofDigits_eq_ofDigitChars, Nat.ofDigitChars_append, Nat.ofDigitChars_ten_toDigits,
    digits, Nat.toDigits_of_lt_base (Nat.mod_lt n (by decide)),
    Nat.ofDigitChars_cons_digitChar_of_lt_ten (Nat.mod_lt n (by decide)), Nat.ofDigitChars_nil]
  omega

/-- Whatever passes a test is taken up to the first that does not. -/
theorem takeWhile_of_all {p : Char → Bool} {ds : List Char} {c : Char} (rest : List Char)
    (all : ∀ d ∈ ds, p d = true) (stop : p c = false) :
    (ds ++ c :: rest).takeWhile p = ds := by
  rw [List.takeWhile_append_of_pos all, List.takeWhile_cons_of_neg (by simp [stop]),
    List.append_nil]

/-- Whatever passes a test is dropped up to the first that does not. -/
theorem dropWhile_of_all {p : Char → Bool} {ds : List Char} {c : Char} (rest : List Char)
    (all : ∀ d ∈ ds, p d = true) (stop : p c = false) :
    (ds ++ c :: rest).dropWhile p = c :: rest := by
  rw [List.dropWhile_append_of_pos all, List.dropWhile_cons_of_neg (by simp [stop])]

/-! ### Numbers and units -/

/-- Characters that are not all digits are no plain count, unless they start with a plus sign. -/
theorem parseCount_eq_none {cs : List Char} (sign : ∀ rest, cs ≠ '+' :: rest)
    (stray : ∃ c ∈ cs, c.isDigit = false) : parseCount cs = none := by
  have notAll : cs.all Char.isDigit = false := by
    simpa [List.all_eq_false] using stray
  unfold parseCount
  split
  · exact absurd rfl (sign _)
  · simp [notAll]

/-- A whole number has nothing after the point. -/
theorem splitPoint_digits (n : ℕ) : splitPoint (digits n) = some (digits n, []) := by
  have all : ∀ d ∈ digits n, d.isDigit = true := fun _ => isDigit_of_mem_digits
  unfold splitPoint
  rw [List.takeWhile_eq_self_iff.mpr all, List.dropWhile_eq_nil_iff.mpr all]
  simp [Nat.toDigits_ne_nil]

/-- A number with a point is split at the point. -/
theorem splitPoint_point (m n : ℕ) :
    splitPoint (digits m ++ '.' :: digits n) = some (digits m, digits n) := by
  have all : ∀ d ∈ digits m, d.isDigit = true := fun _ => isDigit_of_mem_digits
  unfold splitPoint
  rw [takeWhile_of_all _ all (by decide), dropWhile_of_all _ all (by decide)]
  simp [all_isDigit_digits, Nat.toDigits_ne_nil]

/-- A whole number of bytes is read as it is. -/
theorem withUnit_digits {n : ℕ} (fits : n ≤ maxSize) : withUnit (digits n) 1 = some n := by
  have noPoint : '.' ∉ digits n := fun h => absurd (isDigit_of_mem_digits h) (by decide)
  unfold withUnit
  rw [splitPoint_digits]
  simp [ofDigits_digits, noPoint, Nat.not_lt.mpr fits, Nat.min_eq_left fits]

/-- A number with a point is read as the product of a float and its unit. -/
theorem withUnit_point (m n factor : ℕ) :
    withUnit (digits m ++ '.' :: digits n) factor =
      some (floatProduct (digits m) (digits n) factor) := by
  unfold withUnit
  rw [splitPoint_point]
  simp

/-- A number before a blank and a unit. -/
theorem parseChars_number {number unit : List Char} {first : Char} (rest : List Char)
    (starts : number = first :: rest) (digit : first.isDigit = true)
    (all : ∀ c ∈ number, isNumberChar c = true)
    (letter : ∀ c, unit.head? = some c → Text.isBlank c = false) :
    parseChars (number ++ ' ' :: unit) =
      (unitFactor (unit.map lowerChar)).bind (withUnit number) := by
  have noCount : parseCount (number ++ ' ' :: unit) = none := by
    refine parseCount_eq_none (fun tail h => ?_) ⟨' ', by simp, by decide⟩
    rw [starts, List.cons_append, List.cons.injEq] at h
    exact absurd (h.1 ▸ digit) (by decide)
  have skipped : (' ' :: unit).dropWhile Text.isBlank = unit := by
    rw [List.dropWhile_cons_of_pos (by decide)]
    cases unit with
    | nil => rfl
    | cons c tail => exact List.dropWhile_cons_of_neg (by simp [letter c rfl])
  unfold parseChars
  rw [noCount, takeWhile_of_all _ all (by decide), dropWhile_of_all _ all (by decide), skipped]

/-- A number has a first digit. -/
theorem digits_eq_cons (n : ℕ) : ∃ first rest, digits n = first :: rest ∧ first.isDigit = true := by
  rcases h : digits n with _ | ⟨first, rest⟩
  · exact absurd h Nat.toDigits_ne_nil
  · exact ⟨first, rest, rfl, isDigit_of_mem_digits (h ▸ List.mem_cons_self)⟩

/-- A digit may stand in a number. -/
theorem isNumberChar_of_isDigit {c : Char} (h : c.isDigit = true) : isNumberChar c = true := by
  simp [isNumberChar, h]

/-! ### What a size reads back as -/

/-- What a number of tenths of a power of 1024 is read as. -/
def ofTenths (t e : ℕ) : ℕ := floatProduct (digits (t / 10)) (digits (t % 10)) (Nat.pow 1024 e)

/-- The exponent of the unit that a size is written with. -/
def exponent (n : ℕ) : ℕ := unitExponent (floatValue n)

/-- What the text of a size spells. -/
def spelling (n : ℕ) : ℕ := if n < 1024 then n else ofTenths (tenths n) (exponent n)

/-- The letters of the units stand for the powers of 1024. -/
theorem unitFactor_letter {e : ℕ} (pos : 1 ≤ e) (le : e ≤ 6) :
    unitFactor ([unitLetters.getD (e - 1) 'K', 'i', 'B'].map lowerChar) = some (Nat.pow 1024 e) ∧
      Text.isBlank (unitLetters.getD (e - 1) 'K') = false := by
  interval_cases e <;> exact ⟨rfl, by decide⟩

/-- No unit is larger than the sixth power of 1024. -/
theorem unitExponent_le (v : ℕ) : unitExponent v ≤ 6 := Nat.min_le_right _ _

/-- The text of a size spells its spelling. -/
theorem parse_render {n : ℕ} (fits : n ≤ maxSize) (unit : 1024 ≤ n → 1 ≤ exponent n) :
    parse (render n) = some (spelling n) := by
  unfold parse render renderChars spelling
  rw [String.toList_ofList]
  split
  case isTrue small =>
    obtain ⟨first, rest, starts, digit⟩ := digits_eq_cons n
    rw [parseChars_number rest starts digit
      (fun c h => isNumberChar_of_isDigit (isDigit_of_mem_digits h)) (by rintro _ ⟨⟩; decide)]
    exact withUnit_digits fits
  case isFalse large =>
    obtain ⟨first, rest, starts, digit⟩ := digits_eq_cons (tenths n / 10)
    obtain ⟨factor, letter⟩ := unitFactor_letter (unit (by omega)) (unitExponent_le _)
    have shape : digits (tenths n / 10) ++ '.' :: digits (tenths n % 10) ++
        [' ', unitLetters.getD (exponent n - 1) 'K', 'i', 'B'] =
        (digits (tenths n / 10) ++ '.' :: digits (tenths n % 10)) ++
          ' ' :: [unitLetters.getD (exponent n - 1) 'K', 'i', 'B'] := rfl
    have all : ∀ c ∈ digits (tenths n / 10) ++ '.' :: digits (tenths n % 10),
        isNumberChar c = true := by
      intro c h
      rcases List.mem_append.mp h with h | h
      · exact isNumberChar_of_isDigit (isDigit_of_mem_digits h)
      · rcases List.mem_cons.mp h with rfl | h
        · decide
        · exact isNumberChar_of_isDigit (isDigit_of_mem_digits h)
    rw [show unitExponent (floatValue n) = exponent n from rfl, shape,
      parseChars_number (rest ++ '.' :: digits (tenths n % 10)) (by rw [starts]; rfl) digit all
        (by simpa using letter), factor]
    exact withUnit_point ..

end CachedStreams.Size
