import CachedStreams.Proofs.Settings.Nearest
import CachedStreams.Proofs.Settings.SizeText

/-!
# How far the spelling of a size is from the size

A size is written in tenths of a unit, so its text spells a size that may be up to a twentieth of
the unit away; the rounding of binary floating point adds little to that. Nothing is lost below 1024
and for multiples of half a unit. What has been read from such a text is written as the same text
again or as a whole number of the next unit, so that a second reading changes nothing.
-/

set_option autoImplicit false

namespace CachedStreams.Size

open Decimal Binary64

/-! ### Sizes in binary floating point -/

/-- A positive size is neither tiny nor huge. -/
theorem isModerate_one {n : ℕ} (pos : 0 < n) (fits : n ≤ maxSize) : IsModerate n 1 where
  pos := pos
  pos' := Nat.one_pos
  notTiny := by
    have : 1 ≤ 2 ^ 200 := Nat.one_le_two_pow
    nlinarith
  notHuge := by
    have : maxSize ≤ 2 ^ 200 * 1 := by decide
    exact fits.trans this

/-- The value of a size in floating point is the size or a whole number nearby. -/
theorem floatValue_near {n : ℕ} (pos : 0 < n) (fits : n ≤ maxSize) :
    |(floatValue n : ℚ) - n| ≤ n / 2 ^ 53 + 1 := by
  obtain ⟨x, hx, nearest⟩ := ofRatio_isNearest (isModerate_one pos fits)
  rw [Nat.cast_one, div_one] at nearest
  have near := abs_le.mp nearest.near
  have nonneg : 0 ≤ x.value := by
    unfold value
    positivity
  have below := Nat.floor_le nonneg
  have above := Nat.lt_floor_add_one x.value
  simp only [floatValue, hx, floor_eq]
  rw [abs_le]
  constructor <;> linarith

/-- A size with a mantissa of 53 bits is its own value. -/
theorem floatValue_of_short {n k s : ℕ} (pos : 0 < n) (fits : n ≤ maxSize) (short : k < 2 ^ 53)
    (hn : n = k * 2 ^ s) : floatValue n = n := by
  obtain ⟨x, hx, nearest⟩ := ofRatio_isNearest (isModerate_one pos fits)
  rw [Nat.cast_one, div_one] at nearest
  have : x.value = n := nearest.exact_of_short k s short (by rw [hn, zpow_natCast]; push_cast; rfl)
  simp only [floatValue, hx, floor_eq, this, Nat.floor_natCast]

/-- A size below `2 ^ 53` is its own value. -/
theorem floatValue_of_lt {n : ℕ} (pos : 0 < n) (small : n < 2 ^ 53) : floatValue n = n :=
  floatValue_of_short pos (small.le.trans (by decide)) small (s := 0) (by simp)

/-! ### The unit of a size -/

/-- The unit that a size is written with. -/
def unit (n : ℕ) : ℕ := 1024 ^ exponent n

/-- The unit of a size is the one between whose bounds it lies. -/
theorem unitExponent_eq {v e : ℕ} (low : 1024 ^ e ≤ v) (high : e < 6 → v < 1024 ^ (e + 1))
    (le : e ≤ 6) : unitExponent v = e := by
  have pow (k : ℕ) : 1024 ^ k = 2 ^ (10 * k) := by rw [Nat.pow_mul]
  have nonzero : v ≠ 0 := (lt_of_lt_of_le (by positivity) low).ne'
  have : 10 * e ≤ v.log2 := (Nat.le_log2 nonzero).mpr (pow e ▸ low)
  unfold unitExponent
  by_cases top : e < 6
  · have : v.log2 < 10 * (e + 1) := (Nat.log2_lt nonzero).mpr (pow (e + 1) ▸ high top)
    omega
  · omega

/-- The unit of a positive size is no larger than the size. -/
theorem pow_unitExponent_le {v : ℕ} (pos : 0 < v) : 1024 ^ unitExponent v ≤ v := by
  have exponent : 10 * unitExponent v ≤ v.log2 := by
    unfold unitExponent
    omega
  calc 1024 ^ unitExponent v = 2 ^ (10 * unitExponent v) := by rw [Nat.pow_mul]
    _ ≤ 2 ^ v.log2 := Nat.pow_le_pow_right (by decide) exponent
    _ ≤ v := Nat.log2_self_le pos.ne'

/-- A size is smaller than the next unit, if there is one. -/
theorem lt_pow_unitExponent {v : ℕ} (small : unitExponent v < 6) :
    v < 1024 ^ (unitExponent v + 1) := by
  have exponent : v.log2 + 1 ≤ 10 * (unitExponent v + 1) := by
    unfold unitExponent at small ⊢
    omega
  calc v < 2 ^ (v.log2 + 1) := Nat.lt_log2_self
    _ ≤ 2 ^ (10 * (unitExponent v + 1)) := Nat.pow_le_pow_right (by decide) exponent
    _ = 1024 ^ (unitExponent v + 1) := by rw [Nat.pow_mul]

/-! ### Products of tenths and units -/

/-- A number of tenths, as a number in floating point. -/
theorem ofDecimal_tenths {t : ℕ} (pos : 0 < t) (le : t ≤ 10240) :
    ∃ x, ofDecimal t (-1) = some x ∧ x.IsNearest ((t : ℚ) / 10) := by
  have moderate : IsModerate t 10 := by
    refine ⟨pos, by decide, ?_, le.trans (by decide)⟩
    have : 10 ≤ 2 ^ 200 := by decide
    nlinarith
  obtain ⟨x, hx, nearest⟩ := ofRatio_isNearest moderate
  have small : t.log2 < 14 := (Nat.log2_lt pos.ne').mpr (le.trans_lt (by decide))
  refine ⟨x, ?_, by simpa using nearest⟩
  unfold ofDecimal
  rw [if_neg pos.ne', if_neg (by omega), if_neg (by omega), if_neg (by decide)]
  exact hx

/-- The unit of a size is a power of 1024. -/
theorem unit_cast (n : ℕ) : (unit n : ℚ) = 1024 ^ exponent n := by
  unfold unit
  push_cast
  rfl

/-- What a number of tenths of a unit is read as is nearly the product. -/
theorem ofTenths_near {t e : ℕ} (pos : 0 < t) (le : t ≤ 10240) (small : e ≤ 6) :
    ∃ v : ℚ, ofTenths t e = min ⌊v⌋₊ maxSize ∧
      |v - t * 1024 ^ e / 10| ≤ t * 1024 ^ e / 10 / 2 ^ 53 ∧
      (5 ∣ t → v = t * 1024 ^ e / 10) := by
  obtain ⟨x, hx, nearest⟩ := ofDecimal_tenths pos le
  have hpos : (1 : ℚ) ≤ t := by exact_mod_cast pos
  have hle : (t : ℚ) ≤ 10240 := by exact_mod_cast le
  have near := abs_le.mp nearest.near
  have power : (1024 : ℚ) ^ e = 2 ^ (10 * e) := by rw [pow_mul]; norm_num
  have unit_le : (2 : ℚ) ^ (10 * e) ≤ 2 ^ 60 := pow_le_pow_right₀ (by norm_num) (by omega)
  have unit_ge : (1 : ℚ) ≤ 2 ^ (10 * e) := one_le_pow₀ (by norm_num)
  have moderate : IsModerate (x.toRatio.1 * 2 ^ (10 * e)) x.toRatio.2 := by
    have ratio : ((x.toRatio.1 * 2 ^ (10 * e) : ℕ) : ℚ) / x.toRatio.2 = x.value * 2 ^ (10 * e) := by
      rw [← toRatio_div]
      push_cast
      ring
    have value_ge : 1 / 20 ≤ x.value := by linarith
    have value_le : x.value ≤ 1025 := by linarith
    refine .of_div x.toRatio_pos ?_ ?_
    · rw [ratio]
      nlinarith
    · rw [ratio]
      calc x.value * 2 ^ (10 * e) ≤ 1025 * 2 ^ 60 := by gcongr
        _ ≤ 2 ^ 200 := by norm_num
  obtain ⟨y, hy, product⟩ := mulNat_two_pow nearest.short moderate
  refine ⟨y.value, ?_, ?_, ?_⟩
  · have factor : Nat.pow 1024 e = 2 ^ (10 * e) := by rw [natPow_eq, Nat.pow_mul]
    have fraction : (digits (t % 10)).length = 1 := by
      rw [digits, Nat.toDigits_of_lt_base (Nat.mod_lt t (by decide)), List.length_singleton]
    unfold ofTenths floatProduct
    rw [ofDigits_split, fraction, factor]
    simp only [Nat.cast_one, hx, Option.bind_some, hy, floor_eq]
  · have factored : y.value - t * 1024 ^ e / 10 = (x.value - t / 10) * 2 ^ (10 * e) := by
      rw [product, power]
      ring
    rw [factored, abs_mul, abs_of_pos (show (0 : ℚ) < 2 ^ (10 * e) by positivity), power]
    calc |x.value - t / 10| * 2 ^ (10 * e) ≤ t / 10 / 2 ^ 53 * 2 ^ (10 * e) := by
          gcongr
          exact nearest.near
      _ = t * 2 ^ (10 * e) / 10 / 2 ^ 53 := by ring
  · rintro ⟨k, rfl⟩
    have : x.value = ((5 * k : ℕ) : ℚ) / 10 := by
      refine nearest.exact_of_short k (-1) (by omega) ?_
      push_cast
      rw [zpow_neg_one]
      ring
    rw [product, this, power]
    ring

/-- With a multiple of half a unit, the product is exact. -/
theorem ofTenths_of_dvd {t e : ℕ} (pos : 0 < t) (le : t ≤ 10240) (small : e ≤ 6) (halves : 5 ∣ t) :
    ofTenths t e = min (t * 1024 ^ e / 10) maxSize := by
  obtain ⟨v, hv, -, exact_of_dvd⟩ := ofTenths_near pos le small
  have : v = ((t * 1024 ^ e : ℕ) : ℚ) / (10 : ℕ) := by
    rw [exact_of_dvd halves]
    push_cast
    rfl
  rw [hv, this, Nat.floor_div_eq_div]

/-- A whole number of units is spelled exactly. -/
theorem ofTenths_ten_mul {k e : ℕ} (pos : 0 < k) (le : k ≤ 1024) (small : e ≤ 6)
    (fits : k * 1024 ^ e ≤ maxSize) : ofTenths (10 * k) e = k * 1024 ^ e := by
  have halves : 5 ∣ 10 * k := (show 5 ∣ 10 by decide).mul_right k
  rw [ofTenths_of_dvd (by omega) (by omega) small halves, Nat.mul_assoc,
    Nat.mul_div_cancel_left _ (by decide), Nat.min_eq_left fits]

/-- What is near an even number of tenths, and exactly there if that number is whole, has the same
whole part. -/
theorem floor_of_near {p : ℕ} {v : ℚ} (even : 2 ∣ p) (le : (p : ℚ) ≤ 10240 * 2 ^ 40)
    (near : |v - p / 10| ≤ p / 10 / 2 ^ 53) (whole : 10 ∣ p → v = p / 10) : ⌊v⌋₊ = p / 10 := by
  rcases Nat.eq_zero_or_pos (p % 10) with none | some
  · -- The product has no fraction, and floating point has it exactly.
    have : p = 10 * (p / 10) := by omega
    rw [whole (Nat.dvd_of_mod_eq_zero none), this]
    push_cast
    rw [mul_div_cancel_left₀ _ (by norm_num), Nat.floor_natCast]
    omega
  · -- The fraction is a fifth at least and four at most, which is more than what floating point
    -- is off by.
    have split : (p : ℚ) = 10 * (p / 10 : ℕ) + (p % 10 : ℕ) := by
      exact_mod_cast (Nat.div_add_mod p 10).symm
    have ge : (2 : ℚ) ≤ (p % 10 : ℕ) := by exact_mod_cast (show 2 ≤ p % 10 by omega)
    have le : ((p % 10 : ℕ) : ℚ) ≤ 8 := by exact_mod_cast (show p % 10 ≤ 8 by omega)
    have near := abs_le.mp near
    have base : (0 : ℚ) ≤ (p / 10 : ℕ) := Nat.cast_nonneg _
    rw [Nat.floor_eq_iff (by linarith)]
    constructor <;> linarith

/-! ### Sizes that are written with a unit -/

/-- A size `n` that is written with a unit: `v` is its value in floating point, `u` the unit and `t`
the number of tenths. -/
structure IsWritten (n : ℕ) (v u t : ℚ) : Prop where
  unit_ge : 1024 ≤ u
  unit_le : u ≤ v
  lt_units : v ≤ 1024 * u
  near : |v - n| ≤ n / 2 ^ 53 + 1
  rounded : |t * u / 10 - v| ≤ u / 20

/-- The largest size is the largest number of 64 bits. -/
theorem maxSize_eq : (maxSize : ℚ) = 2 ^ 64 - 1 := by
  norm_num [maxSize]

section Large

variable {n : ℕ}

/-- A size of at least 1024 is still at least 1024 once it is rounded to a float. -/
theorem floatValue_ge (large : 1024 ≤ n) (fits : n ≤ maxSize) : 1024 ≤ floatValue n := by
  by_cases small : n < 2 ^ 53
  · rwa [floatValue_of_lt (by omega) small]
  · have near := abs_le.mp (floatValue_near (by omega) fits)
    have : (2 : ℚ) ^ 53 ≤ n := by exact_mod_cast Nat.not_lt.mp small
    have : (1024 : ℚ) ≤ floatValue n := by linarith
    exact_mod_cast this

/-- No unit is larger than the sixth power of 1024. -/
theorem exponent_le (n : ℕ) : exponent n ≤ 6 := Nat.min_le_right _ _

/-- A size of at least 1024 is written in one of the units. -/
theorem one_le_exponent (large : 1024 ≤ n) (fits : n ≤ maxSize) : 1 ≤ exponent n := by
  have := floatValue_ge large fits
  have : 10 ≤ (floatValue n).log2 := (Nat.le_log2 (by omega)).mpr this
  unfold exponent unitExponent
  omega

/-- The unit of a size is no larger than the size once that is rounded to a float. -/
theorem unit_le_floatValue (large : 1024 ≤ n) (fits : n ≤ maxSize) : unit n ≤ floatValue n :=
  pow_unitExponent_le (lt_of_lt_of_le (by decide) (floatValue_ge large fits))

/-- The largest unit. -/
theorem unit_top (top : ¬exponent n < 6) : (unit n : ℚ) = 2 ^ 60 := by
  rw [unit, le_antisymm (exponent_le n) (Nat.not_lt.mp top)]
  norm_num

/-- A size fits 64 bits. -/
theorem cast_le (fits : n ≤ maxSize) : (n : ℚ) ≤ 2 ^ 64 - 1 := by
  rw [← maxSize_eq]
  exact_mod_cast fits

/-- The tenths of a unit that are written for a size are those nearest to it. -/
theorem isWritten (large : 1024 ≤ n) (fits : n ≤ maxSize) :
    IsWritten n (floatValue n) (unit n) (tenths n) := by
  have near := floatValue_near (by omega) fits
  have unit_ge : 1024 ≤ unit n := by
    have := Nat.pow_le_pow_right (show 0 < 1024 by decide) (one_le_exponent large fits)
    rwa [pow_one] at this
  have unit_pos : (0 : ℚ) < unit n := by exact_mod_cast lt_of_lt_of_le (by decide) unit_ge
  refine ⟨by exact_mod_cast unit_ge, by exact_mod_cast unit_le_floatValue large fits, ?_, near, ?_⟩
  · by_cases small : exponent n < 6
    · have : floatValue n < unit n * 1024 := lt_pow_unitExponent small
      have : (floatValue n : ℚ) < unit n * 1024 := by exact_mod_cast this
      linarith
    · rw [unit_top small]
      linarith [(abs_le.mp near).2, cast_le fits]
  · have rounded := abs_roundDiv_sub_le (floatValue n * 10) (show 0 < unit n by omega)
    have tenths_eq : tenths n = roundDiv (floatValue n * 10) (unit n) := rfl
    have factored : (tenths n : ℚ) * unit n / 10 - floatValue n =
        ((tenths n : ℚ) - (floatValue n * 10 : ℕ) / unit n) * (unit n / 10) := by
      push_cast
      field_simp
    rw [factored, abs_mul, abs_of_pos (by positivity : (0 : ℚ) < unit n / 10), tenths_eq]
    nlinarith

/-- The number of tenths is at least ten, and small enough for the product to be a size. -/
theorem tenths_bounds (large : 1024 ≤ n) (fits : n ≤ maxSize) :
    10 ≤ tenths n ∧ tenths n ≤ 10240 ∧ (tenths n : ℚ) * unit n / 10 ≤ maxSize + 1 := by
  obtain ⟨unit_ge, unit_le, lt_units, near, rounded⟩ := isWritten large fits
  have near := abs_le.mp near
  have rounded := abs_le.mp rounded
  have hpos : (0 : ℚ) < unit n := by linarith
  have ge : (9 : ℚ) < tenths n := by nlinarith
  have le : (tenths n : ℚ) < 10241 := by nlinarith
  have ge : 10 ≤ tenths n := by exact_mod_cast ge
  have le : tenths n ≤ 10240 := Nat.lt_succ_iff.mp (by exact_mod_cast le)
  refine ⟨ge, le, ?_⟩
  have hle : (tenths n : ℚ) ≤ 10240 := by exact_mod_cast le
  rw [maxSize_eq]
  by_cases small : exponent n < 6
  · have : unit n ≤ 1024 ^ 5 := Nat.pow_le_pow_right (by decide) (by omega)
    have : (unit n : ℚ) ≤ 1024 ^ 5 := by exact_mod_cast this
    nlinarith
  · rw [unit_top small] at rounded ⊢
    have : (tenths n : ℚ) < 161 := by linarith [cast_le fits]
    have : tenths n ≤ 160 := Nat.lt_succ_iff.mp (by exact_mod_cast this)
    have : (tenths n : ℚ) ≤ 160 := by exact_mod_cast this
    linarith

/-! ### The spelling of a size -/

/-- What the text of a large size spells is its tenths times the unit. -/
theorem spelling_eq (large : 1024 ≤ n) : spelling n = ofTenths (tenths n) (exponent n) :=
  if_neg (Nat.not_lt.mpr large)

/-- What the text of a size spells is a size. -/
theorem spelling_le_maxSize (fits : n ≤ maxSize) : spelling n ≤ maxSize := by
  unfold spelling
  split
  · exact fits
  · unfold ofTenths floatProduct
    split
    · exact Nat.min_le_right _ _
    · exact le_rfl

/-- The spelling of a size is nearly the product of its tenths and its unit. -/
theorem spelling_near (large : 1024 ≤ n) (fits : n ≤ maxSize) :
    |(spelling n : ℚ) - tenths n * unit n / 10| ≤ tenths n * unit n / 10 / 2 ^ 53 + 1 := by
  obtain ⟨ge, le, bounded⟩ := tenths_bounds large fits
  obtain ⟨v, hv, near, -⟩ := ofTenths_near (by omega) le (exponent_le n)
  rw [← unit_cast] at near
  have near := abs_le.mp near
  have product : (0 : ℚ) ≤ tenths n * unit n / 10 := by positivity
  have nonneg : 0 ≤ v := by linarith
  have below := Nat.floor_le nonneg
  have above := Nat.lt_floor_add_one v
  rw [spelling_eq large, hv, Nat.cast_min, abs_le]
  rcases min_choice (⌊v⌋₊ : ℚ) maxSize with h | h
  · rw [h]
    constructor <;> linarith
  · have := h ▸ min_le_left (⌊v⌋₊ : ℚ) maxSize
    rw [h]
    constructor <;> linarith

/-- A size and its spelling are at most a sixteenth of the unit apart. -/
theorem spelling_near_size (large : 1024 ≤ n) (fits : n ≤ maxSize) :
    16 * n ≤ 16 * spelling n + unit n ∧ 16 * spelling n ≤ 16 * n + unit n := by
  obtain ⟨unit_ge, unit_le, lt_units, near, rounded⟩ := isWritten large fits
  have near := abs_le.mp near
  have rounded := abs_le.mp rounded
  have spelled := abs_le.mp (spelling_near large fits)
  constructor
  · have : (16 : ℚ) * n ≤ 16 * spelling n + unit n := by linarith
    exact_mod_cast this
  · have : (16 : ℚ) * spelling n ≤ 16 * n + unit n := by linarith
    exact_mod_cast this

/-- A multiple of half the unit that it is written with is its own spelling. -/
theorem spelling_of_halves {k : ℕ} (large : 1024 ≤ n) (fits : n ≤ maxSize)
    (halves : 2 * n = k * unit n) : spelling n = n := by
  obtain ⟨unit_ge, unit_le, lt_units, near, rounded⟩ := isWritten large fits
  have halves' : (2 : ℚ) * n = k * unit n := by exact_mod_cast halves
  have near := abs_le.mp near
  have pos : (0 : ℚ) < unit n := by linarith
  have short : k < 2 ^ 53 := by
    have : (k : ℚ) < 2 ^ 53 := by nlinarith
    exact_mod_cast this
  have even : unit n = 2 * 2 ^ (10 * exponent n - 1) := by
    have := one_le_exponent large fits
    rw [unit, ← Nat.pow_succ', Nat.succ_eq_add_one, Nat.sub_add_cancel (by omega), Nat.pow_mul]
  have exact_value : floatValue n = n := by
    refine floatValue_of_short (by omega) fits short (s := 10 * exponent n - 1) ?_
    rw [even] at halves
    nlinarith
  have tenths_eq : tenths n = 5 * k := by
    refine roundDiv_eq_of_abs_lt (show 0 < unit n by exact_mod_cast pos) ?_
    have quotient : ((floatValue n * 10 : ℕ) : ℚ) / unit n = (5 * k : ℕ) := by
      rw [div_eq_iff pos.ne', exact_value]
      push_cast
      linarith
    change |((floatValue n * 10 : ℕ) : ℚ) / unit n - (5 * k : ℕ)| < 1 / 2
    rw [quotient, sub_self, abs_zero]
    norm_num
  obtain ⟨ge, le, -⟩ := tenths_bounds large fits
  have product : tenths n * 1024 ^ exponent n / 10 = n := by
    have : tenths n * 1024 ^ exponent n = 10 * n := by
      rw [tenths_eq]
      change 5 * k * unit n = 10 * n
      nlinarith
    rw [this]
    omega
  rw [spelling_eq large, ofTenths_of_dvd (by omega) le (exponent_le n) ⟨k, tenths_eq⟩, product,
    Nat.min_eq_left fits]

/-- Up to units of `2 ^ 40` bytes, the spelling is the product of the tenths and the unit, without
its fraction. -/
theorem spelling_of_lt (large : 1024 ≤ n) (small : n < 2 ^ 50) :
    spelling n = tenths n * unit n / 10 := by
  have fits : n ≤ maxSize := small.le.trans (by decide)
  obtain ⟨ge, le, -⟩ := tenths_bounds large fits
  obtain ⟨v, hv, near, exact_of_dvd⟩ := ofTenths_near (by omega) le (exponent_le n)
  rw [← unit_cast] at near exact_of_dvd
  have unit_le : unit n ≤ 2 ^ 40 := by
    have : unit n ≤ n := by
      have := unit_le_floatValue large fits
      rwa [floatValue_of_lt (by omega) (small.trans (by norm_num))] at this
    have : 1024 ^ exponent n < 1024 ^ 5 := lt_of_le_of_lt this (by simpa using small)
    have := (Nat.pow_lt_pow_iff_right (by decide)).mp this
    calc unit n ≤ 1024 ^ 4 := Nat.pow_le_pow_right (by decide) (by omega)
      _ = 2 ^ 40 := by norm_num
  have even : 2 ∣ unit n := dvd_pow (by decide) (by have := one_le_exponent large fits; omega)
  have coprime : Nat.Coprime 5 (unit n) := Nat.Coprime.pow_right _ (by decide)
  have floor_eq : ⌊v⌋₊ = tenths n * unit n / 10 := by
    have cast : (tenths n : ℚ) * unit n = (tenths n * unit n : ℕ) := by push_cast; rfl
    have product_le : tenths n * unit n ≤ 10240 * 2 ^ 40 := Nat.mul_le_mul le unit_le
    have product_le : ((tenths n * unit n : ℕ) : ℚ) ≤ 10240 * 2 ^ 40 := by exact_mod_cast product_le
    rw [cast] at near exact_of_dvd
    exact floor_of_near (even.mul_left _) product_le near fun ten => exact_of_dvd
      (coprime.dvd_of_dvd_mul_right ((show 5 ∣ 10 by decide).trans ten))
  have : ⌊v⌋₊ ≤ maxSize := by
    have := Nat.mul_le_mul le unit_le
    have : tenths n * unit n / 10 ≤ 10240 * 2 ^ 40 := (Nat.div_le_self _ _).trans this
    rw [floor_eq]
    exact this.trans (by decide)
  rw [spelling_eq large, hv, Nat.min_eq_left this, floor_eq]

/-- Each unit is a size. -/
theorem pow_le_maxSize {e : ℕ} (le : e ≤ 6) : 1024 ^ e ≤ maxSize :=
  (Nat.pow_le_pow_right (by decide) le).trans (by decide)

/-- A unit is its own spelling. -/
theorem spelling_pow {e : ℕ} (pos : 1 ≤ e) (le : e ≤ 6) : spelling (1024 ^ e) = 1024 ^ e := by
  have large : 1024 ≤ 1024 ^ e := Nat.le_self_pow (by omega) 1024
  have exact_value : floatValue (1024 ^ e) = 1024 ^ e :=
    floatValue_of_short (by omega) (pow_le_maxSize le) (k := 1) (s := 10 * e) (by norm_num)
      (by rw [Nat.pow_mul, one_mul])
  have hexponent : exponent (1024 ^ e) = e :=
    unitExponent_eq exact_value.ge
      (fun _ => exact_value.trans_lt (Nat.pow_lt_pow_right (by decide) (Nat.lt_succ_self e))) le
  exact spelling_of_halves (k := 2) large (pow_le_maxSize le) (by rw [unit, hexponent])

/-- A size whose value is near a product of tenths and a unit, and in the range of the unit, is
written as that product. -/
theorem spelling_of_near {m t e : ℕ} (large : 1024 ≤ m) (le : e ≤ 6)
    (low : 1024 ^ e ≤ floatValue m) (high : e < 6 → floatValue m < 1024 ^ (e + 1))
    (near : |(floatValue m : ℚ) - t * 1024 ^ e / 10| < 1024 ^ e / 20) :
    spelling m = ofTenths t e := by
  have hexponent : exponent m = e := unitExponent_eq low high le
  have pos : (0 : ℚ) < 1024 ^ e := by positivity
  have htenths : tenths m = t := by
    have hunit : (unit m : ℚ) = 1024 ^ e := by rw [unit_cast, hexponent]
    refine roundDiv_eq_of_abs_lt (show 0 < unit m from Nat.pow_pos (by decide)) ?_
    change |((floatValue m * 10 : ℕ) : ℚ) / unit m - t| < 1 / 2
    have factored : ((floatValue m * 10 : ℕ) : ℚ) / unit m - t =
        ((floatValue m : ℚ) - t * 1024 ^ e / 10) * (10 / 1024 ^ e) := by
      rw [hunit]
      push_cast
      field_simp
    rw [factored, abs_mul, abs_of_pos (show (0 : ℚ) < 10 / 1024 ^ e by positivity)]
    calc |(floatValue m : ℚ) - t * 1024 ^ e / 10| * (10 / 1024 ^ e)
        < 1024 ^ e / 20 * (10 / 1024 ^ e) := by gcongr
      _ = 1 / 2 := by field_simp; norm_num
  rw [spelling_eq large, htenths, hexponent]

/-- The spelling of a size is its own spelling. -/
theorem spelling_spelling (fits : n ≤ maxSize) : spelling (spelling n) = spelling n := by
  by_cases small : n < 1024
  · have : spelling n = n := if_pos small
    rw [this, this]
  have large := Nat.not_lt.mp small
  obtain ⟨unit_ge, -, -, -, -⟩ := isWritten large fits
  obtain ⟨ge, le, bounded⟩ := tenths_bounds large fits
  have spelled := abs_le.mp (spelling_near large fits)
  have fits' := spelling_le_maxSize fits
  have unit_nat : 1024 ≤ unit n := by exact_mod_cast unit_ge
  rcases Nat.eq_or_lt_of_le ge with ten | eleven
  · have : spelling n = 1024 ^ exponent n := by
      have fits : 1 * 1024 ^ exponent n ≤ maxSize := by
        rw [one_mul]
        exact pow_le_maxSize (exponent_le n)
      rw [spelling_eq large, ← ten]
      exact (ofTenths_ten_mul one_pos (by decide) (exponent_le n) fits).trans (one_mul _)
    rw [this, spelling_pow (one_le_exponent large fits) (exponent_le n)]
  by_cases next : tenths n = 10240 ∧ exponent n < 6
  · -- 1024 units, which are written as one of the next.
    have : spelling n = 1024 ^ (exponent n + 1) := by
      have fits : 1024 * 1024 ^ exponent n ≤ maxSize := by
        rw [← Nat.pow_succ']
        exact pow_le_maxSize next.2
      rw [spelling_eq large, next.1, Nat.pow_succ']
      exact ofTenths_ten_mul (by decide) le_rfl (exponent_le n) fits
    rw [this, spelling_pow (by omega) next.2]
  · have ge : (11 : ℚ) ≤ tenths n := by exact_mod_cast eleven
    have le : (tenths n : ℚ) ≤ 10240 := by exact_mod_cast le
    have product_ge : 11 * (unit n : ℚ) ≤ tenths n * unit n := by gcongr
    have product_le : tenths n * (unit n : ℚ) ≤ 10240 * unit n := by gcongr
    have large' : 1024 ≤ spelling n := by
      have : (1024 : ℚ) ≤ spelling n := by linarith
      exact_mod_cast this
    have near := abs_le.mp (floatValue_near (by omega) fits')
    rw [spelling_of_near (e := exponent n) (t := tenths n) large' (exponent_le n),
      spelling_eq large]
    · have : (unit n : ℚ) ≤ floatValue (spelling n) := by linarith
      exact_mod_cast this
    · intro top
      have le : tenths n ≤ 10239 := by omega
      have le : (tenths n : ℚ) ≤ 10239 := by exact_mod_cast le
      have product_le : tenths n * (unit n : ℚ) ≤ 10239 * unit n := by gcongr
      have : (floatValue (spelling n) : ℚ) < unit n * 1024 := by linarith
      exact_mod_cast this
    · rw [← unit_cast, abs_lt]
      constructor <;> linarith

end Large

end CachedStreams.Size
