import CachedStreams.Decimal.Binary64
import Mathlib.Algebra.Order.Field.Rat
import Mathlib.Algebra.Order.Field.Power
import Mathlib.Algebra.Order.Floor.Semifield
import Mathlib.Data.Rat.Floor
import Mathlib.Data.Nat.Log
import Mathlib.Data.Rat.Cast.Order
import Mathlib.Tactic.FieldSimp
import Mathlib.Tactic.Linarith
import Mathlib.Tactic.NormNum
import Mathlib.Tactic.Positivity
import Mathlib.Tactic.Ring

/-!
# Rounding to binary floating point

What rounding a ratio does, in rational numbers: the result is off by at most one part in `2 ^ 53`,
and not off at all when the ratio has a mantissa of 53 bits. In particular nothing is lost by
multiplying with a power of two.
-/

set_option autoImplicit false

namespace CachedStreams.Decimal

/-- A quotient is rounded by at most a half. -/
theorem abs_roundDiv_sub_le (n : ℕ) {d : ℕ} (hd : 0 < d) :
    |(roundDiv n d : ℚ) - n / d| ≤ 1 / 2 := by
  have hpos : (0 : ℚ) < d := by exact_mod_cast hd
  have above : (2 : ℚ) * (roundDiv n d * d) ≤ 2 * n + d := by
    exact_mod_cast (roundDiv_mul_near n hd).1
  have below : (2 : ℚ) * n ≤ 2 * (roundDiv n d * d) + d := by
    exact_mod_cast (roundDiv_mul_near n hd).2
  have quotient : (n : ℚ) / d * d = n := div_mul_cancel₀ _ hpos.ne'
  rw [abs_le]
  constructor <;> nlinarith

/-- A whole number that is nearer to a quotient than a half is what the quotient is rounded to. -/
theorem roundDiv_eq_of_abs_lt {n d k : ℕ} (hd : 0 < d) (near : |(n : ℚ) / d - k| < 1 / 2) :
    roundDiv n d = k := by
  have rounded := abs_roundDiv_sub_le n hd
  have apart : |((roundDiv n d : ℤ) : ℚ) - ((k : ℤ) : ℚ)| < 1 := by
    calc |((roundDiv n d : ℤ) : ℚ) - ((k : ℤ) : ℚ)|
        = |((roundDiv n d : ℚ) - n / d) + (n / d - k)| := by push_cast; congr 1; ring
      _ ≤ |(roundDiv n d : ℚ) - n / d| + |(n : ℚ) / d - k| := abs_add_le _ _
      _ < 1 := by linarith
  have : |(roundDiv n d : ℤ) - (k : ℤ)| < 1 := by exact_mod_cast apart
  rw [Int.abs_lt_one_iff] at this
  omega

namespace Binary64

/-- The number that a mantissa and an exponent stand for. -/
def value (x : Binary64) : ℚ := x.mantissa * 2 ^ x.exponent

/-- The power of the program, as the power of algebra. -/
theorem natPow_eq (a b : ℕ) : Nat.pow a b = a ^ b := rfl

/-- A power of two with an exponent that is not negative is a natural number. -/
theorem two_zpow_toNat {e : ℤ} (h : 0 ≤ e) : ((Nat.pow 2 e.toNat : ℕ) : ℚ) = 2 ^ e := by
  rw [natPow_eq, Nat.cast_pow, Nat.cast_ofNat, ← zpow_natCast, Int.toNat_of_nonneg h]

/-- To scale a ratio by a power of two keeps its denominator positive. -/
theorem scaleRatio_pos (n : ℕ) {d : ℕ} (hd : 0 < d) (e : ℤ) : 0 < (scaleRatio n d e).2 := by
  unfold scaleRatio
  split
  · exact Nat.mul_pos hd (Nat.pow_pos (by decide))
  · exact hd

/-- To scale a ratio is to divide its value by the power of two. -/
theorem scaleRatio_div (n d : ℕ) (e : ℤ) :
    ((scaleRatio n d e).1 : ℚ) / (scaleRatio n d e).2 = n / d / 2 ^ e := by
  unfold scaleRatio
  split
  case isTrue h => simp only [Nat.cast_mul, two_zpow_toNat h, div_mul_eq_div_div]
  case isFalse h =>
    simp only [Nat.cast_mul, two_zpow_toNat (show 0 ≤ -e by omega), zpow_neg]
    ring

/-- The denominator of a float is positive. -/
theorem toRatio_pos (x : Binary64) : 0 < x.toRatio.2 := by
  unfold toRatio
  split
  · exact Nat.one_pos
  · exact Nat.pow_pos (by decide)

/-- The ratio of a float is its value. -/
theorem toRatio_div (x : Binary64) : (x.toRatio.1 : ℚ) / x.toRatio.2 = x.value := by
  unfold toRatio value
  split
  case isTrue h => simp only [Nat.cast_mul, two_zpow_toNat h, Nat.cast_one, div_one]
  case isFalse h =>
    simp only [two_zpow_toNat (show 0 ≤ -x.exponent by omega), zpow_neg, div_inv_eq_mul]

/-- A mantissa that is a power of two may be halved. -/
theorem value_carried (s : ℕ) (e : ℤ) :
    (⟨Nat.pow 2 s, e + 1⟩ : Binary64).value = ((Nat.pow 2 (s + 1) : ℕ) : ℚ) * 2 ^ e := by
  rw [value, natPow_eq, natPow_eq, zpow_add_one₀ two_ne_zero]
  push_cast
  ring

/-- The whole part of a float is that of its value. -/
theorem floor_eq (x : Binary64) : x.floor = ⌊x.value⌋₊ := by
  rw [← toRatio_div, Nat.floor_div_eq_div]
  rfl

/-! ### The exponent of a ratio -/

/-- The quotient of two numbers is at least the power of two that their logarithms give, less one.
-/
theorem le_log2_div {n d : ℕ} (hn : 0 < n) (hd : 0 < d) :
    (2 : ℚ) ^ ((n.log2 : ℤ) - d.log2 - 1) ≤ n / d := by
  have hpos : (0 : ℚ) < d := by exact_mod_cast hd
  have lower : (2 : ℚ) ^ (n.log2 : ℤ) ≤ n := by
    exact_mod_cast Nat.log2_self_le hn.ne'
  have upper : (d : ℚ) ≤ 2 ^ ((d.log2 : ℤ) + 1) := by
    exact_mod_cast (Nat.lt_log2_self (n := d)).le
  have split : (n.log2 : ℤ) - d.log2 - 1 = n.log2 - (d.log2 + 1) := by ring
  rw [split, zpow_sub₀ two_ne_zero]
  gcongr

/-- The quotient of two numbers is below the power of two that their logarithms give, and one more.
-/
theorem div_lt_log2 {n d : ℕ} (hd : 0 < d) :
    (n : ℚ) / d < 2 ^ ((n.log2 : ℤ) - d.log2 + 1) := by
  have hpos : (0 : ℚ) < d := by exact_mod_cast hd
  have lower : (2 : ℚ) ^ (d.log2 : ℤ) ≤ d := by
    exact_mod_cast Nat.log2_self_le hd.ne'
  have upper : (n : ℚ) < 2 ^ ((n.log2 : ℤ) + 1) := by
    exact_mod_cast Nat.lt_log2_self (n := n)
  have split : (n.log2 : ℤ) - d.log2 + 1 = (n.log2 + 1) - d.log2 := by ring
  rw [split, zpow_sub₀ two_ne_zero]
  calc (n : ℚ) / d < 2 ^ ((n.log2 : ℤ) + 1) / d := by gcongr
    _ ≤ 2 ^ ((n.log2 : ℤ) + 1) / 2 ^ (d.log2 : ℤ) := by gcongr

/-- A ratio that is neither tiny nor huge. -/
structure IsModerate (n d : ℕ) : Prop where
  pos : 0 < n
  pos' : 0 < d
  notTiny : d ≤ 2 ^ 200 * n
  notHuge : n ≤ 2 ^ 200 * d

namespace IsModerate

variable {n d : ℕ}

/-- A ratio whose value is neither tiny nor huge is so itself. -/
theorem of_div (hd : 0 < d) (low : 1 ≤ 2 ^ 200 * ((n : ℚ) / d)) (high : (n : ℚ) / d ≤ 2 ^ 200) :
    IsModerate n d := by
  have hpos : (0 : ℚ) < d := by exact_mod_cast hd
  have notTiny : (d : ℚ) ≤ 2 ^ 200 * n := by
    rwa [← mul_div_assoc, le_div_iff₀ hpos, one_mul] at low
  have notHuge : (n : ℚ) ≤ 2 ^ 200 * d := (div_le_iff₀ hpos).mp high
  have notTiny : d ≤ 2 ^ 200 * n := by exact_mod_cast notTiny
  exact ⟨Nat.pos_of_mul_pos_left (hd.trans_le notTiny), hd, notTiny, by exact_mod_cast notHuge⟩

/-- The denominator of a ratio that is not tiny is at most 200 bits longer than the numerator. -/
theorem log2_le (h : IsModerate n d) : d.log2 ≤ n.log2 + 200 := by
  have bound : d < 2 ^ (200 + (n.log2 + 1)) :=
    calc d ≤ 2 ^ 200 * n := h.notTiny
      _ < 2 ^ 200 * 2 ^ (n.log2 + 1) :=
        Nat.mul_lt_mul_of_pos_left Nat.lt_log2_self (Nat.two_pow_pos 200)
      _ = 2 ^ (200 + (n.log2 + 1)) := (Nat.pow_add ..).symm
  have := (Nat.log2_lt h.pos'.ne').mpr bound
  omega

/-- The numerator of a ratio that is not huge is at most 200 bits longer than the denominator. -/
theorem log2_le' (h : IsModerate n d) : n.log2 ≤ d.log2 + 200 :=
  log2_le ⟨h.pos', h.pos, h.notHuge, h.notTiny⟩

end IsModerate

/-- Scaled by its exponent, a ratio has a whole part of 53 bits. -/
theorem exponentOf_spec {n d : ℕ} (h : IsModerate n d) :
    (2 : ℚ) ^ 52 ≤ n / d / 2 ^ exponentOf n d ∧ (n : ℚ) / d / 2 ^ exponentOf n d < 2 ^ 53 ∧
      exponentOf n d ≤ 200 := by
  have lower := le_log2_div h.pos h.pos'
  have upper := div_lt_log2 (n := n) h.pos'
  have := h.log2_le
  have := h.log2_le'
  have unclamped : max ((n.log2 : ℤ) - d.log2 - 53) minExponent = (n.log2 : ℤ) - d.log2 - 53 :=
    max_eq_left (by unfold minExponent; omega)
  simp only [exponentOf, unclamped]
  set guess := (n.log2 : ℤ) - d.log2 - 53 with hguess
  have hpow : (0 : ℚ) < 2 ^ guess := by positivity
  have low : (2 : ℚ) ^ 52 ≤ n / d / 2 ^ guess := by
    rw [le_div_iff₀ hpow, ← zpow_natCast, ← zpow_add₀ two_ne_zero]
    rwa [show ((52 : ℕ) : ℤ) + guess = n.log2 - d.log2 - 1 by omega]
  have high : (n : ℚ) / d / 2 ^ guess < 2 ^ 54 := by
    rw [div_lt_iff₀ hpow, ← zpow_natCast, ← zpow_add₀ two_ne_zero]
    rwa [show ((54 : ℕ) : ℤ) + guess = n.log2 - d.log2 + 1 by omega]
  have hscaled : (0 : ℚ) < (scaleRatio n d guess).2 := by
    exact_mod_cast scaleRatio_pos n h.pos' guess
  rw [← scaleRatio_div] at low high
  split
  case isTrue large =>
    have large : ((scaleRatio n d guess).2 : ℚ) * 2 ^ 53 ≤ (scaleRatio n d guess).1 := by
      exact_mod_cast large
    have : (n : ℚ) / d / 2 ^ (guess + 1) =
        (scaleRatio n d guess).1 / (scaleRatio n d guess).2 / 2 := by
      rw [scaleRatio_div, zpow_add_one₀ two_ne_zero, div_mul_eq_div_div]
    rw [this]
    refine ⟨?_, by linarith, by omega⟩
    rw [le_div_iff₀ two_pos, le_div_iff₀ hscaled]
    linarith
  case isFalse small =>
    have small : ((scaleRatio n d guess).1 : ℚ) < (scaleRatio n d guess).2 * 2 ^ 53 := by
      exact_mod_cast Nat.lt_of_not_le small
    rw [← scaleRatio_div]
    refine ⟨low, ?_, by omega⟩
    rw [div_lt_iff₀ hscaled]
    linarith

/-- With a mantissa of 53 bits, a ratio that is scaled to 53 bits is a whole number. -/
theorem exists_nat_of_short {q : ℚ} {k : ℕ} {e j : ℤ} (hq : q = k * 2 ^ j) (short : k < 2 ^ 53)
    (low : (2 : ℚ) ^ 52 ≤ q / 2 ^ e) : ∃ w : ℕ, q / 2 ^ e = w := by
  have shift : q / 2 ^ e = k * 2 ^ (j - e) := by rw [hq, zpow_sub₀ two_ne_zero, mul_div_assoc]
  have whole : 0 ≤ j - e := by
    -- otherwise the mantissa, halved at least once, were below `2 ^ 52`
    by_contra negative
    have small : (2 : ℚ) ^ (j - e) ≤ 2 ^ (-1 : ℤ) := zpow_le_zpow_right₀ one_le_two (by omega)
    have short : (k : ℚ) + 1 ≤ 2 ^ 53 := by exact_mod_cast short
    have halved : (k : ℚ) * 2 ^ (j - e) ≤ k * 2 ^ (-1 : ℤ) := by gcongr
    rw [shift] at low
    norm_num at halved low short
    linarith
  exact ⟨k * 2 ^ (j - e).toNat, by rw [shift, Nat.cast_mul, ← two_zpow_toNat whole, natPow_eq]⟩

/-! ### The nearest number -/

/-- `x` is what `q` is rounded to: off by at most one part in `2 ^ 53`, and exact if `q` has a
mantissa of 53 bits. -/
structure IsNearest (x : Binary64) (q : ℚ) : Prop where
  near : |x.value - q| ≤ q / 2 ^ 53
  exact_of_short : ∀ (k : ℕ) (j : ℤ), k < 2 ^ 53 → q = k * 2 ^ j → x.value = q
  short : x.mantissa < 2 ^ 53

/-- A ratio is rounded to a mantissa, and one of 54 bits is halved. -/
theorem ofRatio_cases {n d sn sd m : ℕ} {e : ℤ} (hn : n ≠ 0) (he : exponentOf n d = e)
    (scaled : scaleRatio n d e = (sn, sd)) (hm : roundDiv sn sd = m) (fits : e + 1 ≤ maxExponent) :
    ∃ x, ofRatio n d = some x ∧
      (m = Nat.pow 2 53 ∧ x = ⟨Nat.pow 2 52, e + 1⟩ ∨ m ≠ Nat.pow 2 53 ∧ x = ⟨m, e⟩) := by
  rw [ofRatio, if_neg hn, he]
  dsimp only
  rw [scaled]
  dsimp only
  rw [hm]
  by_cases carry : m = Nat.pow 2 53
  · simp only [if_pos carry]
    rw [if_pos fits]
    exact ⟨_, rfl, .inl ⟨carry, rfl⟩⟩
  · simp only [if_neg carry]
    rw [if_pos ((Int.le_add_one le_rfl).trans fits)]
    exact ⟨_, rfl, .inr ⟨carry, rfl⟩⟩

/-- A moderate ratio has a nearest number. -/
theorem ofRatio_isNearest {n d : ℕ} (h : IsModerate n d) :
    ∃ x, ofRatio n d = some x ∧ x.IsNearest ((n : ℚ) / d) := by
  obtain ⟨low, high, bounded⟩ := exponentOf_spec h
  generalize he : exponentOf n d = e at low high bounded
  have hpow : (0 : ℚ) < 2 ^ e := by positivity
  have hscaled := scaleRatio_pos n h.pos' e
  have ratio := scaleRatio_div n d e
  rcases scaled : scaleRatio n d e with ⟨sn, sd⟩
  rw [scaled] at hscaled ratio
  have rounded := abs_roundDiv_sub_le sn hscaled
  generalize hm : roundDiv sn sd = m at rounded
  obtain ⟨x, hx, shape⟩ := ofRatio_cases h.pos.ne' he scaled hm
    ((Int.add_le_add_right bounded 1).trans (by decide))
  rw [ratio] at rounded
  generalize (n : ℚ) / d = q at low high ratio rounded ⊢
  have mantissa : m ≤ 2 ^ 53 := by
    have : (m : ℚ) < 2 ^ 53 + 1 := by linarith [(abs_le.mp rounded).2]
    have : m < 2 ^ 53 + 1 := by exact_mod_cast this
    omega
  have value_eq : x.value = m * 2 ^ e := by
    rcases shape with ⟨carry, rfl⟩ | ⟨-, rfl⟩
    · rw [carry]
      exact value_carried 52 e
    · rfl
  refine ⟨x, hx, ?_, ?_, ?_⟩
  · have factored : x.value - q = (m - q / 2 ^ e) * 2 ^ e := by
      rw [value_eq, sub_mul, div_mul_cancel₀ _ hpow.ne']
    have : (2 : ℚ) ^ 52 * 2 ^ e ≤ q := (le_div_iff₀ hpow).mp low
    rw [factored, abs_mul, abs_of_pos hpow]
    nlinarith
  · intro k j short hk
    obtain ⟨w, integral⟩ := exists_nat_of_short hk short low
    have : m = w := by
      rw [← hm]
      refine roundDiv_eq_of_abs_lt hscaled ?_
      rw [ratio, integral, sub_self, abs_zero]
      norm_num
    rw [value_eq, this, ← integral, div_mul_cancel₀ _ hpow.ne']
  · rcases shape with ⟨-, rfl⟩ | ⟨full, rfl⟩
    · rw [natPow_eq]
      exact Nat.pow_lt_pow_right (by decide) (by decide)
    · rw [natPow_eq] at full
      exact lt_of_le_of_ne mantissa full

/-- Multiplying with a power of two loses nothing. -/
theorem mulNat_two_pow {x : Binary64} (short : x.mantissa < 2 ^ 53) {s : ℕ}
    (moderate : IsModerate (x.toRatio.1 * 2 ^ s) x.toRatio.2) :
    ∃ y, x.mulNat (2 ^ s) = some y ∧ y.value = x.value * 2 ^ s := by
  obtain ⟨y, hy, nearest⟩ := ofRatio_isNearest moderate
  have product : ((x.toRatio.1 * 2 ^ s : ℕ) : ℚ) / x.toRatio.2 = x.value * 2 ^ s := by
    rw [← toRatio_div]
    push_cast
    ring
  refine ⟨y, hy, ?_⟩
  rw [← product]
  refine nearest.exact_of_short x.mantissa (x.exponent + s) short ?_
  rw [product, value, zpow_add₀ two_ne_zero, zpow_natCast, mul_assoc]

end Binary64

end CachedStreams.Decimal
