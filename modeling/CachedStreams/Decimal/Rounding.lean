/-!
# Rounding quotients

Division of natural numbers to the nearest whole number, where a quotient halfway between two goes
to the even one. The lemma says that the result is never more than half a unit off.
-/

set_option autoImplicit false

namespace CachedStreams.Decimal

/-- `n / d` rounded to the nearest whole number, halves to the even one. -/
def roundDiv (n d : Nat) : Nat :=
  let q := n / d
  let r := n % d
  if 2 * r < d then q
  else if d < 2 * r then q + 1
  else q + q % 2

/-- A quotient that has been rounded is off by at most half a unit, to either side. -/
theorem roundDiv_mul_near (n : Nat) {d : Nat} (hd : 0 < d) :
    2 * (roundDiv n d * d) ≤ 2 * n + d ∧ 2 * n ≤ 2 * (roundDiv n d * d) + d := by
  unfold roundDiv
  have h := Nat.div_add_mod n d
  have hm : n / d * d = d * (n / d) := Nat.mul_comm ..
  have hlt := Nat.mod_lt n hd
  simp only
  split
  · omega
  · split
    · rw [Nat.add_mul]; omega
    · rcases Nat.mod_two_eq_zero_or_one (n / d) with hq | hq <;> rw [hq]
      · simp only [Nat.add_zero]; omega
      · rw [Nat.add_mul]; omega

end CachedStreams.Decimal
