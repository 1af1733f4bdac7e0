/-!
# Rounding a quotient

`roundHalfEven` rounds a quotient of natural numbers to the nearest integer; a tie goes to the
even neighbour. Both kinds of inexact numbers round by it: binary floats to 53 bits, decimals to
28 digits.
-/

namespace SqlTemplate

/-- The integer nearest to `num / den`, of two equally near ones the even one. -/
def roundHalfEven (num den : Nat) : Nat :=
  let quotient := num / den
  let rest := num % den
  if 2 * rest < den ∨ (2 * rest = den ∧ quotient % 2 = 0) then quotient else quotient + 1

theorem div_le_roundHalfEven (num den : Nat) : num / den ≤ roundHalfEven num den := by
  simp only [roundHalfEven]
  split <;> omega

theorem roundHalfEven_le (num den : Nat) : roundHalfEven num den ≤ num / den + 1 := by
  simp only [roundHalfEven]
  split <;> omega

/-- A quotient that is an integer is its own rounding. -/
theorem roundHalfEven_mul_right (n : Nat) {den : Nat} (h : 0 < den) :
    roundHalfEven (n * den) den = n := by
  simp [roundHalfEven, Nat.mul_div_cancel n h, Nat.mul_mod_left, h]

/-- An integer is its own rounding. -/
theorem roundHalfEven_one (n : Nat) : roundHalfEven n 1 = n := by
  have h := roundHalfEven_mul_right n Nat.one_pos
  rwa [Nat.mul_one] at h

end SqlTemplate
