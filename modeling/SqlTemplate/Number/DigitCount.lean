/-!
# How many digits a number has

The digits of a number are counted without writing them out: the count is estimated from the
binary logarithm, never too high, and then raised to the least power of ten above the number.
-/

namespace SqlTemplate

-- Powers are read the same way, whatever else is imported.
attribute [local instance(2000)] instPowNat

/-- The least exponent from `k` on whose power of ten exceeds `n`, looked for in `steps`. -/
def exponentAbove (n : Nat) : Nat → Nat → Nat
  | 0, k => k
  | steps + 1, k => if n < 10 ^ k then k else exponentAbove n steps (k + 1)

/-- How many decimal digits a number has; zero has one. -/
def digitCount (n : Nat) : Nat := exponentAbove n (n.log2 + 1) (n.log2 * 30102 / 100000 + 1)

theorem le_exponentAbove (n steps k : Nat) : k ≤ exponentAbove n steps k := by
  induction steps generalizing k with
  | zero => simp [exponentAbove]
  | succ steps ih =>
    simp only [exponentAbove]
    split
    · exact Nat.le_refl k
    · exact Nat.le_trans (Nat.le_succ k) (ih (k + 1))

theorem digitCount_pos (n : Nat) : 0 < digitCount n :=
  Nat.lt_of_lt_of_le (Nat.succ_pos _) (le_exponentAbove ..)

theorem lt_pow_exponentAbove {n steps k : Nat} (h : n < 10 ^ (k + steps)) :
    n < 10 ^ exponentAbove n steps k := by
  induction steps generalizing k with
  | zero => simpa [exponentAbove] using h
  | succ steps ih =>
    simp only [exponentAbove]
    split
    · assumption
    · exact ih (by rwa [Nat.add_right_comm, Nat.add_assoc])

/-- A number has no digits beyond its count. -/
theorem lt_pow_digitCount (n : Nat) : n < 10 ^ digitCount n := by
  refine lt_pow_exponentAbove (Nat.lt_of_lt_of_le Nat.lt_log2_self ?_)
  exact Nat.le_trans (Nat.pow_le_pow_left (by decide) _)
    (Nat.pow_le_pow_right (by decide) (by omega))

end SqlTemplate
