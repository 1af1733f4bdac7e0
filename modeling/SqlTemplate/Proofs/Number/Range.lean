import SqlTemplate.Number.Basic
import SqlTemplate.Proofs.Results

/-!
# Results beyond the range of decimals

A decimal result signals an overflow if its first digit stands beyond the largest exponent, at once
or because rounding to the precision carries into one digit more (`Decimal.ExceedsRange`), and **it
signals nothing else** (`Decimal.exists_rounded_eq_error_iff`). So the opposite of a number exists
unless it is a decimal of such a size or a NaN that stops every operation
(`Number.exists_neg_eq_error_iff`).
-/

namespace SqlTemplate

-- Powers are read the same way, whatever else is imported.
attribute [local instance(2000)] instPowNat

namespace Decimal

/-- Whether a coefficient and an exponent are too large for a result: the first digit stands beyond
the largest exponent, at once or after rounding to the precision. -/
def ExceedsRange (coefficient : Nat) (exponent : Int) : Prop :=
  coefficient ≠ 0 ∧
    (maxExponent < digitCount coefficient - 1 + exponent ∨
      (digitCount coefficient - 1 + exponent = maxExponent ∧
        precision < digitCount
          (roundHalfEven coefficient (10 ^ (digitCount coefficient - precision)))))

/-- **Rounding signals just what exceeds the range.** -/
theorem exists_rounded_eq_error_iff (negative : Bool) (coefficient : Nat) (exponent : Int) :
    (∃ s, rounded negative coefficient exponent = .error s) ↔
      ExceedsRange coefficient exponent := by
  simp only [rounded, ExceedsRange, exists_ite_ok_eq_error_iff, exists_ite_error_eq_error_iff,
    not_exists_ok_eq_error, or_false]
  simp only [maxExponent, precision, tinyExponent]
  refine and_congr_right fun _ => ?_
  by_cases hBeyond : 999999 < (digitCount coefficient : Int) - 1 + exponent
  · exact iff_of_true (.inl (by omega)) (.inl hBeyond)
  rw [or_iff_right hBeyond, or_iff_right (by omega)]
  -- Where the first digit has the largest exponent, the last one kept has a fixed place.
  have hPlace (hFirst : (digitCount coefficient : Int) - 1 + exponent = 999999) :
      (max ((digitCount coefficient : Int) + exponent - (28 : Nat)) (-1000026) - exponent).toNat =
        digitCount coefficient - 28 := by
    omega
  constructor
  · rintro ⟨-, hCarry, hTop⟩
    have hFirst : (digitCount coefficient : Int) - 1 + exponent = 999999 := by omega
    rw [hPlace hFirst, Nat.not_le] at hCarry
    exact ⟨hFirst, hCarry⟩
  · rintro ⟨hFirst, hCarry⟩
    have hLong : 28 < digitCount coefficient := by
      refine Nat.lt_of_not_le fun hShort => ?_
      rw [Nat.sub_eq_zero_of_le hShort, Nat.pow_zero, roundHalfEven_one] at hCarry
      omega
    rw [hPlace hFirst]
    exact ⟨by omega, Nat.not_le.mpr hCarry, by omega⟩

/-- Whether a decimal has no opposite: it stops every operation or is too large. -/
def LacksOpposite : Decimal → Prop
  | finite _ coefficient exponent => ExceedsRange coefficient exponent
  | infinite _ => False
  | nan _ signaling _ _ => signaling

theorem exists_neg_eq_error_iff (d : Decimal) : (∃ s, d.neg = .error s) ↔ d.LacksOpposite := by
  cases d with
  | finite negative coefficient exponent => exact exists_rounded_eq_error_iff _ _ _
  | infinite negative => exact iff_of_false not_exists_ok_eq_error id
  | nan negative signaling payload label =>
    cases signaling with
    | true => exact iff_of_true ⟨_, rfl⟩ rfl
    | false => exact iff_of_false not_exists_ok_eq_error Bool.false_ne_true

end Decimal

namespace Number

theorem exists_neg_eq_error_iff (n : Number) :
    (∃ fault, n.neg = .error fault) ↔ ∃ d, n = .decimal d ∧ d.LacksOpposite := by
  cases n with
  | int | float =>
    refine iff_of_false not_exists_ok_eq_error ?_
    rintro ⟨_, h, -⟩
    cases h
  | decimal d =>
    have hDecimal : (∃ fault, (decimal d).neg = .error fault) ↔ ∃ s, d.neg = .error s := by
      rw [neg]
      cases d.neg with
      | ok result => exact iff_of_false not_exists_ok_eq_error not_exists_ok_eq_error
      | error s => exact iff_of_true ⟨_, rfl⟩ ⟨_, rfl⟩
    rw [hDecimal, Decimal.exists_neg_eq_error_iff]
    refine ⟨fun h => ⟨d, rfl, h⟩, ?_⟩
    rintro ⟨_, h, hLacks⟩
    cases h
    exact hLacks

end Number

end SqlTemplate
