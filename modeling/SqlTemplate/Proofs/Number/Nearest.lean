import SqlTemplate.Number.Shortest
import SqlTemplate.Proofs.Number.Order

/-!
# Rounding to the nearest float

The magnitude nearest to a quotient depends on the quotient only, not on how it is written
(`Magnitude.ofRatio?_eq_of_cross`), **a quotient that is a magnitude is its own rounding**
(`Magnitude.ofRatio?_units`), and from half a step above the largest magnitude on there is none
(`Magnitude.ofRatio?_eq_none_iff`). What is said of decimal numerals follows: zeros may be moved
between the digits and the exponent (`Magnitude.ofDecimal?_mul_pow`), a numeral whose value a float
has is read as this float (`Magnitude.ofDecimal?_of_cross`), and **the shortest numeral of a
magnitude is read as the magnitude** (`Magnitude.ofDecimal?_shortest`).
-/

namespace SqlTemplate

-- Powers are read the same way, whatever else is imported.
attribute [local instance(2000)] instPowNat

/-- A quotient is rounded alike, however it is written. -/
theorem roundHalfEven_mul_mul (num den : Nat) {k : Nat} (hk : 0 < k) :
    roundHalfEven (num * k) (den * k) = roundHalfEven num den := by
  have hLess : 2 * (num % den * k) < den * k ↔ 2 * (num % den) < den := by
    rw [← Nat.mul_assoc, Nat.mul_lt_mul_right hk]
  have hEqual : 2 * (num % den * k) = den * k ↔ 2 * (num % den) = den := by
    rw [← Nat.mul_assoc, Nat.mul_left_inj (Nat.ne_of_gt hk)]
  simp only [roundHalfEven, Nat.mul_div_mul_right _ _ hk, Nat.mul_mod_mul_right, hLess, hEqual]

theorem roundHalfEven_of_lt_half {num den : Nat} (h : 2 * num < den) :
    roundHalfEven num den = 0 := by
  have hLess : num < den := by omega
  rw [roundHalfEven, Nat.mod_eq_of_lt hLess, Nat.div_eq_of_lt hLess, if_pos (.inl h)]

/-- A quotient below an even number is rounded up to it from half a step below on. -/
theorem roundHalfEven_eq_iff {num den n : Nat} (hEven : n % 2 = 0) (hLess : num < n * den) :
    roundHalfEven num den = n ↔ 2 * (n * den) ≤ 2 * num + den := by
  have hden : 0 < den := Nat.pos_of_ne_zero fun h => by simp [h] at hLess
  have hQuotient : num / den < n := (Nat.div_lt_iff_lt_mul hden).mpr hLess
  have hRest : num % den < den := Nat.mod_lt num hden
  have hNum : den * (num / den) + num % den = num := Nat.div_add_mod num den
  have hUp : num / den + 1 = n ↔ n * den = den * (num / den) + den := by
    rw [show den * (num / den) + den = (num / den + 1) * den by
      rw [Nat.add_mul, Nat.one_mul, Nat.mul_comm], Nat.mul_left_inj (Nat.ne_of_gt hden), eq_comm]
  rw [roundHalfEven]
  constructor
  · intro h
    split at h
    · omega
    · have := hUp.mp h
      omega
  · intro h
    have hNext : num / den + 1 = n := by
      refine Nat.le_antisymm hQuotient (Nat.le_of_not_lt fun hFar => ?_)
      have hProduct : (num / den + 2) * den ≤ n * den := Nat.mul_le_mul_right den hFar
      rw [Nat.add_mul, Nat.mul_comm (num / den)] at hProduct
      omega
    have := hUp.mp hNext
    rw [if_neg (by omega), hNext]

namespace Magnitude

variable {num den : Nat}

/-! ### Quotients -/

theorem ofRatio?_mul_mul (num den : Nat) {k : Nat} (hk : 0 < k) :
    ofRatio? (num * k) (den * k) = ofRatio? num den := by
  have hQuotient : num * k / (den * k) = num / den := Nat.mul_div_mul_right _ _ hk
  have hRound (shift : Nat) : roundHalfEven (num * k) (den * k * 2 ^ shift) =
      roundHalfEven num (den * 2 ^ shift) := by
    rw [Nat.mul_right_comm]
    exact roundHalfEven_mul_mul num _ hk
  simp only [ofRatio?, hQuotient, hRound]

/-- **Equal quotients are rounded alike.** -/
theorem ofRatio?_eq_of_cross {num' den' : Nat} (hden : 0 < den) (hden' : 0 < den')
    (h : num * den' = num' * den) : ofRatio? num den = ofRatio? num' den' := by
  rw [← ofRatio?_mul_mul num den hden', h, Nat.mul_comm den, ofRatio?_mul_mul num' den' hden]

/-- The shift that leaves 53 significant bits is the exponent. -/
theorem shiftFor_units (m : Magnitude) : shiftFor m.units = m.exponent := by
  rcases m.normal with hZero | hNormal
  · have hUnits : m.units = m.mantissa := by rw [units, hZero, Nat.pow_zero, Nat.mul_one]
    have hLog : m.mantissa.log2 < 53 := by
      by_cases hm : m.mantissa = 0
      · rw [hm]
        decide
      · exact (Nat.log2_lt hm).mpr m.mantissa_lt
    rw [shiftFor, hUnits, hZero]
    omega
  · have hPos : m.units ≠ 0 := by
      have hm : 0 < m.mantissa := Nat.lt_of_lt_of_le (Nat.two_pow_pos 52) hNormal
      exact Nat.ne_of_gt (Nat.mul_pos hm (Nat.two_pow_pos _))
    have hLog : m.units.log2 = 52 + m.exponent := by
      rw [Nat.log2_eq_iff hPos, units]
      constructor
      · rw [Nat.pow_add]
        exact Nat.mul_le_mul_right _ hNormal
      · rw [show 52 + m.exponent + 1 = 53 + m.exponent by omega, Nat.pow_add]
        exact Nat.mul_lt_mul_of_pos_right m.mantissa_lt (Nat.two_pow_pos _)
    rw [shiftFor, hLog]
    omega

/-- **A quotient that is a magnitude is its own rounding.** -/
theorem ofRatio?_units (m : Magnitude) (hden : 0 < den) :
    ofRatio? (m.units * den) den = some m := by
  have hShift : shiftFor (m.units * den / den) = m.exponent := by
    rw [Nat.mul_div_cancel _ hden, shiftFor_units]
  have hRound : roundHalfEven (m.units * den) (den * 2 ^ m.exponent) = m.mantissa := by
    have hUnits : m.units * den = m.mantissa * (den * 2 ^ m.exponent) := by
      rw [units, Nat.mul_assoc, Nat.mul_comm den]
    rw [hUnits]
    exact roundHalfEven_mul_right _ (Nat.mul_pos hden (Nat.two_pow_pos _))
  simp only [ofRatio?, hShift, hRound]
  rw [dif_neg (Nat.ne_of_lt m.mantissa_lt), dif_pos m.exponent_le]

/-- What is less than half a unit is zero. -/
theorem ofRatio?_of_lt_half (h : 2 * num < den) : ofRatio? num den = some zero := by
  have hShift : shiftFor (num / den) = 0 := by
    rw [Nat.div_eq_of_lt (by omega)]
    decide
  have hRound : roundHalfEven num (den * 2 ^ 0) = 0 := by
    rw [Nat.pow_zero, Nat.mul_one]
    exact roundHalfEven_of_lt_half h
  simp only [ofRatio?, hShift, hRound]
  rw [dif_neg (by decide), dif_pos (by decide)]
  rfl

/-- A quotient is beyond all magnitudes if its mantissa is shifted too far, or as far as possible
and rounding carries. -/
theorem ofRatio?_eq_none_iff_shiftFor {top : Nat} (hTop : top = 2045) :
    ofRatio? num den = none ↔ top < shiftFor (num / den) ∨
      (shiftFor (num / den) = top ∧
        roundHalfEven num (den * 2 ^ shiftFor (num / den)) = 2 ^ (53 : Nat)) := by
  simp only [ofRatio?]
  split
  next hCarry =>
    simp only [hCarry, and_true]
    split
    next hBound => exact iff_of_false nofun (by omega)
    next hBound => exact iff_of_true rfl (by omega)
  next hCarry =>
    simp only [hCarry, and_false, or_false]
    split
    next hBound => exact iff_of_false nofun (by omega)
    next hBound => exact iff_of_true rfl (by omega)

/-- **A quotient is beyond all magnitudes from half a step above the largest one on.** -/
theorem ofRatio?_eq_none_iff (hden : 0 < den) {half : Nat} (hHalf : half = 2044) :
    ofRatio? num den = none ↔ 2 ^ (half + 54) * den ≤ num + 2 ^ half * den := by
  have hDouble (k : Nat) : 2 ^ (k + 1) * den = 2 * (2 ^ k * den) := by
    rw [Nat.pow_succ', Nat.mul_assoc]
  have hTop : 2 ^ (half + 54) * den = 2 * (2 ^ (half + 53) * den) := hDouble (half + 53)
  rw [ofRatio?_eq_none_iff_shiftFor (show half + 1 = 2045 by omega), shiftFor]
  rcases Nat.lt_trichotomy ((num / den).log2 - 52) (half + 1) with hSmall | hEqual | hLarge
  · have hBits : num / den < 2 ^ (half + 53) :=
      Nat.lt_of_lt_of_le Nat.lt_log2_self (Nat.pow_le_pow_right (by decide) (by omega))
    have hNum := (Nat.div_lt_iff_lt_mul hden).mp hBits
    have hStep : 2 ^ half * den ≤ 2 ^ (half + 53) * den :=
      Nat.mul_le_mul_right den (Nat.pow_le_pow_right (by decide) (Nat.le_add_right _ _))
    exact iff_of_false (by omega) (by omega)
  · have hBits : num / den < 2 ^ (half + 54) :=
      Nat.lt_of_lt_of_le Nat.lt_log2_self (Nat.pow_le_pow_right (by decide) (by omega))
    have hNum := (Nat.div_lt_iff_lt_mul hden).mp hBits
    -- There a step of the mantissa is two halves, and what matters is whether rounding carries.
    have hCarry : 2 ^ (53 : Nat) * (den * 2 ^ (half + 1)) = 2 ^ (half + 54) * den := by
      rw [Nat.mul_left_comm, ← Nat.pow_add, Nat.mul_comm, show 53 + (half + 1) = half + 54 by omega]
    have hStep : den * 2 ^ (half + 1) = 2 * (2 ^ half * den) := by
      rw [Nat.mul_comm, hDouble]
    rw [hEqual, roundHalfEven_eq_iff (by decide) (by rwa [hCarry]), hCarry, hStep]
    omega
  · have hPos : num / den ≠ 0 := by
      intro hZero
      rw [hZero, show (0 : Nat).log2 = 0 by decide] at hLarge
      omega
    have hBits : 2 ^ (half + 54) ≤ num / den := (Nat.le_log2 hPos).mp (by omega)
    have hNum := (Nat.le_div_iff_mul_le hden).mp hBits
    exact iff_of_true (.inl hLarge) (Nat.le_trans hNum (Nat.le_add_right _ _))

/-- What has too many bits is beyond all magnitudes. -/
theorem ofRatio?_eq_none {bits : Nat} (hBits : 2098 ≤ bits) (h : 2 ^ bits ≤ num) :
    ofRatio? num 1 = none := by
  obtain ⟨half, hHalf⟩ : ∃ half, half = 2044 := ⟨_, rfl⟩
  have hPower : 2 ^ (half + 54) ≤ 2 ^ bits := Nat.pow_le_pow_right (by decide) (by omega)
  rw [ofRatio?_eq_none_iff Nat.one_pos hHalf, Nat.mul_one, Nat.mul_one]
  exact Nat.le_add_right_of_le (Nat.le_trans hPower h)

/-! ### Decimal numerals -/

variable {digits : Nat} {exponent : Int}

theorem unitsPerOne_pos : 0 < unitsPerOne := Nat.pos_of_ne_zero unitsPerOne_ne_zero

theorem pow_mul_unitsPerOne (k : Nat) : 2 ^ k * unitsPerOne = 2 ^ (k + 1074) := by
  rw [unitsPerOne, Nat.pow_add]

theorem ten_pow_pos (k : Nat) : 0 < 10 ^ k := Nat.pow_pos (by decide)

theorem two_pow_le_ten_pow (k : Nat) : 2 ^ (3 * k) ≤ 10 ^ k := by
  rw [Nat.pow_mul]
  exact Nat.pow_le_pow_left (by decide) k

/-- A numeral far beyond the range is beyond all magnitudes. -/
theorem ofRatio?_of_large (hDigits : digits ≠ 0) (h : 400 < exponent) :
    ofRatio? (digits * 10 ^ exponent.toNat * unitsPerOne) (10 ^ (-exponent).toNat) = none := by
  rw [show (-exponent).toNat = 0 by omega, Nat.pow_zero]
  refine ofRatio?_eq_none (show 2098 ≤ 3 * exponent.toNat + 1074 by omega) ?_
  calc 2 ^ (3 * exponent.toNat + 1074)
      = 2 ^ (3 * exponent.toNat) * unitsPerOne := (pow_mul_unitsPerOne _).symm
    _ ≤ 10 ^ exponent.toNat * unitsPerOne := Nat.mul_le_mul_right _ (two_pow_le_ten_pow _)
    _ ≤ digits * 10 ^ exponent.toNat * unitsPerOne :=
      Nat.mul_le_mul_right _ (Nat.le_mul_of_pos_left _ (Nat.pos_of_ne_zero hDigits))

/-- A numeral far below the least magnitude is zero. -/
theorem ofRatio?_of_small (h : digits.log2 + exponent < -1500) :
    ofRatio? (digits * 10 ^ exponent.toNat * unitsPerOne) (10 ^ (-exponent).toNat) =
      some zero := by
  refine ofRatio?_of_lt_half ?_
  rw [show exponent.toNat = 0 by omega, Nat.pow_zero, Nat.mul_one]
  have hDigits : 2 * digits < 2 ^ (digits.log2 + 2) := by
    have hLog : digits < 2 ^ (digits.log2 + 1) := Nat.lt_log2_self
    rw [Nat.pow_succ]
    omega
  calc 2 * (digits * unitsPerOne) = 2 * digits * unitsPerOne := (Nat.mul_assoc ..).symm
    _ < 2 ^ (digits.log2 + 2) * unitsPerOne := Nat.mul_lt_mul_of_pos_right hDigits unitsPerOne_pos
    _ = 2 ^ (digits.log2 + 2 + 1074) := pow_mul_unitsPerOne _
    _ ≤ 2 ^ (3 * (-exponent).toNat) := Nat.pow_le_pow_right (by decide) (by omega)
    _ ≤ 10 ^ (-exponent).toNat := two_pow_le_ten_pow _

/-- A numeral is read as the magnitude nearest to its value, however large or small it is. -/
theorem ofDecimal?_eq_ofRatio? (digits : Nat) (exponent : Int) :
    ofDecimal? digits exponent =
      ofRatio? (digits * 10 ^ exponent.toNat * unitsPerOne) (10 ^ (-exponent).toNat) := by
  rw [ofDecimal?]
  split
  next hZero =>
    rw [hZero, Nat.zero_mul, Nat.zero_mul]
    exact (ofRatio?_of_lt_half (ten_pow_pos _)).symm
  next hDigits =>
    split
    next hLarge => exact (ofRatio?_of_large hDigits hLarge).symm
    next =>
      split
      next hSmall => exact (ofRatio?_of_small hSmall).symm
      next =>
        split
        next hNonneg => rw [show (-exponent).toNat = 0 by omega, Nat.pow_zero]
        next hNeg => rw [show exponent.toNat = 0 by omega, Nat.pow_zero, Nat.mul_one]

/-- Zeros that are moved from the digits into the exponent do not change the value. -/
theorem mul_pow_cross (digits k : Nat) (exponent : Int) (unit : Nat) :
    digits * 10 ^ k * 10 ^ (exponent - k).toNat * unit * 10 ^ (-exponent).toNat =
      digits * 10 ^ exponent.toNat * unit * 10 ^ (-(exponent - k)).toNat := by
  have hPower : 10 ^ k * 10 ^ (exponent - k).toNat * 10 ^ (-exponent).toNat =
      10 ^ exponent.toNat * 10 ^ (-(exponent - k)).toNat := by
    rw [← Nat.pow_add, ← Nat.pow_add, ← Nat.pow_add]
    congr 1
    omega
  calc digits * 10 ^ k * 10 ^ (exponent - k).toNat * unit * 10 ^ (-exponent).toNat
      = digits * unit * (10 ^ k * 10 ^ (exponent - k).toNat * 10 ^ (-exponent).toNat) := by
        ac_rfl
    _ = digits * unit * (10 ^ exponent.toNat * 10 ^ (-(exponent - k)).toNat) := by
        rw [hPower]
    _ = digits * 10 ^ exponent.toNat * unit * 10 ^ (-(exponent - k)).toNat := by
        ac_rfl

/-- **Zeros at the end of the digits may be moved into the exponent.** -/
theorem ofDecimal?_mul_pow (digits k : Nat) (exponent : Int) :
    ofDecimal? (digits * 10 ^ k) (exponent - k) = ofDecimal? digits exponent := by
  rw [ofDecimal?_eq_ofRatio?, ofDecimal?_eq_ofRatio?]
  exact ofRatio?_eq_of_cross (ten_pow_pos _) (ten_pow_pos _) (mul_pow_cross digits k exponent _)

/-- A numeral whose value is a magnitude is read as this magnitude. -/
theorem ofDecimal?_of_cross {m : Magnitude}
    (h : digits * 10 ^ exponent.toNat * unitsPerOne = m.units * 10 ^ (-exponent).toNat) :
    ofDecimal? digits exponent = some m := by
  rw [ofDecimal?_eq_ofRatio?, h, ofRatio?_units m (ten_pow_pos _)]

/-! ### The shortest numeral -/

/-- What is found on a grid is read as the magnitude. -/
theorem ofDecimal?_of_onGrid? {m : Magnitude} (h : m.onGrid? exponent = some digits) :
    ofDecimal? digits exponent = some m := by
  rw [onGrid?] at h
  split at h
  next hBelow hAbove =>
    cases h
    split
    · exact beq_iff_eq.mp hAbove
    · exact beq_iff_eq.mp hBelow
  next hBelow _ =>
    cases h
    exact beq_iff_eq.mp hBelow
  next _ hAbove =>
    cases h
    exact beq_iff_eq.mp hAbove
  next => cases h

theorem five_pow_mul_two_pow (k : Nat) : 5 ^ k * 2 ^ k = 10 ^ k := (Nat.mul_pow 5 2 k).symm

/-- All digits of a magnitude are read as the magnitude. -/
theorem ofDecimal?_allDigits (m : Magnitude) :
    ofDecimal? (m.units * 5 ^ (1074 : Nat)) (-1074) = some m := by
  refine ofDecimal?_of_cross ?_
  have hPower : 5 ^ (1074 : Nat) * unitsPerOne = 10 ^ (1074 : Nat) := by
    rw [unitsPerOne, five_pow_mul_two_pow 1074]
  rw [show (-1074 : Int).toNat = 0 from rfl, show (- -1074 : Int).toNat = 1074 from rfl,
    Nat.pow_zero, Nat.mul_one, Nat.mul_assoc, hPower]

/-- **The shortest numeral of a magnitude is read as the magnitude.** -/
theorem ofDecimal?_shortest (m : Magnitude) :
    ofDecimal? m.shortest.1 m.shortest.2 = some m := by
  rw [shortest]
  dsimp only
  cases hFound : (List.range 17).findSome? fun n =>
      (m.onGrid? (m.decimalScale - (n + 1 : Nat))).map fun digits =>
        (digits, m.decimalScale - (n + 1 : Nat)) with
  | none => exact ofDecimal?_allDigits m
  | some found =>
    obtain ⟨n, -, hGrid⟩ := List.exists_of_findSome?_eq_some hFound
    obtain ⟨digits, hDigits, rfl⟩ := Option.map_eq_some_iff.mp hGrid
    exact ofDecimal?_of_onGrid? hDigits

end Magnitude

end SqlTemplate
