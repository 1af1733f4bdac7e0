import SqlTemplate.Number.Basic

/-!
# The order of numbers

Numbers of all kinds are ordered by their exact values, and no two of them that differ have the same
place (`Extended.compare_eq_eq_iff`). **So the order of two numbers is the reverse of their order
the other way round, and it tells whether they are equal** (`Number.swap_order`,
`Number.equals_of_order`), which they are in either order (`Number.equals_comm`). Only a float that
is no number has no place beside the others (`Number.exists_nan_of_order`), and none is read from a
text (`Number.ne_nan_of_ofText?`).
-/

namespace SqlTemplate

-- Powers are read the same way, whatever else is imported.
attribute [local instance(2000)] instPowNat

theorem beq_eq_swap (o : Ordering) : (o.swap == .eq) = (o == .eq) := by
  cases o <;> rfl

namespace Extended

/-- Exchanging two extended rationals turns their order around. -/
theorem swap_compare (x y : Extended) : (x.compare y).swap = y.compare x := by
  cases x with
  | below | above => cases y <;> rfl
  | rational p =>
    cases y with
    | below | above => rfl
    | rational q =>
      rw [compare, compare]
      rcases Std.lt_trichotomy p q with hlt | rfl | hgt
      · have hle : p ≤ q := Rat.le_of_lt hlt
        rw [if_pos hlt, if_neg (Rat.not_lt.mpr hle), if_neg (Rat.ne_of_gt hlt), Ordering.swap_lt]
      · rw [if_neg Rat.lt_irrefl, if_pos rfl, Ordering.swap_eq]
      · have hle : q ≤ p := Rat.le_of_lt hgt
        rw [if_pos hgt, if_neg (Rat.not_lt.mpr hle), if_neg (Rat.ne_of_gt hgt), Ordering.swap_gt]

/-- Only equal extended rationals have the same place. -/
theorem compare_eq_eq_iff {x y : Extended} : x.compare y = .eq ↔ x = y := by
  cases x with
  | below | above => cases y <;> simp [compare]
  | rational p =>
    cases y with
    | below | above => simp [compare]
    | rational q =>
      rw [compare, rational.injEq]
      by_cases hlt : p < q
      · simp [hlt, Rat.ne_of_lt hlt]
      · by_cases heq : p = q <;> simp [hlt, heq]

end Extended

/-! ### Zero -/

theorem Magnitude.unitsPerOne_ne_zero : unitsPerOne ≠ 0 := by
  decide +kernel

theorem Magnitude.units_eq_zero_iff (m : Magnitude) : m.units = 0 ↔ m.mantissa = 0 := by
  have hPower : 2 ^ m.exponent ≠ 0 := Nat.ne_of_gt (Nat.two_pow_pos m.exponent)
  rw [units, Nat.mul_eq_zero, or_iff_left hPower]

/-- The exact value of a float is zero just if the float is. -/
theorem Binary64.extended?_eq_zero_iff (x : Binary64) :
    x.extended? = some (.rational 0) ↔ x.isZero := by
  cases x with
  | finite negative m =>
    have hSigned : signedUnits negative m = 0 ↔ m.units = 0 := by
      cases negative <;> simp [signedUnits]
    simp only [extended?, isZero, Option.some.injEq, Extended.rational.injEq, beq_iff_eq]
    rw [Rat.mkRat_eq_zero Magnitude.unitsPerOne_ne_zero, hSigned, m.units_eq_zero_iff]
  | infinite negative => cases negative <;> simp [extended?, isZero]
  | nan => simp [extended?, isZero]

/-- The exact value of a decimal is zero just if the decimal is. -/
theorem Decimal.extended?_eq_zero_iff (d : Decimal) :
    d.extended? = some (.rational 0) ↔ d.isZero := by
  cases d with
  | finite negative coefficient exponent =>
    have hSigned : (if negative then -(coefficient : Int) else coefficient) = 0 ↔
        coefficient = 0 := by
      cases negative <;> simp
    simp only [extended?, isZero, Option.some.injEq, Extended.rational.injEq, beq_iff_eq]
    rw [← hSigned]
    split
    · have hPower : (10 : Int) ^ exponent.toNat ≠ 0 := Int.ne_of_gt (Int.pow_pos (by decide))
      rw [Rat.intCast_eq_zero_iff, Int.mul_eq_zero, or_iff_left hPower]
    · have hPower : 10 ^ (-exponent).toNat ≠ 0 := Nat.ne_of_gt (Nat.pow_pos (by decide))
      rw [Rat.mkRat_eq_zero hPower]
  | infinite negative => cases negative <;> simp [extended?, isZero]
  | nan => simp [extended?, isZero]

namespace Number

theorem extended?_eq_zero_iff (n : Number) : n.extended? = some (.rational 0) ↔ n.isZero := by
  cases n with
  | int n =>
    simp only [extended?, isZero, Option.some.injEq, Extended.rational.injEq, beq_iff_eq]
    exact Rat.intCast_eq_zero_iff
  | float x => exact x.extended?_eq_zero_iff
  | decimal d => exact d.extended?_eq_zero_iff

/-! ### Order and equality -/

variable {m n : Number} {o : Ordering}

/-- **Exchanging two numbers turns their order around.** -/
theorem swap_order (m n : Number) : (m.order n).map (Option.map Ordering.swap) = n.order m := by
  have hNone (b : Bool) : (if b then .error .invalidOperation else .ok none :
      Except Signal (Option Ordering)).map (Option.map Ordering.swap) =
        if b then .error .invalidOperation else .ok none := by
    cases b <;> rfl
  rw [order, order, Bool.or_comm n.isDecimal]
  cases m.extended? with
  | none => cases n.extended? <;> exact hNone _
  | some x =>
    cases n.extended? with
    | none => exact hNone _
    | some y =>
      dsimp only
      rw [← x.swap_compare y]
      rfl

/-- Two numbers are equal in either order, or a signaling NaN stops the comparison in either. -/
theorem equals_comm (m n : Number) : m.equals n = n.equals m := by
  rw [equals, equals, Bool.or_comm]
  split
  · rfl
  cases m.extended? with
  | none => cases n.extended? <;> rfl
  | some x =>
    cases n.extended? with
    | none => rfl
    | some y =>
      dsimp only
      rw [← x.swap_compare y, beq_eq_swap]

/-- What it means that two numbers have an order: both have an exact value. -/
theorem order_eq_some_iff :
    m.order n = .ok (some o) ↔
      ∃ x y, m.extended? = some x ∧ n.extended? = some y ∧ x.compare y = o := by
  rw [order]
  cases m.extended? with
  | none => simp; split <;> simp
  | some x =>
    cases n.extended? with
    | none => simp; split <;> simp
    | some y => simp

theorem isSignaling_of_extended? {x : Extended} (h : n.extended? = some x) :
    n.isSignaling = false := by
  cases n with
  | int | float => rfl
  | decimal d =>
    cases d with
    | finite | infinite => rfl
    | nan => cases h

/-- **The order of two numbers tells whether they are equal.** -/
theorem equals_of_order (h : m.order n = .ok (some o)) : m.equals n = .ok (o == .eq) := by
  obtain ⟨x, y, hm, hn, rfl⟩ := order_eq_some_iff.mp h
  rw [equals, isSignaling_of_extended? hm, isSignaling_of_extended? hn, hm, hn]
  rfl

theorem equals_int (m n : Int) : (int m).equals (int n) = .ok (decide (m = n)) := by
  rw [equals, if_neg nofun]
  refine congrArg Except.ok ?_
  rw [Bool.eq_iff_iff, beq_iff_eq, Extended.compare_eq_eq_iff, Extended.rational.injEq,
    Rat.intCast_inj, decide_eq_true_iff]

/-- The order beside zero tells whether a number is zero. -/
theorem isZero_of_order (h : (int 0).order n = .ok (some o)) : n.isZero = (o == .eq) := by
  obtain ⟨x, y, hm, hn, rfl⟩ := order_eq_some_iff.mp h
  cases hm
  rw [Bool.eq_iff_iff, beq_iff_eq, Extended.compare_eq_eq_iff, ← extended?_eq_zero_iff, hn,
    Option.some.injEq]
  exact eq_comm

theorem exists_nan_of_extended? (h : n.extended? = none) (hDecimal : n.isDecimal = false) :
    ∃ label, n = float (.nan label) := by
  cases n with
  | int => cases h
  | decimal => cases hDecimal
  | float x =>
    cases x with
    | finite | infinite => cases h
    | nan label => exact ⟨label, rfl⟩

/-- Numbers without an order that nothing stops are not decimals, and one of them is a NaN. -/
theorem exists_nan_of_order (h : m.order n = .ok none) :
    ∃ label, m = float (.nan label) ∨ n = float (.nan label) := by
  rw [order] at h
  split at h
  · cases h
  next hNone =>
    split at h
    · cases h
    next hDecimal =>
      rw [Bool.not_eq_true, Bool.or_eq_false_iff] at hDecimal
      cases hm : m.extended? with
      | none =>
        obtain ⟨label, rfl⟩ := exists_nan_of_extended? hm hDecimal.1
        exact ⟨label, .inl rfl⟩
      | some x =>
        cases hn : n.extended? with
        | none =>
          obtain ⟨label, rfl⟩ := exists_nan_of_extended? hn hDecimal.2
          exact ⟨label, .inr rfl⟩
        | some y => exact absurd hn (hNone x y hm)

/-- No NaN is read from a text. -/
theorem ne_nan_of_ofText? {s : Text} (h : ofText? s = some n) (label : Nat) :
    n ≠ float (.nan label) := by
  rintro rfl
  rcases cases_of_ofText? h with ⟨i, hInt⟩ | ⟨numeral, hFloat⟩
  · cases hInt
  · rw [float.injEq, Numeral.toBinary64, Binary64.ofDecimal] at hFloat
    cases hMagnitude : Magnitude.ofDecimal? numeral.digits numeral.scale <;>
      rw [hMagnitude] at hFloat <;> cases hFloat

end Number

end SqlTemplate
