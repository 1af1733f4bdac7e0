import SqlTemplate.Proofs.Number.OwnText
import SqlTemplate.Proofs.Results

/-!
# Numbers of one kind as numbers of another

A number has an integer part if it is no NaN and not infinite, and **it is converted to just this
integer** (`Number.toInt_eq_ok_iff`). An integer is converted to the float that is nearest to it,
**unless it lies beyond the largest float by half a step or more** (`Binary64.ofInt_eq_ok_iff`,
`Binary64.ofInt_eq_error_iff`).
-/

namespace SqlTemplate

-- Powers are read the same way, whatever else is imported.
attribute [local instance(2000)] instPowNat

/-! ### Integer parts -/

/-- The integer part of a rational number, toward zero. -/
def integerPart (q : Rat) : Int := q.num.tdiv q.den

/-- The integer part of a fraction, reduced or not. -/
theorem integerPart_mkRat (num : Int) {den : Nat} (hden : den ≠ 0) :
    integerPart (mkRat num den) = num.tdiv den := by
  rcases hReduced : mkRat num den with ⟨num', den', hden', hCoprime⟩
  obtain ⟨k, hk, rfl, rfl⟩ := Rat.mkRat_num_den hden hReduced
  have hPos : (0 : Int) < k := Int.natCast_pos.mpr (Nat.pos_of_ne_zero hk)
  rw [Int.natCast_mul]
  exact (Int.mul_tdiv_mul_of_pos_left num' den' hPos).symm

theorem Binary64.toInt_finite {negative : Bool} {m : Magnitude} {q : Rat}
    (h : (finite negative m).extended? = some (.rational q)) :
    (finite negative m).toInt = .ok (integerPart q) := by
  rw [extended?, Option.some.injEq, Extended.rational.injEq] at h
  rw [← h, integerPart_mkRat _ Magnitude.unitsPerOne_ne_zero, toInt, signedUnits]
  cases negative with
  | false => rw [if_neg Bool.false_ne_true, if_neg Bool.false_ne_true, Int.ofNat_tdiv]
  | true => rw [if_pos rfl, if_pos rfl, Int.neg_tdiv, Int.ofNat_tdiv]

theorem Decimal.toInt_finite {negative : Bool} {coefficient : Nat} {exponent : Int} {q : Rat}
    (h : (finite negative coefficient exponent).extended? = some (.rational q)) :
    (finite negative coefficient exponent).toInt = .ok (integerPart q) := by
  have hWhole : (if 0 ≤ exponent then coefficient * 10 ^ exponent.toNat
      else coefficient / 10 ^ (-exponent).toNat) =
        coefficient * 10 ^ exponent.toNat / 10 ^ (-exponent).toNat := by
    split
    next hNonneg => rw [show (-exponent).toNat = 0 by omega, Nat.pow_zero, Nat.div_one]
    next hNeg => rw [show exponent.toNat = 0 by omega, Nat.pow_zero, Nat.mul_one]
  rw [extended?_finite, Option.some.injEq, Extended.rational.injEq] at h
  rw [← h, integerPart_mkRat _ (Nat.ne_of_gt (Magnitude.ten_pow_pos _)), toInt, hWhole]
  cases negative with
  | false =>
    rw [if_neg Bool.false_ne_true, if_neg Bool.false_ne_true, Int.ofNat_tdiv, Int.natCast_mul,
      Int.natCast_pow]
    rfl
  | true =>
    rw [if_pos rfl, if_pos rfl, Int.neg_mul, Int.neg_tdiv, Int.ofNat_tdiv, Int.natCast_mul,
      Int.natCast_pow]
    rfl

namespace Number

variable {n : Number}

/-- A number that is no NaN and not infinite is converted to its integer part. -/
theorem toInt_of_rational {q : Rat} (h : n.extended? = some (.rational q)) :
    n.toInt = .ok (integerPart q) := by
  cases n with
  | int k =>
    cases h
    rw [toInt, integerPart, Rat.num_intCast, Rat.den_intCast]
    exact congrArg Except.ok (Int.tdiv_one k).symm
  | float x =>
    cases x with
    | nan => cases h
    | infinite negative => cases negative <;> cases h
    | finite negative m => exact Binary64.toInt_finite h
  | decimal d =>
    cases d with
    | nan => cases h
    | infinite negative => cases negative <;> cases h
    | finite negative coefficient exponent => exact Decimal.toInt_finite h

/-- Whether a number lies beyond all rational ones. -/
def IsInfinite (n : Number) : Prop := n.extended? = some .below ∨ n.extended? = some .above

/-- What has no integer part is infinite or a NaN, and the fault says which. -/
theorem toInt_of_not_rational (h : ∀ q, n.extended? ≠ some (.rational q)) :
    (n.IsInfinite ∧ (n.toInt = .error .floatInfinity ∨ n.toInt = .error .decimalInfinity)) ∨
      (¬n.IsInfinite ∧ (n.toInt = .error .floatNaN ∨ n.toInt = .error .decimalNaN)) := by
  cases n with
  | int k => exact absurd rfl (h k)
  | float x =>
    cases x with
    | nan => exact .inr ⟨not_or.mpr ⟨nofun, nofun⟩, .inl rfl⟩
    | infinite negative =>
      cases negative with
      | false => exact .inl ⟨.inr rfl, .inl rfl⟩
      | true => exact .inl ⟨.inl rfl, .inl rfl⟩
    | finite negative m => exact absurd rfl (h _)
  | decimal d =>
    cases d with
    | nan => exact .inr ⟨not_or.mpr ⟨nofun, nofun⟩, .inr rfl⟩
    | infinite negative =>
      cases negative with
      | false => exact .inl ⟨.inr rfl, .inr rfl⟩
      | true => exact .inl ⟨.inl rfl, .inr rfl⟩
    | finite negative coefficient exponent => exact absurd rfl (h _)

/-- **A number is converted to the integer that is its integer part.** -/
theorem toInt_eq_ok_iff {k : Int} :
    n.toInt = .ok k ↔ ∃ q, n.extended? = some (.rational q) ∧ k = integerPart q := by
  constructor
  · intro h
    by_cases hRational : ∃ q, n.extended? = some (.rational q)
    · obtain ⟨q, hq⟩ := hRational
      rw [toInt_of_rational hq] at h
      exact ⟨q, hq, (Except.ok.inj h).symm⟩
    · rcases toInt_of_not_rational (not_exists.mp hRational) with
        ⟨-, hError | hError⟩ | ⟨-, hError | hError⟩ <;>
        cases h.symm.trans hError
  · rintro ⟨q, hq, rfl⟩
    exact toInt_of_rational hq

end Number

/-! ### Floats near to integers -/

/-- An integer is beyond all magnitudes from half a step above the largest one on. -/
theorem Magnitude.ofRatio?_ones_eq_none_iff (n : Nat) {half : Nat} (hHalf : half = 970) :
    ofRatio? (n * unitsPerOne) 1 = none ↔ 2 ^ (half + 54) ≤ n + 2 ^ half := by
  rw [ofRatio?_eq_none_iff Nat.one_pos (show half + 1074 = 2044 by omega), Nat.mul_one,
    Nat.mul_one, Nat.add_right_comm, ← pow_mul_unitsPerOne, ← pow_mul_unitsPerOne, ← Nat.add_mul,
    Nat.mul_le_mul_right_iff unitsPerOne_pos]

/-- Whether an integer lies beyond the largest float by half a step or more. -/
def ExceedsFloats (n : Int) : Prop := 2 ^ (1024 : Nat) - 2 ^ (970 : Nat) ≤ n.natAbs

/-- An integer beyond the largest float is near to no magnitude. -/
theorem ofRatio?_eq_none_iff_exceedsFloats {n : Int} :
    Magnitude.ofRatio? (n.natAbs * Magnitude.unitsPerOne) 1 = none ↔ ExceedsFloats n := by
  obtain ⟨half, hHalf⟩ : ∃ half, half = 970 := ⟨_, rfl⟩
  rw [ExceedsFloats, ← hHalf, show 1024 = half + 54 by omega, Nat.sub_le_iff_le_add,
    Magnitude.ofRatio?_ones_eq_none_iff n.natAbs hHalf]

namespace Binary64

variable {n : Int}

/-- **An integer is out of range of the floats from half a step above the largest one on.** -/
theorem ofInt_eq_error_iff {fault : Fault} :
    ofInt n = .error fault ↔ ExceedsFloats n ∧ fault = .intTooLarge := by
  rw [← ofRatio?_eq_none_iff_exceedsFloats, ofInt]
  cases Magnitude.ofRatio? (n.natAbs * Magnitude.unitsPerOne) 1 with
  | none => exact ⟨fun h => ⟨rfl, (Except.error.inj h).symm⟩, fun h => h.2 ▸ rfl⟩
  | some m => exact iff_of_false (ok_ne_error _ fault) fun h => Option.some_ne_none m h.1

/-- **Any other integer is converted to the float nearest to it.** -/
theorem ofInt_eq_ok_iff {x : Binary64} :
    ofInt n = .ok x ↔ ¬ExceedsFloats n ∧ x = .ofDecimal (n < 0) n.natAbs 0 := by
  have hDecimal : ofDecimal (n < 0) n.natAbs 0 =
      ofMagnitude? (n < 0) (Magnitude.ofRatio? (n.natAbs * Magnitude.unitsPerOne) 1) := by
    rw [ofDecimal, Magnitude.ofDecimal?_eq_ofRatio?, Int.neg_zero, Int.toNat_zero, Nat.pow_zero,
      Nat.mul_one]
  rw [← ofRatio?_eq_none_iff_exceedsFloats, hDecimal, ofInt]
  cases Magnitude.ofRatio? (n.natAbs * Magnitude.unitsPerOne) 1 with
  | none => exact iff_of_false (ok_ne_error x _).symm fun h => h.1 rfl
  | some m =>
    exact ⟨fun h => ⟨Option.some_ne_none m, (Except.ok.inj h).symm⟩, fun h => h.2 ▸ rfl⟩

end Binary64

end SqlTemplate
