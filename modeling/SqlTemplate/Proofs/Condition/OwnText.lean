import SqlTemplate.Proofs.Condition.Comparison
import SqlTemplate.Proofs.Number.OwnText

/-!
# Numbers beside their own text

A text beside a number is read as an integer or as a float, never as a decimal. An integer and a
float therefore equal the text that they are written as, and **a decimal that is not written as an
integer equals its text just if some float has exactly its value** (`looseEquals_ownText_iff`).
-/

namespace SqlTemplate

-- Powers are read the same way, whatever else is imported.
attribute [local instance(2000)] instPowNat

/-! ### Decimals that are floats -/

namespace Binary64

/-- A float has the value of a decimal if both come to the same on a common denominator. -/
theorem extended?_eq_decimal_iff (s t : Bool) (m : Magnitude) (coefficient : Nat)
    (exponent : Int) :
    (finite s m).extended? = (Decimal.finite t coefficient exponent).extended? ↔
      signedUnits s m * (10 ^ (-exponent).toNat : Nat) =
        (if t then -(coefficient : Int) else coefficient) * 10 ^ exponent.toNat *
          Magnitude.unitsPerOne := by
  rw [Decimal.extended?_finite, extended?, Option.some.injEq, Extended.rational.injEq,
    Rat.mkRat_eq_iff Magnitude.unitsPerOne_ne_zero (Nat.ne_of_gt (Magnitude.ten_pow_pos _))]

/-- The float nearest to a decimal has its value if some float has. -/
theorem extended?_ofDecimal {x : Binary64} {negative : Bool} {coefficient : Nat} {exponent : Int}
    (h : x.extended? = (Decimal.finite negative coefficient exponent).extended?) :
    (ofDecimal negative coefficient exponent).extended? =
      (Decimal.finite negative coefficient exponent).extended? := by
  cases x with
  | nan => cases h
  | infinite s => cases s <;> cases h
  | finite s m =>
    -- Apart from the signs the two fractions are the same, and the digits are rounded without them.
    have hCross : coefficient * 10 ^ exponent.toNat * Magnitude.unitsPerOne =
        m.units * 10 ^ (-exponent).toNat := by
      have hSigned := congrArg Int.natAbs ((extended?_eq_decimal_iff ..).mp h)
      have hUnits : (signedUnits s m).natAbs = m.units := by
        cases s <;> simp [signedUnits]
      have hCoefficient : (if negative then -(coefficient : Int) else coefficient).natAbs =
          coefficient := by
        cases negative <;> simp
      rw [Int.natAbs_mul, Int.natAbs_mul, Int.natAbs_mul, Int.natAbs_pow, hUnits, hCoefficient,
        Int.natAbs_natCast, Int.natAbs_natCast] at hSigned
      exact hSigned.symm
    rw [ofDecimal, Magnitude.ofDecimal?_of_cross hCross, ofMagnitude?, extended?_eq_decimal_iff]
    have hCast := congrArg (Nat.cast (R := Int)) hCross
    rw [Int.natCast_mul, Int.natCast_mul, Int.natCast_mul, Int.natCast_pow] at hCast
    cases negative with
    | false => exact hCast.symm
    | true =>
      simp only [signedUnits, if_true, Int.neg_mul]
      exact congrArg Neg.neg hCast.symm

/-- The float nearest to a decimal is a number or lies beyond all of them. -/
theorem exists_extended?_ofDecimal (negative : Bool) (coefficient : Nat) (exponent : Int) :
    ∃ x, (ofDecimal negative coefficient exponent).extended? = some x := by
  rw [ofDecimal]
  cases Magnitude.ofDecimal? coefficient exponent <;> exact ⟨_, rfl⟩

end Binary64

/-- Whether a number keeps its value when its text is read as a number: if it is a decimal that is
not written as an integer, some float has to have exactly its value. -/
def Number.IsReadExactly : Number → Prop
  | decimal (.finite negative coefficient exponent) =>
    exponent = 0 ∨
      ∃ x : Binary64, x.extended? = (Decimal.finite negative coefficient exponent).extended?
  | _ => True

namespace Condition

variable {m n : Number} {s : Text}

/-- Whether a number equals a text that is a numeral. -/
theorem numberEqualsText_of_ofText? {x y : Extended} (hNumeral : Number.ofText? s = some m)
    (hm : m.extended? = some x) (hn : n.extended? = some y) :
    ∃ b, numberEqualsText n s = .ok b ∧ (b = true ↔ m.extended? = n.extended?) := by
  have hOrder := Number.order_eq_some_iff.mpr ⟨x, y, hm, hn, rfl⟩
  refine ⟨_, numberEqualsText_of_order hNumeral hOrder, ?_⟩
  rw [hm, hn, Option.some.injEq, beq_iff_eq, Extended.compare_eq_eq_iff]

/-- A number equals a text that is a numeral of the same value. -/
theorem numberEqualsText_of_extended? {x : Extended} (hNumeral : Number.ofText? s = some m)
    (hm : m.extended? = some x) (hn : n.extended? = some x) :
    numberEqualsText n s = .ok true := by
  obtain ⟨b, hEquals, hb⟩ := numberEqualsText_of_ofText? hNumeral hm hn
  rw [hEquals, hb.mpr (hm.trans hn.symm)]

/-- A decimal with the exponent zero equals its text: as an integer, or, with too many digits, as a
text. -/
theorem numberEqualsText_decimal_zero (negative : Bool) (coefficient : Nat) :
    numberEqualsText (.decimal (.finite negative coefficient 0))
      (Decimal.finite negative coefficient 0).text = .ok true := by
  have hRead := Number.ofText?_decimal_zero negative coefficient
  cases hDigits : Text.readNat (Text.ofNat coefficient) with
  | error fault =>
    rw [hDigits] at hRead
    rw [numberEqualsText, hRead]
    exact congrArg Except.ok (beq_self_eq_true _)
  | ok k =>
    have hk : k = coefficient := by
      rw [Text.readNat, Text.natOfDigits_ofNat] at hDigits
      split at hDigits
      · cases hDigits
      · cases hDigits
        rfl
    rw [hDigits, hk] at hRead
    refine numberEqualsText_of_extended? hRead rfl ?_
    simp only [Number.extended?, Decimal.extended?_finite]
    rw [Int.neg_zero, Int.toNat_zero, Nat.pow_zero, Int.pow_zero, Int.mul_one, Rat.mkRat_one]

/-- Any other decimal equals its text just if some float has its value. -/
theorem numberEqualsText_decimal (negative : Bool) (coefficient : Nat) {exponent : Int}
    (h : exponent ≠ 0) :
    ∃ b, numberEqualsText (.decimal (.finite negative coefficient exponent))
        (Decimal.finite negative coefficient exponent).text = .ok b ∧
      (b = true ↔ ∃ x : Binary64,
        x.extended? = (Decimal.finite negative coefficient exponent).extended?) := by
  have hRead := Number.ofText?_decimal negative coefficient h
  obtain ⟨x, hx⟩ := Binary64.exists_extended?_ofDecimal negative coefficient exponent
  obtain ⟨b, hEquals, hb⟩ := numberEqualsText_of_ofText?
    (n := .decimal (.finite negative coefficient exponent)) hRead hx rfl
  refine ⟨b, hEquals, hb.trans ⟨fun hSame => ⟨_, hSame⟩, ?_⟩⟩
  rintro ⟨y, hy⟩
  exact Binary64.extended?_ofDecimal hy

/-- A number that is no NaN and not infinite, beside its own text. -/
theorem numberEqualsText_ownText (n : Number) {q : Rat} (hFinite : n.extended? = some (.rational q))
    (hDigits : ∀ i, n = .int i → i.natAbs < 10 ^ Fault.maxDigits) :
    ∃ s b, n.text = .ok s ∧ numberEqualsText n s = .ok b ∧ (b = true ↔ n.IsReadExactly) := by
  cases n with
  | int i =>
    have hSmall := hDigits i rfl
    have hText : Text.writeInt i = .ok (Text.ofInt i) := by
      rw [Text.writeInt, if_neg (Nat.not_le.mpr hSmall)]
    exact ⟨_, true, hText, numberEqualsText_of_extended? (Number.ofText?_int hSmall) rfl rfl,
      iff_of_true rfl trivial⟩
  | float x =>
    cases x with
    | nan => cases hFinite
    | infinite negative => cases negative <;> cases hFinite
    | finite negative m =>
      exact ⟨_, true, rfl, numberEqualsText_of_extended? (Number.ofText?_float negative m) rfl rfl,
        iff_of_true rfl trivial⟩
  | decimal d =>
    cases d with
    | nan => cases hFinite
    | infinite negative => cases negative <;> cases hFinite
    | finite negative coefficient exponent =>
      by_cases hExponent : exponent = 0
      · subst hExponent
        exact ⟨_, true, rfl, numberEqualsText_decimal_zero negative coefficient,
          iff_of_true rfl (.inl rfl)⟩
      · obtain ⟨b, hEquals, hb⟩ := numberEqualsText_decimal negative coefficient hExponent
        exact ⟨_, b, rfl, hEquals, hb.trans (or_iff_right hExponent).symm⟩

/-- **A number equals its own text, and the text the number, unless it is a decimal that is not
written as an integer and no float has its value.** -/
theorem looseEquals_ownText_iff (n : Number) (q : Rat) (hFinite : n.extended? = some (.rational q))
    (hDigits : ∀ i, n = .int i → i.natAbs < 10 ^ Fault.maxDigits) :
    ∃ s b, n.text = .ok s ∧ looseEquals (.number n) (.text s) = .ok b ∧
      looseEquals (.text s) (.number n) = .ok b ∧ (b = true ↔ n.IsReadExactly) := by
  obtain ⟨s, b, hText, hEquals, hb⟩ := numberEqualsText_ownText n hFinite hDigits
  refine ⟨s, b, hText, ?_, ?_, hb⟩
  · rwa [looseEquals_numberText n rfl]
  · rwa [looseEquals_textNumber rfl n]

/-- A quarter is a float. -/
theorem looseEquals_ownText_quarter :
    ∃ s, (Number.decimal (.finite false 25 (-2))).text = .ok s ∧
      looseEquals (.number (.decimal (.finite false 25 (-2)))) (.text s) = .ok true ∧
      looseEquals (.text s) (.number (.decimal (.finite false 25 (-2)))) = .ok true := by
  obtain ⟨s, b, hText, hLeft, hRight, hb⟩ :=
    looseEquals_ownText_iff (.decimal (.finite false 25 (-2))) (1 / 4) (by decide +kernel)
      (fun _ h => nomatch h)
  have hExact : b = true := hb.mpr (.inr ⟨.ofDecimal false 25 (-2), by decide +kernel⟩)
  exact ⟨s, hText, hExact ▸ hLeft, hExact ▸ hRight⟩

/-- A tenth is none: it differs from its own text. -/
theorem not_looseEquals_ownText_always :
    ¬∀ (n : Number) (q : Rat), n.extended? = some (.rational q) →
      (∀ i, n = .int i → i.natAbs < 10 ^ Fault.maxDigits) →
        ∃ s, n.text = .ok s ∧ looseEquals (.number n) (.text s) = .ok true ∧
          looseEquals (.text s) (.number n) = .ok true := by
  intro h
  obtain ⟨s, hText, hLeft, -⟩ :=
    h (.decimal (.finite false 1 (-1))) (1 / 10) (by decide +kernel) (fun _ h => nomatch h)
  cases hText
  have hDiffers : (looseEquals (.number (.decimal (.finite false 1 (-1))))
      (.text (Decimal.finite false 1 (-1)).text)).toOption = some false := by
    decide +kernel
  rw [hLeft] at hDiffers
  cases hDiffers

end Condition

end SqlTemplate
