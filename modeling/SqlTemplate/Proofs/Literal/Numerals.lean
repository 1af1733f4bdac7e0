import SqlTemplate.Proofs.Literal.Items
import SqlTemplate.Proofs.Number.OwnText

/-!
# Numbers as numerals

The text of a number that is no NaN and not infinite is a numeral of SQL which stands for just this
number (`Number.exists_isNumeralOf`): an integer and a decimal have its exact value, and a float is
the float nearest to it. The literal that suits the number is this text, **unless the number is a
decimal**: that is quoted, and what is quoted is a text and no numeral (`isNumeralOf_literal_iff`).
-/

namespace SqlTemplate

-- Powers are read the same way, whatever else is imported.
attribute [local instance(2000)] instPowNat

/-- Whether a numeral stands for a number: for a float, if that is the nearest one, and for any
other number, if it has its exact value. -/
def Numeral.Denotes (numeral : Numeral) : Number → Prop
  | .float x => numeral.toBinary64 = x
  | n => numeral.toDecimal.extended? = n.extended?

/-- Whether a text is a numeral of SQL that stands for a number. -/
def Text.IsNumeralOf (text : Text) (n : Number) : Prop :=
  ∃ (numeral : Numeral) (tail : Text),
    text = numeral.written tail ∧ numeral.IsLiteral tail ∧ numeral.Denotes n

namespace Numeral

/-- The digits of a natural number with a sign. -/
def ofDigits (negative : Bool) (n : Nat) : Numeral := ⟨negative, Text.ofNat n, none, none⟩

theorem isLiteral_ofDigits (negative : Bool) (n : Nat) : (ofDigits negative n).IsLiteral [] :=
  ⟨⟨Text.ofNat_ne_nil n, fun _ hc => Text.isDigit_of_mem_ofNat hc, List.forall_mem_nil _, .absent⟩,
    nofun⟩

theorem written_ofDigits (negative : Bool) (n : Nat) :
    (ofDigits negative n).written [] = signText negative ++ Text.ofNat n := by
  rw [written, ofDigits, pointText, List.append_nil, List.append_nil]

theorem toDecimal_ofDigits (negative : Bool) (n : Nat) :
    (ofDigits negative n).toDecimal = .finite negative n 0 := by
  simp [toDecimal, ofDigits, Numeral.digits, scale, Text.natOfDigits_ofNat]

end Numeral

namespace Number

open Numeral

theorem isNumeralOf_int (k : Int) : (Text.ofInt k).IsNumeralOf (int k) := by
  refine ⟨ofDigits (decide (k < 0)) k.natAbs, [], ?_, isLiteral_ofDigits _ _, ?_⟩
  · rw [written_ofDigits]
    by_cases hk : k < 0 <;> simp [Text.ofInt, signText, hk]
  · have hSigned : (if decide (k < 0) = true then -(k.natAbs : Int) else k.natAbs) = k := by
      by_cases hk : k < 0
      · rw [if_pos (decide_eq_true hk)]
        omega
      · rw [if_neg (by rwa [decide_eq_true_eq])]
        omega
    change (ofDigits (decide (k < 0)) k.natAbs).toDecimal.extended? = some (.rational k)
    rw [toDecimal_ofDigits, Decimal.extended?_finite, hSigned, Int.neg_zero, Int.toNat_zero,
      Nat.pow_zero, Int.pow_zero, Int.mul_one, Rat.mkRat_one]

theorem isNumeralOf_float (negative : Bool) (m : Magnitude) :
    (Binary64.finite negative m).text.IsNumeralOf (float (.finite negative m)) := by
  obtain ⟨digits, scale, hWrites, hFloat⟩ := exists_writes_float negative m
  obtain ⟨n, tail, zeros, hText, hLiteral, -, rfl, hDigits, hScale⟩ := hWrites
  exact ⟨n, tail, hText, hLiteral, (toBinary64_of_zeros hDigits hScale).trans hFloat⟩

theorem isNumeralOf_decimal (negative : Bool) (coefficient : Nat) (exponent : Int) :
    (Decimal.finite negative coefficient exponent).text.IsNumeralOf
      (decimal (.finite negative coefficient exponent)) := by
  by_cases hZero : exponent = 0
  · subst hZero
    refine ⟨ofDigits negative coefficient, [], ?_, isLiteral_ofDigits _ _, ?_⟩
    · rw [written_ofDigits]
      exact congrArg (signText negative ++ ·) (Decimal.numeral_zero coefficient)
    · exact congrArg Decimal.extended? (toDecimal_ofDigits negative coefficient)
  · obtain ⟨n, tail, zeros, hText, hLiteral, -, rfl, hDigits, hScale⟩ :=
      writes_decimal negative coefficient hZero
    refine ⟨n, tail, hText, hLiteral, ?_⟩
    change n.toDecimal.extended? = (Decimal.finite n.negative coefficient exponent).extended?
    rw [toDecimal, hDigits, hScale, Decimal.extended?_of_zeros]

/-- **A number that is no NaN and not infinite is written in a numeral that stands for it.** -/
theorem exists_isNumeralOf {n : Number} {q : Rat} (hFinite : n.extended? = some (.rational q))
    (hDigits : ∀ k, n = .int k → k.natAbs < 10 ^ Fault.maxDigits) :
    ∃ text, n.text = .ok text ∧ text.IsNumeralOf n := by
  cases n with
  | int k =>
    refine ⟨Text.ofInt k, ?_, isNumeralOf_int k⟩
    rw [text, Text.writeInt, if_neg (Nat.not_le.mpr (hDigits k rfl))]
  | float x =>
    cases x with
    | nan => cases hFinite
    | infinite negative => cases negative <;> cases hFinite
    | finite negative m => exact ⟨_, rfl, isNumeralOf_float negative m⟩
  | decimal d =>
    cases d with
    | nan => cases hFinite
    | infinite negative => cases negative <;> cases hFinite
    | finite negative coefficient exponent =>
      exact ⟨_, rfl, isNumeralOf_decimal negative coefficient exponent⟩

end Number

namespace Literal

open Numeral

/-- What stands in quotes is no numeral. -/
theorem not_isNumeralOf_quote (s : Text) (n : Number) : ¬(quote s).IsNumeralOf n := by
  rintro ⟨⟨negative, whole, fraction?, exponent?⟩, tail, hText, ⟨⟨hne, hWhole, -, -⟩, -⟩, -⟩
  cases negative with
  | true => cases (List.cons.inj hText).1
  | false =>
    cases whole with
    | nil => exact hne rfl
    | cons c whole =>
      have hQuote : '\'' = c := (List.cons.inj hText).1
      exact absurd (hWhole '\'' (hQuote ▸ List.mem_cons_self)) (by decide)

/-- The literal that suits a number is its text, for a decimal in quotes. -/
theorem textOf_number {n : Number} {text : Text} (h : n.text = .ok text) :
    textOf (.number n) = .ok (if n.isDecimal then quote text else text) := by
  cases n with
  | int k =>
    change (Text.writeInt k).map Value.text >>= Value.plain = _
    rw [show Text.writeInt k = .ok text from h]
    rfl
  | float | decimal =>
    cases h
    rfl

/-- **The literal that suits a number is a numeral that stands for it if and only if the number is
no decimal**: the numeral of a decimal is quoted. -/
theorem isNumeralOf_literal_iff (n : Number) (q : Rat) (hFinite : n.extended? = some (.rational q))
    (hDigits : ∀ k, n = .int k → k.natAbs < 10 ^ Fault.maxDigits) :
    ∃ text literal, n.text = .ok text ∧ text.IsNumeralOf n ∧
      textOf (.number n) = .ok literal ∧ literal = (if n.isDecimal then quote text else text) ∧
      (literal.IsNumeralOf n ↔ n.isDecimal = false) := by
  obtain ⟨text, hText, hNumeral⟩ := Number.exists_isNumeralOf hFinite hDigits
  refine ⟨text, _, hText, hNumeral, textOf_number hText, rfl, ?_⟩
  cases hDecimal : n.isDecimal with
  | true =>
    rw [if_pos rfl]
    exact iff_of_false (not_isNumeralOf_quote text n) nofun
  | false =>
    rw [if_neg Bool.false_ne_true]
    exact iff_of_true hNumeral rfl

/-- One and a half as a float. -/
def oneAndHalf : Binary64 :=
  .finite false ⟨3 * 2 ^ (51 : Nat), 1022, by decide, .inr (by decide), by decide⟩

/-- One and a half is a numeral as a float, and a quoted text as a decimal. -/
theorem isNumeralOf_literal_oneAndHalf :
    textOf (.number (.float oneAndHalf)) = .ok "1.5".toList ∧
      Text.IsNumeralOf "1.5".toList (.float oneAndHalf) ∧
      textOf (.number (.decimal (.finite false 15 (-1)))) = .ok "'1.5'".toList ∧
      ¬Text.IsNumeralOf "'1.5'".toList (.decimal (.finite false 15 (-1))) := by
  obtain ⟨text, literal, hText, -, hLiteral, hFloat, hIff⟩ :=
    isNumeralOf_literal_iff (.float oneAndHalf) (3 / 2) (by decide +kernel) nofun
  obtain ⟨text', literal', hText', -, hLiteral', hDecimal, hIff'⟩ :=
    isNumeralOf_literal_iff (.decimal (.finite false 15 (-1))) (3 / 2) (by decide +kernel) nofun
  have hRead : oneAndHalf.text = "1.5".toList := by decide +kernel
  have hRead' : (Decimal.finite false 15 (-1)).text = "1.5".toList := by decide +kernel
  obtain rfl : literal = "1.5".toList := hFloat.trans ((Except.ok.inj hText).symm.trans hRead)
  obtain rfl : literal' = "'1.5'".toList :=
    hDecimal.trans (congrArg quote ((Except.ok.inj hText').symm.trans hRead'))
  exact ⟨hLiteral, hIff.mpr rfl, hLiteral', fun h => Bool.false_ne_true (hIff'.mp h).symm⟩

/-- The literal of a number is not always a numeral. -/
theorem not_isNumeralOf_literal_always :
    ¬∀ (n : Number) (q : Rat), n.extended? = some (.rational q) →
      (∀ k, n = .int k → k.natAbs < 10 ^ Fault.maxDigits) →
      ∃ literal, textOf (.number n) = .ok literal ∧ literal.IsNumeralOf n := by
  intro h
  obtain ⟨literal, hLiteral, hNumeral⟩ :=
    h (.decimal (.finite false 15 (-1))) (3 / 2) (by decide +kernel) nofun
  cases hLiteral
  exact not_isNumeralOf_quote _ _ hNumeral

end Literal

end SqlTemplate
