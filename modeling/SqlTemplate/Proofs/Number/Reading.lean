import SqlTemplate.Number.Basic
import SqlTemplate.Proofs.Number.Grammar
import SqlTemplate.Proofs.Number.Nearest

/-!
# Reading written numerals

A numeral that is written in digits of ASCII, at least one of them before the point, **is read as it
was written** (`Numeral.IsWritable.ofText?_written`). As a number it is an integer if it consists of
digits alone (`Number.ofText?_digits`), and otherwise the float nearest to what the digits stand for
(`Number.ofText?_of_writes`), wherever the point is among them (`Numeral.writes_behindPoint`,
`Numeral.writes_aroundPoint`, `Numeral.writes_beforeExponent`).
-/

namespace SqlTemplate

-- Powers are read the same way, whatever else is imported.
attribute [local instance(2000)] instPowNat

namespace Numeral

/-- The sign of a numeral. -/
def signText (negative : Bool) : Text := if negative then ['-'] else []

/-- How an exponent is written: not at all, or with a sign and in digits of ASCII. -/
inductive IsExponent : Text → Option Int → Prop where
  | absent : IsExponent [] none
  | marked {marker : Char} {n : Int} {digits : Text} (hMarker : marker = 'e' ∨ marker = 'E')
      (hne : digits ≠ []) (hDigits : ∀ c ∈ digits, c.isDigit = true)
      (hValue : Text.natOfDigits digits = n.natAbs) :
      IsExponent (marker :: (if n < 0 then '-' else '+') :: digits) (some n)

variable {digits tail text : Text} {exponent? : Option Int}

theorem spellsSign_signText (negative : Bool) : SpellsSign (signText negative) negative := by
  cases negative with
  | true => exact .minus
  | false => exact .none

theorem isDigit_of_ascii (h : ∀ c ∈ digits, c.isDigit = true) :
    ∀ c ∈ digits, Text.isDigit c = true :=
  fun c hc => Text.isDigit_of_ascii (h c hc)

/-- A written exponent is one. -/
theorem IsExponent.spells (h : IsExponent tail exponent?) : SpellsExponent tail exponent? := by
  cases h with
  | absent => exact .absent
  | @marked marker n digits hMarker hne hDigits hValue =>
    by_cases hn : n < 0
    · have hSpells := SpellsExponent.marked hMarker .minus hne (isDigit_of_ascii hDigits)
      rw [if_pos rfl, hValue, show -(n.natAbs : Int) = n by omega] at hSpells
      rwa [if_pos hn]
    · have hSpells := SpellsExponent.marked hMarker .plus hne (isDigit_of_ascii hDigits)
      rw [if_neg Bool.false_ne_true, hValue, show (n.natAbs : Int) = n by omega] at hSpells
      rwa [if_neg hn]

/-- Whether a numeral can be written in digits of ASCII, at least one of them before the point, and
with a text as its exponent. -/
structure IsWritable (n : Numeral) (tail : Text) : Prop where
  ne_nil : n.whole ≠ []
  whole : ∀ c ∈ n.whole, c.isDigit = true
  fraction : ∀ c ∈ n.fraction?.getD [], c.isDigit = true
  exponent : IsExponent tail n.exponent?

/-- The text of a numeral. -/
def written (n : Numeral) (tail : Text) : Text :=
  signText n.negative ++ (n.whole ++ (pointText n.fraction? ++ tail))

namespace IsWritable

variable {n : Numeral}

theorem spells (h : n.IsWritable tail) : Spells (n.written tail) n :=
  ⟨signText n.negative, tail, rfl, spellsSign_signText n.negative, h.exponent.spells,
    List.append_ne_nil_of_left_ne_nil h.ne_nil _,
    List.forall_mem_append.mpr ⟨isDigit_of_ascii h.whole, isDigit_of_ascii h.fraction⟩⟩

/-- **A numeral is read as it was written.** -/
theorem ofText?_written (h : n.IsWritable tail) : ofText? (n.written tail) = some n :=
  ofText?_eq_some_iff.mpr h.spells

end IsWritable

/-- Whether a numeral is written as one of SQL: if it has a point, digits stand behind it, too. -/
structure IsLiteral (n : Numeral) (tail : Text) : Prop extends n.IsWritable tail where
  fraction_ne_nil : n.fraction? ≠ some []

/-- Whether a text is a numeral with a point or an exponent for a sign, digits and the power of ten
of the last digit, perhaps with zeros behind the digits. -/
def Writes (text : Text) (negative : Bool) (digits : Nat) (scale : Int) : Prop :=
  ∃ (n : Numeral) (tail : Text) (zeros : Nat), text = n.written tail ∧ n.IsLiteral tail ∧
    n.isInteger = false ∧ n.negative = negative ∧ n.digits = digits * 10 ^ zeros ∧
    n.scale = scale - zeros

/-- Zeros behind the digits do not change the float. -/
theorem toBinary64_of_zeros {n : Numeral} {digits zeros : Nat} {scale : Int}
    (hDigits : n.digits = digits * 10 ^ zeros) (hScale : n.scale = scale - zeros) :
    n.toBinary64 = .ofDecimal n.negative digits scale := by
  rw [toBinary64, Binary64.ofDecimal, hDigits, hScale, Magnitude.ofDecimal?_mul_pow,
    Binary64.ofDecimal]

/-! ### Where the point can be -/

/-- Digits behind the point, with zeros in front of them. -/
theorem writes_behindPoint (negative : Bool) (zeros : Nat) (hne : digits ≠ [])
    (hDigits : ∀ c ∈ digits, c.isDigit = true) (hTail : IsExponent tail exponent?) :
    Writes (signText negative ++ ('0' :: '.' :: List.replicate zeros '0' ++ digits ++ tail))
      negative (Text.natOfDigits digits) (exponent?.getD 0 - (zeros + digits.length : Nat)) := by
  have hFraction : ∀ c ∈ List.replicate zeros '0' ++ digits, c.isDigit = true := by
    intro c hc
    exact (List.mem_append.mp hc).elim Text.isDigit_of_mem_zeros (hDigits c)
  have hWhole : ∀ c ∈ ['0'], c.isDigit = true :=
    fun c hc => Text.isDigit_of_mem_zeros (show c ∈ List.replicate 1 '0' from hc)
  have hValue : Text.natOfDigits ('0' :: (List.replicate zeros '0' ++ digits)) =
      Text.natOfDigits digits := by
    rw [← Text.natOfDigits_zeros_append zeros digits]
    exact Text.natOfDigits_zeros_append 1 _
  refine ⟨⟨negative, ['0'], some (List.replicate zeros '0' ++ digits), exponent?⟩, tail, 0, ?_,
    ⟨⟨List.cons_ne_nil _ _, hWhole, hFraction, hTail⟩, ?_⟩, rfl, rfl, ?_, ?_⟩
  · simp [written, pointText]
  · simp [hne]
  · simpa [Numeral.digits] using hValue
  · simp [scale]

/-- Digits around the point. -/
theorem writes_aroundPoint (negative : Bool) {i : Nat} (hi : 0 < i) (hLess : i < digits.length)
    (hDigits : ∀ c ∈ digits, c.isDigit = true) (hTail : IsExponent tail exponent?) :
    Writes (signText negative ++ (digits.take i ++ '.' :: digits.drop i ++ tail))
      negative (Text.natOfDigits digits) (exponent?.getD 0 - (digits.length - i : Nat)) := by
  have hne : digits.take i ≠ [] := by
    rw [← List.length_pos_iff, List.length_take]
    omega
  have hFraction : digits.drop i ≠ [] := by
    rw [← List.length_pos_iff, List.length_drop]
    omega
  refine ⟨⟨negative, digits.take i, some (digits.drop i), exponent?⟩, tail, 0, ?_,
    ⟨⟨hne, fun c hc => hDigits c (List.mem_of_mem_take hc),
      fun c hc => hDigits c (List.mem_of_mem_drop hc), hTail⟩, ?_⟩, rfl, rfl, ?_, ?_⟩
  · simp [written, pointText]
  · simpa using hFraction
  · simp [Numeral.digits]
  · simp [scale]

/-- Digits without a point in front of an exponent. -/
theorem writes_beforeExponent (negative : Bool) {n : Int} (hne : digits ≠ [])
    (hDigits : ∀ c ∈ digits, c.isDigit = true) (hTail : IsExponent tail (some n)) :
    Writes (signText negative ++ (digits ++ tail)) negative (Text.natOfDigits digits) n := by
  refine ⟨⟨negative, digits, none, some n⟩, tail, 0, rfl,
    ⟨⟨hne, hDigits, List.forall_mem_nil _, hTail⟩, nofun⟩, rfl, rfl, ?_, ?_⟩
  · simp [Numeral.digits]
  · simp [scale]

end Numeral

namespace Number

open Numeral

variable {digits tail text : Text}

/-! ### Numbers -/

/-- A written numeral is read as an integer or as the float nearest to it. -/
theorem ofText?_written {n : Numeral} (h : n.IsWritable tail) :
    ofText? (n.written tail) =
      if n.isInteger then n.toInt.toOption.map int else some (float n.toBinary64) := by
  rw [ofText?, Text.strip_eq_self fun c hc => h.spells.isBlank_of_mem hc, h.ofText?_written]
  rfl

/-- With a point or an exponent a numeral is read as the float nearest to it. -/
theorem ofText?_of_writes {negative : Bool} {digits : Nat} {scale : Int}
    (h : Writes text negative digits scale) :
    ofText? text = some (float (.ofDecimal negative digits scale)) := by
  obtain ⟨n, tail, zeros, rfl, hLiteral, hInteger, rfl, hDigits, hScale⟩ := h
  rw [ofText?_written hLiteral.toIsWritable, if_neg (ne_true_of_eq_false hInteger),
    toBinary64_of_zeros hDigits hScale]

/-- Digits alone are an integer, if there are not too many of them. -/
theorem ofText?_digits (negative : Bool) (hne : digits ≠ [])
    (hDigits : ∀ c ∈ digits, c.isDigit = true) :
    ofText? (signText negative ++ digits) =
      (Text.readNat digits).toOption.map fun n : Nat =>
        int (if negative then -(n : Int) else n) := by
  have hRead := @ofText?_written [] ⟨negative, digits, none, none⟩
    ⟨hne, hDigits, List.forall_mem_nil _, .absent⟩
  rw [written, pointText, List.append_nil, List.append_nil] at hRead
  rw [hRead, if_pos (show isInteger ⟨negative, digits, none, none⟩ from rfl), Numeral.toInt]
  cases Text.readNat digits <;> rfl

end Number

end SqlTemplate
