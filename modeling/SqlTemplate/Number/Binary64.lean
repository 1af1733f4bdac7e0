import SqlTemplate.Number.Fault
import SqlTemplate.Number.Rounding

/-!
# Floats: binary numbers of 64 bits

A finite float is a sign and a magnitude, a whole number of *units* of 2⁻¹⁰⁷⁴, the least
positive float. Only the magnitudes of 53 significant bits exist (`Magnitude`), so the result of
an operation is computed exactly and then rounded to the nearest of them, ties to the even one
(`Magnitude.ofRatio?`). What lies beyond the largest magnitude is infinite; `nan` is the result
of an operation without a value.
-/

namespace SqlTemplate

-- Powers are read the same way, whatever else is imported.
attribute [local instance(2000)] instPowNat

/-- The absolute value of a finite float: `mantissa · 2 ^ exponent` units. The bounds give each
value one form. -/
structure Magnitude where
  /-- The significant bits. -/
  mantissa : Nat
  /-- How far they are shifted; 0 for the floats that have fewer than 53 of them. -/
  exponent : Nat
  mantissa_lt : mantissa < 2 ^ (53 : Nat)
  normal : exponent = 0 ∨ 2 ^ (52 : Nat) ≤ mantissa
  exponent_le : exponent ≤ 2045
  deriving DecidableEq, Repr

namespace Magnitude

/-- How many units make one. -/
def unitsPerOne : Nat := 2 ^ (1074 : Nat)

/-- The magnitude as a number of units. -/
def units (m : Magnitude) : Nat := m.mantissa * 2 ^ m.exponent

/-- The magnitude of zero. -/
def zero : Magnitude := ⟨0, 0, by decide, by decide, by decide⟩

/-- How far to shift so that 53 significant bits of a number of units remain. -/
def shiftFor (units : Nat) : Nat := units.log2 - 52

theorem div_two_pow_shiftFor_lt (units : Nat) : units / 2 ^ shiftFor units < 2 ^ (53 : Nat) := by
  rw [Nat.div_lt_iff_lt_mul (Nat.two_pow_pos _), ← Nat.pow_add]
  exact Nat.lt_of_lt_of_le Nat.lt_log2_self
    (Nat.pow_le_pow_right (by decide) (by simp only [shiftFor]; omega))

theorem le_div_two_pow_shiftFor {units : Nat} (h : shiftFor units ≠ 0) :
    2 ^ (52 : Nat) ≤ units / 2 ^ shiftFor units := by
  have h0 : units ≠ 0 := by
    rintro rfl
    simp [shiftFor] at h
  rw [Nat.le_div_iff_mul_le (Nat.two_pow_pos _), ← Nat.pow_add]
  refine Nat.le_trans (Nat.pow_le_pow_right (by decide) ?_) (Nat.log2_self_le h0)
  simp only [shiftFor] at h ⊢
  omega

/-- The magnitude nearest to `num / den` units, of two equally near ones the even one; nothing
beyond the largest magnitude. -/
def ofRatio? (num den : Nat) : Option Magnitude :=
  let shift := shiftFor (num / den)
  let mantissa := roundHalfEven num (den * 2 ^ shift)
  have quotient : num / (den * 2 ^ shift) = num / den / 2 ^ shift :=
    (Nat.div_div_eq_div_mul ..).symm
  if carry : mantissa = 2 ^ (53 : Nat) then
    if bound : shift + 1 ≤ 2045 then
      some ⟨2 ^ (52 : Nat), shift + 1, by decide, .inr (Nat.le_refl _), bound⟩
    else none
  else if bound : shift ≤ 2045 then
    some {
      mantissa := mantissa
      exponent := shift
      mantissa_lt := by
        have h : mantissa ≤ num / den / 2 ^ shift + 1 := quotient ▸ roundHalfEven_le ..
        have h' : num / den / 2 ^ shift < 2 ^ (53 : Nat) := div_two_pow_shiftFor_lt _
        omega
      normal := by
        by_cases zero : shift = 0
        · exact .inl zero
        · have h : num / den / 2 ^ shift ≤ mantissa := quotient ▸ div_le_roundHalfEven ..
          exact .inr (Nat.le_trans (le_div_two_pow_shiftFor zero) h)
      exponent_le := bound }
  else none

/-- The magnitude nearest to `digits · 10 ^ exponent`; nothing beyond the largest one. A number
out of all range is not computed. -/
def ofDecimal? (digits : Nat) (exponent : Int) : Option Magnitude :=
  if digits = 0 then some zero
  else if 400 < exponent then none
  else if digits.log2 + exponent < -1500 then some zero
  else if 0 ≤ exponent then ofRatio? (digits * 10 ^ exponent.toNat * unitsPerOne) 1
  else ofRatio? (digits * unitsPerOne) (10 ^ (-exponent).toNat)

end Magnitude

/-- A float. -/
inductive Binary64 where
  /-- A number; zero too has a sign. -/
  | finite (negative : Bool) (magnitude : Magnitude)
  /-- Beyond all numbers. -/
  | infinite (negative : Bool)
  /-- No number. The label tells one such value from another, as a collection does when it is
  compared with itself; no operation depends on it. -/
  | nan (label : Nat)
  deriving DecidableEq, Repr

namespace Binary64

/-- The float of a sign and a rounded magnitude. -/
def ofMagnitude? (negative : Bool) : Option Magnitude → Binary64
  | some m => finite negative m
  | none => infinite negative

/-- The float of a sign and a rounded magnitude; beyond all magnitudes there is none. -/
def inRange (fault : Fault) (negative : Bool) : Option Magnitude → Except Fault Binary64
  | some m => .ok (finite negative m)
  | none => .error fault

/-- Positive zero. -/
def zero : Binary64 := finite false .zero

/-- Whether a float is zero, of either sign. -/
def isZero : Binary64 → Bool
  | finite _ m => m.mantissa == 0
  | _ => false

/-- The float nearest to a decimal numeral. -/
def ofDecimal (negative : Bool) (digits : Nat) (exponent : Int) : Binary64 :=
  ofMagnitude? negative (Magnitude.ofDecimal? digits exponent)

/-- The float nearest to an integer, if it is in range. -/
def ofInt (n : Int) : Except Fault Binary64 :=
  inRange .intTooLarge (n < 0) (Magnitude.ofRatio? (n.natAbs * Magnitude.unitsPerOne) 1)

/-- The float nearest to the quotient of two integers, if it is in range. -/
def ofQuotient (a b : Int) : Except Fault Binary64 :=
  inRange .quotientTooLarge (decide (a < 0) != decide (b < 0))
    (Magnitude.ofRatio? (a.natAbs * Magnitude.unitsPerOne) b.natAbs)

/-- A finite float as a signed number of units. -/
def signedUnits (negative : Bool) (m : Magnitude) : Int :=
  if negative then -m.units else m.units

/-- The integer part, toward zero. -/
def toInt : Binary64 → Except Fault Int
  | finite negative m =>
    let whole : Nat := m.units / Magnitude.unitsPerOne
    .ok (if negative then -whole else whole)
  | infinite _ => .error .floatInfinity
  | nan _ => .error .floatNaN

/-- The other sign. -/
def neg : Binary64 → Binary64
  | finite negative m => finite (!negative) m
  | infinite negative => infinite (!negative)
  | nan label => nan label

/-- The sum. An exact zero is negative only as the sum of two negative zeros. -/
def add : Binary64 → Binary64 → Binary64
  | finite s a, finite t b =>
    let sum := signedUnits s a + signedUnits t b
    if sum = 0 then finite (s && t) .zero
    else ofMagnitude? (sum < 0) (Magnitude.ofRatio? sum.natAbs 1)
  | infinite s, infinite t => if s = t then infinite s else nan 0
  | infinite s, finite _ _ => infinite s
  | finite _ _, infinite t => infinite t
  | nan _, _ => nan 0
  | _, nan _ => nan 0

/-- The difference. -/
def sub (a b : Binary64) : Binary64 := add a (neg b)

/-- The product. -/
def mul : Binary64 → Binary64 → Binary64
  | finite s a, finite t b =>
    ofMagnitude? (s != t) (Magnitude.ofRatio? (a.units * b.units) Magnitude.unitsPerOne)
  | infinite s, infinite t => infinite (s != t)
  | infinite s, finite t b => if b.mantissa = 0 then nan 0 else infinite (s != t)
  | finite s a, infinite t => if a.mantissa = 0 then nan 0 else infinite (s != t)
  | nan _, _ => nan 0
  | _, nan _ => nan 0

/-- The quotient by a divisor that is not zero. -/
def div : Binary64 → Binary64 → Binary64
  | finite s a, finite t b =>
    ofMagnitude? (s != t) (Magnitude.ofRatio? (a.units * Magnitude.unitsPerOne) b.units)
  | infinite _, infinite _ => nan 0
  | infinite s, finite t _ => infinite (s != t)
  | finite s _, infinite t => finite (s != t) .zero
  | nan _, _ => nan 0
  | _, nan _ => nan 0

end Binary64

end SqlTemplate
