import SqlTemplate.Number.Binary64
import SqlTemplate.Number.DigitCount

/-!
# Decimals

A decimal is a sign, a coefficient and a power of ten, so that `1.50` and `1.5` are equal but
not the same; besides there are two infinities and the NaNs, of which the signaling ones stop
every operation. A decimal of any size can be written down, but the result of an operation is
rounded to 28 digits, ties to even (`Decimal.rounded`), and signals an overflow beyond the
largest exponent.

`Decimal.text` writes a decimal so that its coefficient and exponent can be read off again:
positionally if the exponent is not positive and at most five zeros follow the point,
otherwise with an exponent.
-/

namespace SqlTemplate

-- Powers are read the same way, whatever else is imported.
attribute [local instance(2000)] instPowNat

/-- A decimal. -/
inductive Decimal where
  /-- `coefficient · 10 ^ exponent` with a sign; zero too has one, and an exponent. -/
  | finite (negative : Bool) (coefficient : Nat) (exponent : Int)
  /-- Beyond all numbers. -/
  | infinite (negative : Bool)
  /-- No number; `payload` is written behind it if it is not zero. The label tells one such
  value from another, as a collection does when it is compared with itself; no operation
  depends on it. -/
  | nan (negative signaling : Bool) (payload label : Nat)
  deriving DecidableEq, Repr

namespace Decimal

/-- How many digits the result of an operation keeps. -/
def precision : Nat := 28

/-- The largest exponent of the first digit of a result. -/
def maxExponent : Int := 999999

/-- The least exponent of a result, that of the last of its digits. -/
def tinyExponent : Int := -1000026

/-- The decimal of an integer. -/
def ofInt (n : Int) : Decimal := finite (n < 0) n.natAbs 0

/-- Whether a decimal is zero, of either sign. -/
def isZero : Decimal → Bool
  | finite _ coefficient _ => coefficient == 0
  | _ => false

/-- Whether a decimal is a NaN that stops every operation. -/
def isSignaling : Decimal → Bool
  | nan _ signaling _ _ => signaling
  | _ => false

/-- Whether a decimal is a NaN of either kind. -/
def isNaN : Decimal → Bool
  | nan .. => true
  | _ => false

/-- A result rounded to the precision, ties to even, within the range of exponents. -/
def rounded (negative : Bool) (coefficient : Nat) (exponent : Int) : Except Signal Decimal :=
  if coefficient = 0 then .ok (finite negative 0 (min (max exponent tinyExponent) maxExponent))
  else
    let top := maxExponent - precision + 1
    let least := digitCount coefficient + exponent - precision
    if top < least then .error .overflow
    else
      let least := max least tinyExponent
      if least ≤ exponent then .ok (finite negative coefficient exponent)
      else
        let kept := roundHalfEven coefficient (10 ^ (least - exponent).toNat)
        if digitCount kept ≤ precision then .ok (finite negative kept least)
        else if top < least + 1 then .error .overflow
        else .ok (finite negative (kept / 10) (least + 1))

/-- The integer part, toward zero. -/
def toInt : Decimal → Except Fault Int
  | finite negative coefficient exponent =>
    let whole : Nat :=
      if 0 ≤ exponent then coefficient * 10 ^ exponent.toNat
      else coefficient / 10 ^ (-exponent).toNat
    .ok (if negative then -whole else whole)
  | infinite _ => .error .decimalInfinity
  | nan .. => .error .decimalNaN

/-- The nearest float; a signaling NaN has none. -/
def toBinary64? : Decimal → Option Binary64
  | finite negative coefficient exponent => some (.ofDecimal negative coefficient exponent)
  | infinite negative => some (.infinite negative)
  | nan _ signaling _ label => if signaling then none else some (.nan label)

/-- The other sign of a value that is not rounded. -/
def flipped : Decimal → Decimal
  | finite negative coefficient exponent => finite (!negative) coefficient exponent
  | infinite negative => infinite (!negative)
  | nan negative signaling payload label => nan negative signaling payload label

/-- A NaN as the result of an operation: its payload is cut to the precision. -/
def asResult : Decimal → Decimal
  | nan negative signaling payload label =>
    nan negative signaling (payload % 10 ^ precision) label
  | d => d

/-- The NaN among two operands, the first before the second; a signaling one stops the
operation. -/
def nanOf? (a b : Decimal) : Except Signal (Option Decimal) :=
  if a.isSignaling || b.isSignaling then .error .invalidOperation
  else if a.isNaN then .ok (some a.asResult)
  else if b.isNaN then .ok (some b.asResult)
  else .ok none

/-- The opposite; zero loses its sign. -/
def neg : Decimal → Except Signal Decimal
  | finite negative coefficient exponent =>
    rounded (!negative && coefficient != 0) coefficient exponent
  | infinite negative => .ok (infinite (!negative))
  | d@(nan _ signaling _ _) => if signaling then .error .invalidOperation else .ok d.asResult

/-- A coefficient with its sign, as a multiple of `10 ^ least`. -/
def aligned (negative : Bool) (coefficient : Nat) (exponent least : Int) : Int :=
  let n : Int := coefficient * 10 ^ (exponent - least).toNat
  if negative then -n else n

/-- The sum of two operands of which none is a NaN. -/
def addNumbers : Decimal → Decimal → Except Signal Decimal
  | finite s a i, finite t b j =>
    let least := min i j
    let sum := aligned s a i least + aligned t b j least
    let negative := if sum = 0 then s && t else decide (sum < 0)
    rounded negative sum.natAbs least
  | infinite s, infinite t => if s = t then .ok (infinite s) else .error .invalidOperation
  | infinite s, _ => .ok (infinite s)
  | _, infinite t => .ok (infinite t)
  | a, _ => .ok a

/-- The sum. -/
def add (a b : Decimal) : Except Signal Decimal := do
  match ← nanOf? a b with
  | some d => return d
  | none => addNumbers a b

/-- The difference. -/
def sub (a b : Decimal) : Except Signal Decimal := do
  match ← nanOf? a b with
  | some d => return d
  | none => addNumbers a b.flipped

/-- The product. -/
def mul (a b : Decimal) : Except Signal Decimal := do
  match ← nanOf? a b with
  | some d => return d
  | none =>
    match a, b with
    | finite s a i, finite t b j => rounded (s != t) (a * b) (i + j)
    | infinite s, infinite t => return infinite (s != t)
    | infinite s, finite t b _ =>
      if b = 0 then throw .invalidOperation else return infinite (s != t)
    | finite s a _, infinite t =>
      if a = 0 then throw .invalidOperation else return infinite (s != t)
    | d, _ => return d

/-- Divides out powers of ten while the exponent stays below `ideal`. -/
def towardIdeal (ideal : Int) : Nat → Nat → Int → Nat × Int
  | 0, coefficient, exponent => (coefficient, exponent)
  | steps + 1, coefficient, exponent =>
    if exponent < ideal ∧ coefficient % 10 = 0 then
      towardIdeal ideal steps (coefficient / 10) (exponent + 1)
    else (coefficient, exponent)

/-- A quotient of coefficients, both not zero, with one digit more than the precision. A last
digit that would hide a remainder is raised by one; an exact quotient is brought as near to the
difference of the exponents as it can be. -/
def divCoefficients (a : Nat) (i : Int) (b : Nat) (j : Int) : Nat × Int :=
  let shift : Int := digitCount b - digitCount a + precision + 1
  let (num, den) :=
    if 0 ≤ shift then (a * 10 ^ shift.toNat, b) else (a, b * 10 ^ (-shift).toNat)
  let quotient := num / den
  if num % den = 0 then towardIdeal (i - j) (digitCount quotient) quotient (i - j - shift)
  else (if quotient % 5 = 0 then quotient + 1 else quotient, i - j - shift)

/-- The quotient by a divisor that is not zero. -/
def div (a b : Decimal) : Except Signal Decimal := do
  match ← nanOf? a b with
  | some d => return d
  | none =>
    match a, b with
    | finite s a i, finite t b j =>
      if a = 0 then rounded (s != t) 0 (i - j)
      else
        let (coefficient, exponent) := divCoefficients a i b j
        rounded (s != t) coefficient exponent
    | infinite _, infinite _ => throw .invalidOperation
    | infinite s, finite t _ _ => return infinite (s != t)
    | finite s _ _, infinite t => return finite (s != t) 0 tinyExponent
    | d, _ => return d

/-- A coefficient and its exponent as a numeral. -/
def numeral (coefficient : Nat) (exponent : Int) : Text :=
  let digits := Text.ofNat coefficient
  let leading := digits.length + exponent
  let point := if exponent ≤ 0 ∧ -6 < leading then leading else 1
  let mantissa :=
    if point ≤ 0 then '0' :: '.' :: List.replicate (-point).toNat '0' ++ digits
    else if digits.length ≤ point then
      digits ++ List.replicate (point - digits.length).toNat '0'
    else digits.take point.toNat ++ '.' :: digits.drop point.toNat
  let power := leading - point
  mantissa ++
    if power = 0 then []
    else 'E' :: (if power < 0 then '-' else '+') :: Text.ofNat power.natAbs

/-- A decimal as a numeral or as the name of what is no number. -/
def text : Decimal → Text
  | finite negative coefficient exponent =>
    (if negative then ['-'] else []) ++ numeral coefficient exponent
  | infinite negative => (if negative then ['-'] else []) ++ "Infinity".toList
  | nan negative signaling payload _ =>
    (if negative then ['-'] else []) ++ (if signaling then ['s'] else []) ++ "NaN".toList ++
      if payload = 0 then [] else Text.ofNat payload

end Decimal

end SqlTemplate
