import SqlTemplate.Number.Numeral
import SqlTemplate.Number.Shortest

/-!
# Numbers

A number is an integer, a float or a decimal. Numbers of different kinds are compared by their
exact values, as extended rationals (`Number.extended?`). In arithmetic an integer joins either
of the other kinds, while floats and decimals do not mix.
-/

namespace SqlTemplate

-- Powers are read the same way, whatever else is imported.
attribute [local instance(2000)] instPowNat

/-- A number. -/
inductive Number where
  /-- An integer of any size. -/
  | int (n : Int)
  /-- A binary float. -/
  | float (x : Binary64)
  /-- A decimal. -/
  | decimal (d : Decimal)
  deriving DecidableEq, Repr

/-- A rational number or what lies below or above all of them. -/
inductive Extended where
  | below
  | rational (q : Rat)
  | above
  deriving DecidableEq

namespace Extended

/-- The order of the extended rationals. -/
def compare : Extended → Extended → Ordering
  | below, below => .eq
  | below, _ => .lt
  | rational _, below => .gt
  | rational p, rational q => if p < q then .lt else if p = q then .eq else .gt
  | rational _, above => .lt
  | above, above => .eq
  | above, _ => .gt

end Extended

/-- The exact value of a float, in ones. -/
def Binary64.extended? : Binary64 → Option Extended
  | finite negative m => some (.rational (mkRat (signedUnits negative m) Magnitude.unitsPerOne))
  | infinite negative => some (if negative then .below else .above)
  | nan _ => none

/-- The exact value of a decimal. -/
def Decimal.extended? : Decimal → Option Extended
  | finite negative coefficient exponent =>
    let signed : Int := if negative then -coefficient else coefficient
    some (.rational
      (if 0 ≤ exponent then ((signed * 10 ^ exponent.toNat : Int) : Rat)
       else mkRat signed (10 ^ (-exponent).toNat)))
  | infinite negative => some (if negative then .below else .above)
  | nan .. => none

namespace Number

/-- The exact value of a number; a NaN has none. -/
def extended? : Number → Option Extended
  | int n => some (.rational n)
  | float x => x.extended?
  | decimal d => d.extended?

/-- Whether a number is zero. -/
def isZero : Number → Bool
  | int n => n == 0
  | float x => x.isZero
  | decimal d => d.isZero

/-- Whether a number is a decimal. -/
def isDecimal : Number → Bool
  | decimal _ => true
  | _ => false

/-- Whether a number is a NaN that stops every operation. -/
def isSignaling : Number → Bool
  | decimal d => d.isSignaling
  | _ => false

/-- Whether two numbers are equal. A NaN equals nothing, and a signaling one stops the
comparison. -/
def equals (a b : Number) : Except Signal Bool :=
  if a.isSignaling || b.isSignaling then .error .invalidOperation
  else
    match a.extended?, b.extended? with
    | some x, some y => .ok (x.compare y == .eq)
    | _, _ => .ok false

/-- The order of two numbers: none if a float is a NaN, and where a decimal takes part, a NaN
stops the comparison. -/
def order (a b : Number) : Except Signal (Option Ordering) :=
  match a.extended?, b.extended? with
  | some x, some y => .ok (some (x.compare y))
  | _, _ => if a.isDecimal || b.isDecimal then .error .invalidOperation else .ok none

/-- The integer part, toward zero. -/
def toInt : Number → Except Fault Int
  | int n => .ok n
  | float x => x.toInt
  | decimal d => d.toInt

/-- A decimal result, or the fault of its signal. -/
def ofDecimalResult : Except Signal Decimal → Except Fault Number
  | .ok d => .ok (decimal d)
  | .error s => .error (.signal s)

/-- The opposite. -/
def neg : Number → Except Fault Number
  | int n => .ok (int (-n))
  | float x => .ok (float x.neg)
  | decimal d => ofDecimalResult d.neg

/-- An operation of arithmetic: its sign and what it does in each kind of number. -/
structure Operation where
  /-- The sign of the operation. -/
  sign : String
  /-- What it does to integers. -/
  onInts : Int → Int → Except Fault Number
  /-- What it does to floats. -/
  onFloats : Binary64 → Binary64 → Binary64
  /-- What it does to decimals. -/
  onDecimals : Decimal → Decimal → Except Signal Decimal

namespace Operation

/-- Addition. -/
def add : Operation := ⟨"+", fun a b => .ok (int (a + b)), Binary64.add, Decimal.add⟩

/-- Subtraction. -/
def sub : Operation := ⟨"-", fun a b => .ok (int (a - b)), Binary64.sub, Decimal.sub⟩

/-- Multiplication. -/
def mul : Operation := ⟨"*", fun a b => .ok (int (a * b)), Binary64.mul, Decimal.mul⟩

/-- Division by what is not zero: an integer if that is exact, else the nearest float. -/
def div : Operation where
  sign := "/"
  onInts a b := if a % b = 0 then .ok (int (a / b)) else (Binary64.ofQuotient a b).map float
  onFloats := Binary64.div
  onDecimals := Decimal.div

/-- The result of an operation on two numbers, in the kind that both can take. -/
def apply (op : Operation) : Number → Number → Except Fault Number
  | int a, int b => op.onInts a b
  | int a, float y => do return float (op.onFloats (← Binary64.ofInt a) y)
  | float x, int b => do return float (op.onFloats x (← Binary64.ofInt b))
  | float x, float y => .ok (float (op.onFloats x y))
  | int a, decimal e => ofDecimalResult (op.onDecimals (.ofInt a) e)
  | decimal d, int b => ofDecimalResult (op.onDecimals d (.ofInt b))
  | decimal d, decimal e => ofDecimalResult (op.onDecimals d e)
  | float _, decimal _ => .error (.operandKinds op.sign "float" "decimal.Decimal")
  | decimal _, float _ => .error (.operandKinds op.sign "decimal.Decimal" "float")

end Operation

/-- A number in text, if it does not have too many digits. -/
def text : Number → Except Fault Text
  | int n => Text.writeInt n
  | float x => .ok x.text
  | decimal d => .ok d.text

/-- The number that a text stands for: blanks around it are passed over, and an integer of too
many digits is no number. -/
def ofText? (text : Text) : Option Number := do
  let numeral ← Numeral.ofText? text.strip
  if numeral.isInteger then numeral.toInt.toOption.map int else some (float numeral.toBinary64)

/-- A numeral is read as an integer or as a float that is near to it. -/
theorem cases_of_ofText? {s : Text} {n : Number} (h : ofText? s = some n) :
    (∃ i, n = int i) ∨ ∃ numeral : Numeral, n = float numeral.toBinary64 := by
  simp only [ofText?, Option.bind_eq_bind, Option.bind_eq_some_iff] at h
  obtain ⟨numeral, -, h⟩ := h
  split at h
  · obtain ⟨i, -, rfl⟩ := Option.map_eq_some_iff.mp h
    exact .inl ⟨i, rfl⟩
  · cases h
    exact .inr ⟨numeral, rfl⟩

end Number

end SqlTemplate
