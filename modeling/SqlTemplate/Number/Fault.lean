import SqlTemplate.Text.Digit

/-!
# What can fail in reading, writing and computing numbers

Integers are read and written in decimal only up to a limit of digits. Conversions between the
kinds of numbers can be out of range, and decimal arithmetic signals results that have no
value. `Fault.message` gives each cause its wording.
-/

namespace SqlTemplate

-- Powers are read the same way, whatever else is imported.
attribute [local instance(2000)] instPowNat

/-- What decimal arithmetic signals. -/
inductive Signal where
  /-- An operation without a defined result, or one on a signaling NaN. -/
  | invalidOperation
  /-- A result that exceeds the largest exponent. -/
  | overflow
  deriving DecidableEq, Repr

/-- How the signals are named. -/
def Signal.name : Signal → String
  | invalidOperation => "decimal.InvalidOperation"
  | overflow => "decimal.Overflow"

/-- Why a number could not be read, written or computed. -/
inductive Fault where
  /-- An integer has too many digits to be written. -/
  | digitLimit
  /-- A numeral has too many digits to be read. -/
  | numeralTooLong (digits : Nat)
  /-- An integer lies outside the range of a float. -/
  | intTooLarge
  /-- The quotient of two integers lies outside the range of a float. -/
  | quotientTooLarge
  /-- An infinite float has no integer value. -/
  | floatInfinity
  /-- A float that is no number has no integer value. -/
  | floatNaN
  /-- An infinite decimal has no integer value. -/
  | decimalInfinity
  /-- A decimal that is no number has no integer value. -/
  | decimalNaN
  /-- Decimal arithmetic has signaled. -/
  | signal (signal : Signal)
  /-- An operation is not defined between the two kinds of operands. -/
  | operandKinds (op left right : String)
  deriving DecidableEq, Repr

namespace Fault

/-- How many digits an integer may have to be read or written. -/
def maxDigits : Nat := 4300

/-- What can be done about too many digits. -/
def advice : String := "; use sys.set_int_max_str_digits() to increase the limit"

/-- The wording of a fault. -/
def message : Fault → String
  | digitLimit =>
    s!"Exceeds the limit ({maxDigits} digits) for integer string conversion" ++ advice
  | numeralTooLong digits =>
    s!"Exceeds the limit ({maxDigits} digits) for integer string conversion" ++
      s!": value has {digits} digits" ++ advice
  | intTooLarge => "int too large to convert to float"
  | quotientTooLarge => "integer division result too large for a float"
  | floatInfinity => "cannot convert float infinity to integer"
  | floatNaN => "cannot convert float NaN to integer"
  | decimalInfinity => "cannot convert Infinity to integer"
  | decimalNaN => "cannot convert NaN to integer"
  | signal s =>
    let name := s.name
    s!"[<class '{name}'>]"
  | operandKinds op left right =>
    s!"unsupported operand type(s) for {op}: '{left}' and '{right}'"

end Fault

namespace Text

/-- Reads a row of digits as a number, if there are not too many. -/
def readNat (digits : Text) : Except Fault Nat :=
  if Fault.maxDigits < digits.length then .error (.numeralTooLong digits.length)
  else .ok (natOfDigits digits)

/-- Writes an integer, if it does not have too many digits. -/
def writeInt (n : Int) : Except Fault Text :=
  if 10 ^ Fault.maxDigits ≤ n.natAbs then .error .digitLimit else .ok (ofInt n)

end Text

end SqlTemplate
