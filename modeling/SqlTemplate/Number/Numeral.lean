import SqlTemplate.Number.Decimal
import SqlTemplate.Text.Blank

/-!
# Numerals: texts that read as numbers

A numeral is an optional sign, digits with at most one point among them, and an optional
exponent; at least one digit stands beside the point. `Numeral.ofText?` takes a text apart
accordingly. One without a point and without an exponent is an integer, any other is read as
the nearest float, and all of them can be read as exact decimals.

The lenient readings `integerOf` and `floatOf?` pass over margins and allow an underscore
between two digits; the second also knows the names of what is no number.
-/

namespace SqlTemplate

/-- A numeral, taken apart. -/
structure Numeral where
  /-- Whether a minus sign stands in front. -/
  negative : Bool
  /-- The digits before the point. -/
  whole : Text
  /-- The digits after the point, if there is one. -/
  fraction? : Option Text
  /-- The exponent, if there is one. -/
  exponent? : Option Int
  deriving DecidableEq, Repr

namespace Numeral

/-- A sign at the beginning of a text, as whether it is a minus, and the rest of the text. -/
def readSign : Text → Bool × Text
  | '-' :: rest => (true, rest)
  | '+' :: rest => (false, rest)
  | text => (false, text)

/-- The digits at the beginning of a text and the rest of it. -/
def readDigits (text : Text) : Text × Text :=
  (text.takeWhile Text.isDigit, text.dropWhile Text.isDigit)

/-- A point and the digits behind it, if a point stands at the beginning of the text. -/
def readFraction : Text → Option Text × Text
  | '.' :: rest => let (digits, rest) := readDigits rest; (some digits, rest)
  | text => (none, text)

/-- The exponent that makes up a whole text; an empty text is no exponent. -/
def readExponent? : Text → Option (Option Int)
  | [] => some none
  | c :: rest =>
    if c = 'e' ∨ c = 'E' then
      let (negative, digits) := readSign rest
      if digits.isEmpty || !digits.all Text.isDigit then none
      else
        let n : Int := Text.natOfDigits digits
        some (some (if negative then -n else n))
    else none

/-- A text as a numeral, if it is one. -/
def ofText? (text : Text) : Option Numeral :=
  let (negative, text) := readSign text
  let (whole, text) := readDigits text
  let (fraction?, text) := readFraction text
  if whole.isEmpty && (fraction?.getD []).isEmpty then none
  else (readExponent? text).map fun exponent? => { negative, whole, fraction?, exponent? }

/-- Whether a numeral has neither a point nor an exponent. -/
def isInteger (n : Numeral) : Bool := n.fraction?.isNone && n.exponent?.isNone

/-- All digits, as one number. -/
def digits (n : Numeral) : Nat := Text.natOfDigits (n.whole ++ n.fraction?.getD [])

/-- The power of ten of the last digit. -/
def scale (n : Numeral) : Int := n.exponent?.getD 0 - (n.fraction?.getD []).length

/-- The integer before the point, if it does not have too many digits. -/
def toInt (n : Numeral) : Except Fault Int := do
  let magnitude : Nat ← Text.readNat n.whole
  return if n.negative then -magnitude else magnitude

/-- The nearest float. -/
def toBinary64 (n : Numeral) : Binary64 := .ofDecimal n.negative n.digits n.scale

/-- The exact decimal. -/
def toDecimal (n : Numeral) : Decimal := .finite n.negative n.digits n.scale

/-- Whether a character may stand around a number in a lenient reading: the blanks without the
separators U+001C to U+001F. -/
def isMargin (c : Char) : Bool := Text.isBlank c && !(0x1c ≤ c.toNat && c.toNat ≤ 0x1f)

/-- A text without the margins at its beginning and its end. -/
def stripMargins (text : Text) : Text :=
  ((text.dropWhile isMargin).reverse.dropWhile isMargin).reverse

/-- A text without its underscores, if each of them stands between two digits; `afterDigit`
says whether a digit came before. -/
def dropUnderscores? (afterDigit : Bool) : Text → Option Text
  | [] => some []
  | '_' :: rest =>
    if afterDigit && (rest.head?.any Text.isDigit) then dropUnderscores? false rest else none
  | c :: rest => (dropUnderscores? (Text.isDigit c) rest).map (c :: ·)

/-- The integer that a text stands for in a lenient reading: nothing if it is no integer or has
too many digits. -/
def integerOf? (text : Text) : Option Int := do
  let numeral ← ofText? (← dropUnderscores? false (stripMargins text))
  if numeral.isInteger then numeral.toInt.toOption else none

/-- What a name of something that is no number stands for; letter case does not matter. -/
def namedFloat? (text : Text) : Option Binary64 :=
  let (negative, name) := readSign text
  let name := String.ofList (name.map Char.toLower)
  if name == "inf" || name == "infinity" then some (.infinite negative)
  else if name == "nan" then some (.nan 0)
  else none

/-- The float that a text stands for in a lenient reading. -/
def floatOf? (text : Text) : Option Binary64 := do
  let text ← dropUnderscores? false (stripMargins text)
  (ofText? text).map toBinary64 <|> namedFloat? text

end Numeral

/-- The decimal that a text stands for; `label` marks a NaN. -/
def Decimal.ofText? (label : Nat) (text : Text) : Option Decimal :=
  (Numeral.ofText? text).map Numeral.toDecimal <|> do
    let (negative, name) := Numeral.readSign text
    let (letters, digits) := name.span (!Text.isDigit ·)
    let letters := String.ofList (letters.map Char.toLower)
    if !digits.all Text.isDigit then none
    else if letters == "nan" then some (.nan negative false (Text.natOfDigits digits) label)
    else if letters == "snan" then some (.nan negative true (Text.natOfDigits digits) label)
    else if !digits.isEmpty then none
    else if letters == "inf" || letters == "infinity" then some (.infinite negative)
    else none

end SqlTemplate
