import SqlTemplate.Number.Binary64
import SqlTemplate.Number.DigitCount

/-!
# The shortest numeral of a float

A float is written with the fewest digits that read back as the same float, and of those with
the ones nearest to it. `Magnitude.shortest` looks for them on ever finer decimal grids: on the
grid of `n` digits only the two neighbours of the magnitude can do. `Binary64.text` lays the
digits out: positionally from 10⁻⁴ up to 10¹⁶, outside with a signed exponent of at least two
digits, and a whole number with `.0`.
-/

namespace SqlTemplate

-- Powers are read the same way, whatever else is imported.
attribute [local instance(2000)] instPowNat

namespace Magnitude

/-- The least power of ten above a magnitude that is not zero: the `k` with
`10 ^ (k - 1) ≤ magnitude < 10 ^ k`. -/
def decimalScale (m : Magnitude) : Int :=
  if unitsPerOne ≤ m.units then digitCount (m.units / unitsPerOne)
  else
    match (List.range 330).find? fun j => unitsPerOne ≤ m.units * 10 ^ (j + 1) with
    | some j => -j
    | none => -330

/-- The multiple of `10 ^ exponent` at or below a magnitude, as a factor. -/
def floorOnGrid (m : Magnitude) (exponent : Int) : Nat :=
  if exponent < 0 then m.units * 10 ^ (-exponent).toNat / unitsPerOne
  else m.units / (unitsPerOne * 10 ^ exponent.toNat)

/-- Whether a magnitude lies above the middle between the grid points `n` and `n + 1`, or, in
the middle, the upper one is even. -/
def nearerAbove (m : Magnitude) (n : Nat) (exponent : Int) : Bool :=
  let (twice, middle) :=
    if exponent < 0 then (2 * m.units * 10 ^ (-exponent).toNat, (2 * n + 1) * unitsPerOne)
    else (2 * m.units, (2 * n + 1) * unitsPerOne * 10 ^ exponent.toNat)
  middle < twice || (middle == twice && n % 2 == 1)

/-- The digits on the grid `10 ^ exponent` that read back as a magnitude, if any do. -/
def onGrid? (m : Magnitude) (exponent : Int) : Option Nat :=
  let n := m.floorOnGrid exponent
  let reads (digits : Nat) : Bool := ofDecimal? digits exponent == some m
  match reads n, reads (n + 1) with
  | true, true => some (if m.nearerAbove n exponent then n + 1 else n)
  | true, false => some n
  | false, true => some (n + 1)
  | false, false => none

/-- Digits and exponent of the shortest numeral of a magnitude that is not zero. Should no
numeral of 17 digits do, all its digits are given. -/
def shortest (m : Magnitude) : Nat × Int :=
  let scale := m.decimalScale
  let found := (List.range 17).findSome? fun n =>
    let exponent := scale - (n + 1 : Nat)
    (m.onGrid? exponent).map fun digits => (digits, exponent)
  found.getD (m.units * 5 ^ (1074 : Nat), -1074)

end Magnitude

/-- Digits without the zeros at their end, and the exponent grown by their number. -/
def dropTrailingZeros (digits : Text) (exponent : Int) : Text × Int :=
  let zeros := (digits.reverse.takeWhile (· == '0')).length
  (digits.take (digits.length - zeros), exponent + zeros)

namespace Binary64

/-- Digits with the decimal point after `point` of them, which may lie outside them. -/
def positional (digits : Text) (point : Int) : Text :=
  if point ≤ 0 then '0' :: '.' :: List.replicate (-point).toNat '0' ++ digits
  else if digits.length ≤ point then
    digits ++ List.replicate (point - digits.length).toNat '0' ++ ['.', '0']
  else digits.take point.toNat ++ '.' :: digits.drop point.toNat

/-- Digits with the point after the first one, and the exponent that this takes. -/
def scientific (digits : Text) (exponent : Int) : Text :=
  let fraction := digits.drop 1
  let sign := if exponent < 0 then '-' else '+'
  digits.take 1 ++ (if fraction.isEmpty then [] else '.' :: fraction) ++
    'e' :: sign :: Text.ofNatPadded 2 exponent.natAbs

/-- A magnitude as a numeral. -/
def magnitudeText (m : Magnitude) : Text :=
  if m.mantissa = 0 then ['0', '.', '0']
  else
    let (digits, exponent) := m.shortest
    let (digits, exponent) := dropTrailingZeros (Text.ofNat digits) exponent
    let point := digits.length + exponent
    if -4 < point ∧ point ≤ 16 then positional digits point else scientific digits (point - 1)

/-- A float as a numeral or as the name of what is no number. -/
def text : Binary64 → Text
  | finite negative m => (if negative then ['-'] else []) ++ magnitudeText m
  | infinite negative => (if negative then ['-'] else []) ++ ['i', 'n', 'f']
  | nan _ => ['n', 'a', 'n']

end Binary64

end SqlTemplate
