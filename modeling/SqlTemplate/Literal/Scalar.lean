import SqlTemplate.Literal.Quoting

/-!
# Numbers, truth values and dates in SQL

The literals that ask for a certain kind of value: a value that cannot be converted to that kind
is written as nothing. Only a number that is out of the range of its new kind is a fault.
-/

namespace SqlTemplate

namespace Literal

/-- The characters of bytes that are all ASCII. -/
def asciiText? (bytes : List UInt8) : Option Text :=
  if bytes.all (· < 0x80) then some (bytes.map fun b => Char.ofNat b.toNat) else none

/-- Whether a fault means that a number is out of range, not that there is none. -/
def isOutOfRange : Fault → Bool
  | .intTooLarge | .floatInfinity | .decimalInfinity => true
  | _ => false

/-- A result as a literal; where there is none, nothing, unless a number is out of range. -/
def orNull : Except Fault Text → Except Fault Text
  | .ok s => .ok s
  | .error fault => if isOutOfRange fault then .error fault else .ok null

/-- The integer of a value that has one. -/
def integerOf? : Value → Except Fault (Option Int)
  | .bool b => .ok (some (if b then 1 else 0))
  | .number n => n.toInt.map some
  | .text s => .ok (Numeral.integerOf? s)
  | .sql s => .ok (Numeral.integerOf? s)
  | .bytes b => .ok ((asciiText? b).bind Numeral.integerOf?)
  | _ => .ok none

/-- A value as an integer literal. -/
def int (v : Value) : Except Fault Text :=
  orNull do
    match ← integerOf? v with
    | some n => Text.writeInt n
    | none => return null

/-- The float of a value that has one. -/
def floatOf? : Value → Except Fault (Option Binary64)
  | .bool b => (Binary64.ofInt (if b then 1 else 0)).map some
  | .number (.int n) => (Binary64.ofInt n).map some
  | .number (.float x) => .ok (some x)
  | .number (.decimal d) => .ok d.toBinary64?
  | .text s => .ok (Numeral.floatOf? s)
  | .sql s => .ok (Numeral.floatOf? s)
  | .bytes b => .ok ((asciiText? b).bind Numeral.floatOf?)
  | _ => .ok none

/-- A value as a float literal. -/
def float (v : Value) : Except Fault Text :=
  orNull do
    match ← floatOf? v with
    | some x => return x.text
    | none => return null

/-- A truth value as a literal. -/
def ofBool (b : Bool) : Text := if b then "TRUE".toList else "FALSE".toList

/-- A value as a truth literal; here bytes are looked into. -/
def bool : Value → Text
  | .null => null
  | .bytes b => ofBool !b.isEmpty
  | v => ofBool v.truthy

/-- A value as a date literal: of a text that looks like a date, its first ten characters. -/
def date (v : Value) : Text :=
  match v with
  | .datetime t => quote t.date.iso
  | .date d => quote d.iso
  | v =>
    match v.text? with
    | some s => if s[4]? = some '-' ∧ s[7]? = some '-' ∧ 10 ≤ s.length then quote (s.take 10) else null
    | none => null

/-- A value as a literal of a date with a time of day; a date is taken at midnight. -/
def datetime (v : Value) : Text :=
  match v with
  | .datetime t => quote (t.iso 'T')
  | .date d => quote ((DateTime.midnight d).iso 'T')
  | v =>
    match v.text? with
    | some s => quote s
    | none => null

end Literal

end SqlTemplate
