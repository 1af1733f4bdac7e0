import SqlTemplate.Number.Basic
import SqlTemplate.Value.Calendar

/-!
# Values

What a variable can be bound to and what a condition computes with: nothing, a truth value, a
number, a text, a text that is ready to stand in SQL as it is, bytes, a date or time, and
collections of values. `Value.truthy` says which values count as true.
-/

namespace SqlTemplate

/-- A value. -/
inductive Value where
  /-- Nothing. -/
  | null
  /-- A truth value. -/
  | bool (b : Bool)
  /-- A number. -/
  | number (n : Number)
  /-- A text. -/
  | text (s : Text)
  /-- A text that is already SQL and is never quoted; otherwise it behaves as a text. -/
  | sql (s : Text)
  /-- Bytes. -/
  | bytes (bytes : List UInt8)
  /-- A date. -/
  | date (d : Date)
  /-- A date with a time of day. -/
  | datetime (t : DateTime)
  /-- A list. -/
  | list (items : List Value)
  /-- A tuple, which is no list. -/
  | tuple (items : List Value)
  /-- A set; being frozen shows only in how it is written. -/
  | set (frozen : Bool) (items : List Value)
  /-- Keys with their values, in order. -/
  | dict (entries : List (Value × Value))
  deriving Repr

instance : Inhabited Value := ⟨.null⟩

namespace Value

/-- An integer as a value. -/
def int (n : Int) : Value := number (.int n)

/-- The text of a value that behaves as a text. -/
def text? : Value → Option Text
  | text s => some s
  | sql s => some s
  | _ => none

/-- The number of a value that counts as one in a comparison: a truth value is 0 or 1. -/
def numeric? : Value → Option Number
  | bool b => some (.int (if b then 1 else 0))
  | number n => some n
  | _ => none

/-- Whether a value counts as true: nothing, false, zero and what is empty do not, all else
does. Bytes are not looked into. -/
def truthy : Value → Bool
  | null => false
  | bool b => b
  | number n => !n.isZero
  | text s => !s.isEmpty
  | sql s => !s.isEmpty
  | list items => !items.isEmpty
  | tuple items => !items.isEmpty
  | set _ items => !items.isEmpty
  | dict entries => !entries.isEmpty
  | bytes _ => true
  | date _ => true
  | datetime _ => true

/-- The name of the kind of a value, as messages use it. -/
def kind : Value → String
  | null => "NoneType"
  | bool _ => "bool"
  | number (.int _) => "int"
  | number (.float _) => "float"
  | number (.decimal _) => "Decimal"
  | text _ => "str"
  | sql _ => "SqlSafe"
  | bytes _ => "bytes"
  | date _ => "date"
  | datetime _ => "datetime"
  | list _ => "list"
  | tuple _ => "tuple"
  | set frozen _ => if frozen then "frozenset" else "set"
  | dict _ => "dict"

end Value

end SqlTemplate
