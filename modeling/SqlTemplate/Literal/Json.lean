import SqlTemplate.Literal.Quoting

/-!
# Values as JSON in SQL

A value as a JSON text in ASCII: lists and tuples are arrays, dictionaries objects, and a value
of a kind that JSON lacks is the string of its plain text. A dictionary with a key that is
neither a text nor a number nor a truth value nor nothing has no JSON text, nor has an integer
of too many digits.
-/

namespace SqlTemplate

namespace Json

/-- A unit of UTF-16 as an escape. -/
def unitEscape (unit : Nat) : Text := '\\' :: 'u' :: Text.ofHex 4 unit

/-- A character of a string. -/
def char (c : Char) : Text :=
  if c = '"' then ['\\', '"']
  else if c = '\\' then ['\\', '\\']
  else if c = '\n' then ['\\', 'n']
  else if c = '\r' then ['\\', 'r']
  else if c = '\t' then ['\\', 't']
  else if c = '\x0c' then ['\\', 'f']
  else if c = '\x08' then ['\\', 'b']
  else if 0x20 ≤ c.toNat ∧ c.toNat < 0x7f then [c]
  else if c.toNat < 0x10000 then unitEscape c.toNat
  else
    let n := c.toNat - 0x10000
    unitEscape (0xd800 + n / 0x400) ++ unitEscape (0xdc00 + n % 0x400)

/-- A string. -/
def string (s : Text) : Text := '"' :: s.flatMap char ++ ['"']

/-- A float; what is no number has a name. -/
def float : Binary64 → Text
  | .infinite negative => (if negative then ['-'] else []) ++ "Infinity".toList
  | .nan _ => "NaN".toList
  | x => x.text

/-- A truth value. -/
def bool (b : Bool) : Text := if b then "true".toList else "false".toList

/-- The string that the key of an object is. -/
def key? : Value → Option Text
  | .text s => some s
  | .sql s => some s
  | .null => some "null".toList
  | .bool b => some (bool b)
  | .number (.int n) => (Text.writeInt n).toOption
  | .number (.float x) => some (float x)
  | _ => none

mutual

/-- The JSON text of a value. -/
def text? : Value → Option Text
  | .null => some "null".toList
  | .bool b => some (bool b)
  | .number (.int n) => (Text.writeInt n).toOption
  | .number (.float x) => some (float x)
  | .list items => (items? items).map fun ts => '[' :: Value.commaSeparated ts ++ [']']
  | .tuple items => (items? items).map fun ts => '[' :: Value.commaSeparated ts ++ [']']
  | .dict entries => (entries? entries).map fun ts => '{' :: Value.commaSeparated ts ++ ['}']
  | v => v.plain.toOption.map string

/-- The JSON texts of the items of an array. -/
def items? : List Value → Option (List Text)
  | [] => some []
  | v :: rest => do return (← text? v) :: (← items? rest)

/-- The JSON texts of the members of an object. -/
def entries? : List (Value × Value) → Option (List Text)
  | [] => some []
  | (k, v) :: rest => do
    return (string (← key? k) ++ ':' :: ' ' :: (← text? v)) :: (← entries? rest)

end

end Json

namespace Literal

/-- A value as a literal of its JSON text; nothing if it has none. -/
def json (v : Value) : Text :=
  match v with
  | .null => null
  | v => ((Json.text? v).map quote).getD null

end Literal

end SqlTemplate
