import SqlTemplate.Literal.Json
import SqlTemplate.Literal.Scalar

/-!
# Literals of values of any kind

`Literal.ofValue` picks the literal that suits the kind of a value; a text that is already SQL
stands as it is. The literals can also be asked for by name (`Formatter`). What a formatter
answers is marked as SQL, so that formatting it once more does not quote it again.
-/

namespace SqlTemplate

namespace Literal

/-- A value that is no collection and no date as a literal. -/
def scalar : Value → Except Fault Text
  | .null => .ok null
  | .bool b => .ok (ofBool b)
  | .number (.int n) => Text.writeInt n
  | .number (.float x) => .ok x.text
  | v => v.plain.map quote

/-- The items of a value as the right side of `IN`: those of a collection, the keys of a
dictionary, the value itself if it is something else, none if it is nothing. -/
def itemsOf : Value → List Value
  | .null => []
  | .list items => items
  | .tuple items => items
  | .set _ items => items
  | .dict entries => entries.map (·.1)
  | v => [v]

/-- A value as the right side of `IN`; without items, a query without rows. -/
def inList (v : Value) : Except Fault Text := do
  let items ← (itemsOf v).mapM scalar
  return if items.isEmpty then "(SELECT 1 WHERE 1=0)".toList
    else '(' :: Value.commaSeparated items ++ [')']

/-- A value as a literal that suits its kind: marked as SQL, except where the text of the value
is the literal. -/
def ofValue : Value → Except Fault Value
  | .sql s => .ok (.text s)
  | v@(.list _) => (inList v).map .sql
  | v@(.tuple _) => (inList v).map .sql
  | v@(.set _ _) => (inList v).map .sql
  | v@(.dict _) => .ok (.sql (json v))
  | v@(.datetime _) => .ok (.sql (datetime v))
  | v@(.date _) => .ok (.sql (date v))
  | v@(.text _) => (scalar v).map .sql
  | v@(.bytes _) => (scalar v).map .sql
  | v@(.number (.decimal _)) => (scalar v).map .sql
  | v => (scalar v).map .text

end Literal

/-- The literals that can be asked for by name. -/
inductive Formatter where
  | string | int | float | bool | date | datetime | inList | like | likeStart | likeEnd | json
  | raw
  /-- The one that suits the kind of the value. -/
  | suitable
  deriving DecidableEq, Repr

namespace Formatter

/-- The names of the formatters. -/
def name : Formatter → String
  | string => "sql_string"
  | int => "sql_int"
  | float => "sql_float"
  | bool => "sql_bool"
  | date => "sql_date"
  | datetime => "sql_datetime"
  | inList => "in_list"
  | like => "sql_like"
  | likeStart => "sql_like_start"
  | likeEnd => "sql_like_end"
  | json => "sql_json"
  | raw => "sql_raw"
  | suitable => "sql_literal"

/-- All formatters. -/
def all : List Formatter :=
  [string, int, float, bool, date, datetime, inList, like, likeStart, likeEnd, json, raw,
   suitable]

/-- The formatter of a name. -/
def ofName? (name : String) : Option Formatter := all.find? (·.name == name)

/-- What a formatter makes of a value: a text, as a rule marked as SQL. -/
def apply (f : Formatter) (v : Value) : Except Fault Value :=
  match f with
  | string => (Literal.string v).map .sql
  | int => (Literal.int v).map .sql
  | float => (Literal.float v).map .sql
  | bool => .ok (.sql (Literal.bool v))
  | date => .ok (.sql (Literal.date v))
  | datetime => .ok (.sql (Literal.datetime v))
  | inList => (Literal.inList v).map .sql
  | like => (Literal.like v).map .sql
  | likeStart => (Literal.likeStart v).map .sql
  | likeEnd => (Literal.likeEnd v).map .sql
  | json => .ok (.sql (Literal.json v))
  | raw => (Literal.raw v).map .sql
  | suitable => Literal.ofValue v

/-- What formatters make of a value one after another, after each of them. -/
def applyAll : List Formatter → Value → Except Fault (List Value)
  | [], _ => .ok []
  | f :: rest, v => do
    let v ← f.apply v
    return v :: (← applyAll rest v)

end Formatter

end SqlTemplate
