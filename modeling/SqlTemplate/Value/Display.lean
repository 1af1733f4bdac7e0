import SqlTemplate.Text.Quoted
import SqlTemplate.Value.Basic

/-!
# Values as text

A value has two texts: the one a message shows (`Value.shown`), in which texts are quoted and
the kind of every value can be seen, and the plain one (`Value.plain`), in which a text is
itself. They differ only for texts, decimals, dates and times; a collection shows its items
either way. Neither exists for a value that holds an integer of too many digits.
-/

namespace SqlTemplate

namespace Date

/-- A date as a message shows it. -/
def shown (d : Date) : Text :=
  s!"datetime.date({d.year}, {d.month}, {d.day})".toList

end Date

namespace DateTime

/-- An offset as a message shows it: in days and seconds, the seconds never negative. -/
def offsetShown (offset : Int) : String :=
  if offset = 0 then "datetime.timezone.utc"
  else
    let days := offset.fdiv 86400
    let seconds := offset.fmod 86400
    let parts := (if days = 0 then [] else [s!"days={days}"]) ++
      (if seconds = 0 then [] else [s!"seconds={seconds}"])
    let inner := ", ".intercalate parts
    s!"datetime.timezone(datetime.timedelta({inner}))"

/-- A time as a message shows it: seconds and microseconds only if there are any. -/
def shown (t : DateTime) : Text :=
  let fields := [t.date.year, t.date.month, t.date.day, t.hour, t.minute] ++
    (if t.second = 0 ∧ t.microsecond = 0 then [] else [t.second]) ++
    (if t.microsecond = 0 then [] else [t.microsecond])
  let parts := fields.map toString ++ (t.offset?.map fun o => "tzinfo=" ++ offsetShown o).toList
  let inner := ", ".intercalate parts
  s!"datetime.datetime({inner})".toList

end DateTime

namespace Value

/-- Texts joined by a comma and a space. -/
def commaSeparated : List Text → Text
  | [] => []
  | [t] => t
  | t :: rest => t ++ ',' :: ' ' :: commaSeparated rest

/-- The items of a set between its brackets. -/
def setShown (frozen : Bool) (items : List Text) : Text :=
  let braces := '{' :: commaSeparated items ++ ['}']
  match frozen, items.isEmpty with
  | false, true => "set()".toList
  | false, false => braces
  | true, true => "frozenset()".toList
  | true, false => "frozenset(".toList ++ braces ++ [')']

/-- The items of a tuple between its brackets; a single one is followed by a comma. -/
def tupleShown : List Text → Text
  | [t] => '(' :: t ++ [',', ')']
  | items => '(' :: commaSeparated items ++ [')']

mutual

/-- A value as a message shows it. -/
def shown : Value → Except Fault Text
  | null => .ok "None".toList
  | bool b => .ok (if b then "True".toList else "False".toList)
  | number (.decimal d) => .ok ("Decimal('".toList ++ d.text ++ "')".toList)
  | number n => n.text
  | text s => .ok s.quoted
  | sql s => .ok s.quoted
  | bytes b => .ok (Text.quotedBytes b)
  | date d => .ok d.shown
  | datetime t => .ok t.shown
  | list items => do return '[' :: commaSeparated (← allShown items) ++ [']']
  | tuple items => do return tupleShown (← allShown items)
  | set frozen items => do return setShown frozen (← allShown items)
  | dict entries => do return '{' :: commaSeparated (← entriesShown entries) ++ ['}']

/-- The items of a collection as a message shows them. -/
def allShown : List Value → Except Fault (List Text)
  | [] => .ok []
  | v :: rest => do return (← shown v) :: (← allShown rest)

/-- The entries of a dictionary as a message shows them. -/
def entriesShown : List (Value × Value) → Except Fault (List Text)
  | [] => .ok []
  | (k, v) :: rest => do
    return ((← shown k) ++ ':' :: ' ' :: (← shown v)) :: (← entriesShown rest)

end

/-- A value in plain text. -/
def plain : Value → Except Fault Text
  | text s => .ok s
  | sql s => .ok s
  | number n => n.text
  | date d => .ok d.iso
  | datetime t => .ok (t.iso ' ')
  | v => shown v

end Value

end SqlTemplate
