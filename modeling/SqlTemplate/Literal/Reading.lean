import SqlTemplate.Literal.Scalar

/-!
# Reading SQL text

The reader of a literal goes by three rules. A single quote goes into a quoted text or out of it,
and two of them inside are one character (`unquote?`), so what lies outside quotes is found by
toggling at every quote (`outside`). A row between brackets is divided by its commas outside quotes
(`readRow?`). In a pattern a percent sign matches any text, an underscore any character, and a
backslash makes the next character stand for itself (`Matches`).
-/

namespace SqlTemplate

namespace Literal

/-- The characters outside quotes, the quotes left out; `quoted` says whether the text begins
inside. -/
def outside (quoted : Bool) : Text → Text
  | [] => []
  | c :: rest =>
    if c = '\'' then outside (!quoted) rest
    else if quoted then outside quoted rest
    else c :: outside quoted rest

/-- Whether the end of a text is inside quotes; `quoted` says whether its beginning is. -/
def endsQuoted (quoted : Bool) (text : Text) : Bool :=
  quoted ^^ text.count '\'' % 2 == 1

/-- What a quoted text without its first quote stands for; nothing may follow its last one. -/
def unquoteBody? : Text → Option Text
  | [] => none
  | ['\''] => some []
  | '\'' :: '\'' :: rest => (unquoteBody? rest).map ('\'' :: ·)
  | c :: rest => if c = '\'' then none else (unquoteBody? rest).map (c :: ·)

/-- What a quoted text stands for. -/
def unquote? : Text → Option Text
  | '\'' :: rest => unquoteBody? rest
  | _ => none

/-- A text cut at its commas outside quotes; `quoted` says whether the text begins inside. -/
def cutAtCommas (quoted : Bool) : Text → List Text
  | [] => [[]]
  | c :: rest =>
    if c = ',' ∧ quoted = false then [] :: cutAtCommas false rest
    else (cutAtCommas (if c = '\'' then !quoted else quoted) rest).modifyHead (c :: ·)

/-- What a text without quotes stands for: nothing, a truth value or a number. -/
def wordValue? (text : Text) : Option Value :=
  if text = null then some .null
  else if text = ofBool true then some (.bool true)
  else if text = ofBool false then some (.bool false)
  else (Number.ofText? text).map .number

/-- What a part of a row stands for. -/
def partValue? (text : Text) : Option Value :=
  match unquote? text with
  | some s => some (.text s)
  | none => wordValue? text

/-- The values of a row between brackets; blanks behind a comma are passed over. -/
def readRow? : Text → Option (List Value)
  | '(' :: rest =>
    if rest.getLast? = some ')' then
      (cutAtCommas false rest.dropLast).mapM fun part => partValue? (part.dropWhile (· = ' '))
    else none
  | _ => none

/-- Which texts a pattern matches. -/
inductive Matches : Text → Text → Prop where
  /-- The empty pattern matches the empty text. -/
  | nil : Matches [] []
  /-- A percent sign matches any text. -/
  | any {pattern text : Text} (skipped : Text) :
      Matches pattern text → Matches ('%' :: pattern) (skipped ++ text)
  /-- An underscore matches any character. -/
  | one {pattern text : Text} (c : Char) :
      Matches pattern text → Matches ('_' :: pattern) (c :: text)
  /-- A character behind a backslash matches itself. -/
  | escaped {pattern text : Text} (c : Char) :
      Matches pattern text → Matches ('\\' :: c :: pattern) (c :: text)
  /-- Any other character matches itself. -/
  | plain {pattern text : Text} {c : Char} :
      c ≠ '%' → c ≠ '_' → c ≠ '\\' → Matches pattern text → Matches (c :: pattern) (c :: text)

end Literal

end SqlTemplate
