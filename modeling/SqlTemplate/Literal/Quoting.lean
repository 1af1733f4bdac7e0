import SqlTemplate.Value.Display

/-!
# Texts in SQL

A text stands in SQL between single quotes, with each quote inside written twice. For a pattern
comparison, the two wildcards and the backslash are first escaped by a backslash, so that the
pattern matches the text itself.
-/

namespace SqlTemplate

namespace Literal

/-- The literal for nothing. -/
def null : Text := "NULL".toList

/-- A text with each single quote written twice. -/
def doubleQuotes : Text → Text
  | [] => []
  | c :: rest => if c = '\'' then '\'' :: '\'' :: doubleQuotes rest else c :: doubleQuotes rest

/-- A text as a SQL literal. -/
def quote (s : Text) : Text := '\'' :: doubleQuotes s ++ ['\'']

/-- Puts a backslash before each occurrence of a character. -/
def escapeWith (special : Char) (s : Text) : Text :=
  s.flatMap fun c => if c = special then ['\\', c] else [c]

/-- A text as a pattern that matches only itself. -/
def escapePattern (s : Text) : Text :=
  escapeWith '_' (escapeWith '%' (escapeWith '\\' s))

/-- The literal of a value made from its plain text; nothing is the literal for nothing. -/
def ofPlain (make : Text → Text) : Value → Except Fault Text
  | .null => .ok null
  | v => v.plain.map make

/-- A value as a text literal. -/
def string : Value → Except Fault Text := ofPlain quote

/-- A value as a pattern for a text that equals it. -/
def like : Value → Except Fault Text := ofPlain fun s => quote (escapePattern s)

/-- A value as a pattern for a text that begins with it. -/
def likeStart : Value → Except Fault Text := ofPlain fun s => quote (escapePattern s ++ ['%'])

/-- A value as a pattern for a text that ends with it. -/
def likeEnd : Value → Except Fault Text := ofPlain fun s => quote ('%' :: escapePattern s)

/-- A value inserted as it is. -/
def raw : Value → Except Fault Text := ofPlain id

end Literal

end SqlTemplate
