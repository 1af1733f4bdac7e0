import SqlTemplate.Settings

/-!
# The settings file

A file of settings has lines `NAME=value`. Blanks around both, blank lines and lines that begin
with `#` are passed over, and so is a comment behind a value, if blanks stand before it. A value
in quotes can hold anything, with escapes for the quotes, the backslash and, in double quotes,
control characters. A line of another form is skipped.
-/

namespace SqlTemplate

namespace Settings

namespace File

/-- Whether a character ends a line. -/
def isLineEnd (c : Char) : Bool := c == '\n' || c == '\r'

/-- Whether a character is a blank within a line. -/
def isInlineBlank (c : Char) : Bool := Text.isBlank c && !isLineEnd c

/-- A text without the blanks at its end. -/
def stripEnd (s : Text) : Text := (s.reverse.dropWhile Text.isBlank).reverse

/-- A value without a comment behind it; a comment begins with blanks and `#`. -/
def dropComment : Text → Text
  | [] => []
  | c :: rest =>
    if Text.isBlank c && (rest.dropWhile Text.isBlank).head? == some '#' then []
    else c :: dropComment rest

/-- What a character behind a backslash stands for between the quotes `quote`, if it is an
escape there. -/
def escape? (quote c : Char) : Option Char :=
  if c = '\\' ∨ c = '\'' then some c
  else if quote = '\'' then none
  else if c = '"' then some '"'
  else if c = 'a' then some '\x07'
  else if c = 'b' then some '\x08'
  else if c = 'f' then some '\x0c'
  else if c = 'n' then some '\n'
  else if c = 'r' then some '\r'
  else if c = 't' then some '\t'
  else if c = 'v' then some '\x0b'
  else none

/-- A quoted value with its escapes read. -/
def unescape (quote : Char) : Text → Text
  | '\\' :: c :: rest =>
    match escape? quote c with
    | some e => e :: unescape quote rest
    | none => '\\' :: unescape quote (c :: rest)
  | c :: rest => c :: unescape quote rest
  | [] => []
termination_by s => s.length

/-- What stands before the closing quote, and what behind it; a quote behind a backslash does not
close. -/
def upToQuote? (quote : Char) : Text → Option (Text × Text)
  | [] => none
  | '\\' :: c :: rest =>
    if c = quote then (upToQuote? quote rest).map fun (body, rest) => ('\\' :: c :: body, rest)
    else (upToQuote? quote (c :: rest)).map fun (body, rest) => ('\\' :: body, rest)
  | c :: rest =>
    if c = quote then some ([], rest)
    else (upToQuote? quote rest).map fun (body, rest) => (c :: body, rest)
termination_by s => s.length

/-- A value and the text behind it. -/
def value? : Text → Option (Text × Text)
  | [] => some ([], [])
  | c :: rest =>
    if c = '\'' ∨ c = '"' then
      (upToQuote? c rest).map fun (body, rest) => (unescape c body, rest)
    else
      let line := (c :: rest).takeWhile (!isLineEnd ·)
      some (stripEnd (dropComment line), (c :: rest).dropWhile (!isLineEnd ·))

/-- A name and the text behind it. -/
def name? : Text → Option (Text × Text)
  | '\'' :: rest =>
    match rest.span (· != '\'') with
    | (name, '\'' :: rest) => if name.isEmpty then none else some (name, rest)
    | _ => none
  | text =>
    let isPart (c : Char) : Bool := c != '=' && c != '#' && !Text.isBlank c
    let name := text.takeWhile isPart
    if name.isEmpty then none else some (name, text.dropWhile isPart)

/-- A text without the word `export` at its beginning. -/
def dropExport (text : Text) : Text :=
  let word := "export".toList
  let rest := text.drop word.length
  if word.isPrefixOf text && rest.head?.any isInlineBlank then rest.dropWhile isInlineBlank
  else text

/-- The text behind blanks, a comment and the end of the line, if nothing else comes before. -/
def endOfLine? (text : Text) : Option Text :=
  let text := text.dropWhile isInlineBlank
  let text := if text.head? == some '#' then text.dropWhile (!isLineEnd ·) else text
  match text with
  | [] => some []
  | '\r' :: '\n' :: rest => some rest
  | c :: rest => if isLineEnd c then some rest else none

/-- The setting of a line and the text behind the line, if the line has the form of one. -/
def line? (text : Text) : Option ((Text × Text) × Text) := do
  let (name, rest) ← name? (dropExport text)
  match rest.dropWhile isInlineBlank with
  | '=' :: rest =>
    let (value, rest) ← value? (rest.dropWhile isInlineBlank)
    return ((name, value), ← endOfLine? rest)
  | _ => none

/-- The settings of at most `lines` lines. -/
def readLines : Nat → Text → Variables
  | 0, _ => []
  | lines + 1, text =>
    match text.dropWhile Text.isBlank with
    | [] => []
    | text =>
      match line? text with
      | some (setting, rest) => setting :: readLines lines rest
      | none => readLines lines (text.dropWhile (!isLineEnd ·))

/-- The settings of a file. -/
def read (text : Text) : Variables := readLines (text.length + 1) text

end File

end Settings

end SqlTemplate
