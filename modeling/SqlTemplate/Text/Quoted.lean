import SqlTemplate.Text.Digit
import SqlTemplate.Text.Printable

/-!
# Quoted texts in messages

A text that a message speaks of stands in single quotes, or in double quotes if it holds a
single quote and no double quote. Inside, the backslash and the quote in use are escaped by a
backslash, tab and line ends have escapes of their own, and a character without a visible shape
is given by its number. Bytes are written in the same way with a `b` in front, all that is not
visible ASCII by number.
-/

namespace SqlTemplate

namespace Text

/-- The quote around a text: the double one if that avoids an escape, else the single one. -/
def quoteFor (text : Text) : Char :=
  if text.contains '\'' && !text.contains '"' then '"' else '\''

/-- A character given by its number, in the shortest of the three forms that hold it. -/
def escapeByNumber (c : Char) : Text :=
  if c.toNat < 0x100 then ['\\', 'x'] ++ ofHex 2 c.toNat
  else if c.toNat < 0x10000 then ['\\', 'u'] ++ ofHex 4 c.toNat
  else ['\\', 'U'] ++ ofHex 8 c.toNat

/-- A character of a text between the quotes `quote`. -/
def quotedChar (quote c : Char) : Text :=
  if c = quote ∨ c = '\\' then ['\\', c]
  else if c = '\t' then ['\\', 't']
  else if c = '\n' then ['\\', 'n']
  else if c = '\r' then ['\\', 'r']
  else if isPrintable c then [c]
  else escapeByNumber c

/-- A text as a message shows it. -/
def quoted (text : Text) : Text :=
  let quote := quoteFor text
  quote :: text.flatMap (quotedChar quote) ++ [quote]

/-- A byte between the quotes `quote`. -/
def quotedByte (quote : Char) (b : UInt8) : Text :=
  let c := Char.ofNat b.toNat
  if b < 0x7f then quotedChar quote c else escapeByNumber c

/-- Bytes as a message shows them. -/
def quotedBytes (bytes : List UInt8) : Text :=
  let quote := quoteFor (bytes.map fun b => Char.ofNat b.toNat)
  'b' :: quote :: bytes.flatMap (quotedByte quote) ++ [quote]

end Text

end SqlTemplate
