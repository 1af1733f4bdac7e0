import SqlTemplate.Number.Basic
import SqlTemplate.Text.Quoted

/-!
# Tokens of a condition

A condition is a row of numbers, quoted texts, names, keywords and symbols. A name may be
written with a dollar sign in front, which is no part of it and without which it must not be a
keyword. `SyntaxError` lists what can be wrong with a condition as a text.
-/

namespace SqlTemplate

namespace Condition

/-- The symbols of the condition language. -/
inductive Symbol where
  | andAnd | orOr | equal | notEqual | lessGreater | lessEqual | greaterEqual
  | plus | minus | times | divide | percent | less | greater
  | bang | question | colon | openParen | closeParen
  deriving DecidableEq, Repr

/-- How a symbol is written. -/
def Symbol.text : Symbol → String
  | andAnd => "&&"
  | orOr => "||"
  | equal => "=="
  | notEqual => "!="
  | lessGreater => "<>"
  | lessEqual => "<="
  | greaterEqual => ">="
  | plus => "+"
  | minus => "-"
  | times => "*"
  | divide => "/"
  | percent => "%"
  | less => "<"
  | greater => ">"
  | bang => "!"
  | question => "?"
  | colon => ":"
  | openParen => "("
  | closeParen => ")"

/-- The quotes that a text in a condition can stand in. -/
inductive Quote where
  /-- The single quote. -/
  | single
  /-- The double quote. -/
  | double
  deriving DecidableEq

/-- A quote as a character. -/
def Quote.char : Quote → Char
  | single => '\''
  | double => '"'

/-- The words that are no names; their letter case does not matter. -/
inductive Keyword where
  | true | false | null | and | or
  deriving DecidableEq, Repr

namespace Keyword

/-- How a keyword is written. -/
def text : Keyword → String
  | .true => "true"
  | .false => "false"
  | .null => "null"
  | .and => "and"
  | .or => "or"

/-- The keyword that a word is, in whatever letter case. -/
def ofWord? (word : Text) : Option Keyword :=
  let word := word.map Char.toLower
  [Keyword.true, .false, .null, .and, .or].find? fun keyword => keyword.text.toList == word

end Keyword

/-- A token of a condition. -/
inductive Token where
  /-- A number: an integer, or a float if it has a point. -/
  | number (n : Number)
  /-- A quoted text. -/
  | string (s : Text)
  /-- The name of a variable. -/
  | name (name : Text)
  /-- A keyword. -/
  | keyword (keyword : Keyword)
  /-- A symbol. -/
  | symbol (symbol : Symbol)
  deriving DecidableEq, Repr

namespace Token

/-- The symbol that a token stands for: two keywords are other spellings of symbols. -/
def symbol? : Token → Option Symbol
  | symbol s => some s
  | keyword .and => some .andAnd
  | keyword .or => some .orOr
  | _ => none

/-- A token as a message shows it. -/
def shown : Token → Text
  | number (.int n) => Text.ofInt n
  | number (.float x) => x.text
  | number (.decimal d) => d.text
  | string s => s.quoted
  | name s => s.quoted
  | keyword k => Text.quoted k.text.toList
  | symbol s => Text.quoted s.text.toList

end Token

/-- A token and the offset at which it begins. -/
structure Located where
  /-- The token. -/
  token : Token
  /-- Where it begins. -/
  position : Nat
  deriving DecidableEq, Repr

/-- What can be wrong with a condition as a text. -/
inductive SyntaxError where
  /-- No token begins with this character. -/
  | unexpectedCharacter (c : Char) (position : Nat)
  /-- A number has too many digits. -/
  | invalidNumber (position : Nat) (cause : Fault)
  /-- There is no token at all. -/
  | empty
  /-- The condition ends where an operand is due. -/
  | unexpectedEnd
  /-- A token stands where it must not. -/
  | unexpectedToken (token : Token) (position : Nat)
  /-- Something else stands where this symbol is due. -/
  | expected (symbol : Symbol) (position : Nat)
  /-- The condition is nested too deeply to be read. -/
  | tooDeep
  deriving DecidableEq, Repr

/-- The wording for what is nested too deeply, to be read or to be evaluated. -/
def tooDeepMessage : String := "Expression is nested too deeply"

/-- The wording of a syntax error. -/
def SyntaxError.message : SyntaxError → String
  | unexpectedCharacter c position =>
    let shown := String.ofList (Text.quoted [c])
    s!"Unexpected character {shown} at position {position}"
  | invalidNumber position cause => s!"Invalid number at position {position}: {cause.message}"
  | empty => "Empty expression"
  | unexpectedEnd => "Unexpected end of expression"
  | unexpectedToken token position =>
    let shown := String.ofList token.shown
    s!"Unexpected {shown} at position {position}"
  | expected symbol position =>
    let shown := String.ofList (Text.quoted symbol.text.toList)
    s!"Expected {shown} at position {position}"
  | tooDeep => tooDeepMessage

end Condition

end SqlTemplate
