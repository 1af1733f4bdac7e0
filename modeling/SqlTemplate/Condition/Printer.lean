import SqlTemplate.Condition.Grammar
import SqlTemplate.Text.Identifier

/-!
# Writing a condition

An expression is written as tokens (`Expr.tokensAt`), with parentheses only where its level is
looser than the one its place asks for, and the tokens as a text with a single blank between two
of them (`Expr.print`). A variable has a dollar sign in front, so that its name may be a keyword. In
which quotes a text stands may depend on the text.
-/

namespace SqlTemplate

namespace Condition

namespace Token

/-- A character of a quoted text: a backslash and the quote have a backslash in front. -/
def escaped (quote : Quote) (c : Char) : Text :=
  if c = '\\' ∨ c = quote.char then ['\\', c] else [c]

/-- A token as a condition can hold it; `quotes` says in which quotes a text stands. -/
def written (quotes : Text → Quote) : Token → Text
  | number (.int n) => Text.ofInt n
  | number (.float x) => x.text
  | number (.decimal d) => d.text
  | string s => (quotes s).char :: s.flatMap (escaped (quotes s)) ++ [(quotes s).char]
  | name s => '$' :: s
  | keyword k => k.text.toList
  | symbol s => s.text.toList

end Token

namespace Literal

/-- The token of a literal. -/
def token : Literal → Token
  | null => .keyword .null
  | bool b => .keyword (if b then .true else .false)
  | number n => .number n
  | text s => .string s

/-- Whether a literal can be written in a condition and is read as the same literal: a number
must be an integer without a sign and within the limit of digits. -/
def IsWritable : Literal → Prop
  | number (.int n) => 0 ≤ n ∧ (Text.writeInt n).isOk
  | number _ => False
  | _ => True

end Literal

namespace Expr

/-- Tokens, in parentheses if these are needed. -/
def parenthesized (needed : Bool) (tokens : List Token) : List Token :=
  if needed then .symbol .openParen :: (tokens ++ [.symbol .closeParen]) else tokens

/-- The tokens of an expression that stands where an expression of a level is due. -/
def tokensAt (place : Nat) (e : Expr) : List Token :=
  parenthesized (e.level < place) <|
    match e with
    | literal l => [l.token]
    | .variable name => [.name name]
    | unary op operand => .symbol op.symbol :: operand.tokensAt unaryLevel
    | binary op left right =>
      left.tokensAt (op.level + 1) ++ .symbol op.symbol :: right.tokensAt (op.level + 2)
    | conditional test thenBranch elseBranch =>
      test.tokensAt 1 ++ .symbol .question ::
        (thenBranch.tokensAt 0 ++ .symbol .colon :: elseBranch.tokensAt 0)

/-- An expression as a text. -/
def print (quotes : Text → Quote) (e : Expr) : Text :=
  [' '].intercalate ((e.tokensAt 0).map (Token.written quotes))

/-- Whether the leaves of an expression are literals that can be written and identifiers. -/
def HasWritableLeaves : Expr → Prop
  | literal l => l.IsWritable
  | .variable name => Text.IsIdentifier name
  | unary _ operand => operand.HasWritableLeaves
  | binary _ left right => left.HasWritableLeaves ∧ right.HasWritableLeaves
  | conditional test thenBranch elseBranch =>
    test.HasWritableLeaves ∧ thenBranch.HasWritableLeaves ∧ elseBranch.HasWritableLeaves

end Expr

end Condition

end SqlTemplate
