import SqlTemplate.Condition.Expr

/-!
# The grammar of conditions

`Derives level tokens e` says that tokens spell an expression whose outermost operation is of
the level or binds tighter. The levels are those of the table, from the loosest:

    0        test ? a : b         the branches are of level 0 again
    1 to 6   || && == < + *       the left operand is of the same level, the right one is tighter
    7        ! - +                the operand is of the same level
    8        literals, variables and expressions in parentheses

An expression of one level is also one of every looser level, and parentheses make any
expression one of level 8. The words `and` and `or` stand for symbols.
-/

namespace SqlTemplate

namespace Condition

/-- The level of unary operations. -/
def unaryLevel : Nat := BinaryOp.levels + 1

/-- The level of what cannot be taken apart without its parentheses. -/
def primaryLevel : Nat := unaryLevel + 1

/-- The level of an expression's outermost operation. -/
def Expr.level : Expr → Nat
  | conditional _ _ _ => 0
  | binary op _ _ => op.level + 1
  | unary _ _ => unaryLevel
  | literal _ => primaryLevel
  | .variable _ => primaryLevel

/-- Which tokens spell an expression of a level. -/
inductive Derives : Nat → List Token → Expr → Prop where
  /-- An expression of a level is one of the next looser level. -/
  | looser {level : Nat} {tokens : List Token} {e : Expr} :
      level < primaryLevel → Derives (level + 1) tokens e → Derives level tokens e
  /-- A choice. -/
  | conditional {test thenPart elsePart : List Token} {t a b : Expr} :
      Derives 1 test t → Derives 0 thenPart a → Derives 0 elsePart b →
      Derives 0 (test ++ .symbol .question :: (thenPart ++ .symbol .colon :: elsePart))
        (.conditional t a b)
  /-- A binary operation; those of one level are joined from the left. -/
  | binary {op : BinaryOp} {spelling : Token} {left right : List Token} {a b : Expr} :
      spelling.symbol? = some op.symbol →
      Derives (op.level + 1) left a → Derives (op.level + 2) right b →
      Derives (op.level + 1) (left ++ spelling :: right) (.binary op a b)
  /-- A unary operation. -/
  | unary {op : UnaryOp} {operand : List Token} {e : Expr} :
      Derives unaryLevel operand e →
      Derives unaryLevel (.symbol op.symbol :: operand) (.unary op e)
  /-- A number. -/
  | number (n : Number) : Derives primaryLevel [.number n] (.literal (.number n))
  /-- A quoted text. -/
  | string (s : Text) : Derives primaryLevel [.string s] (.literal (.text s))
  /-- The true value. -/
  | isTrue : Derives primaryLevel [.keyword .true] (.literal (.bool true))
  /-- The false value. -/
  | isFalse : Derives primaryLevel [.keyword .false] (.literal (.bool false))
  /-- Nothing. -/
  | null : Derives primaryLevel [.keyword .null] (.literal .null)
  /-- A variable. -/
  | name (name : Text) : Derives primaryLevel [.name name] (.variable name)
  /-- An expression in parentheses. -/
  | parentheses {tokens : List Token} {e : Expr} :
      Derives 0 tokens e →
      Derives primaryLevel (.symbol .openParen :: (tokens ++ [.symbol .closeParen])) e

end Condition

end SqlTemplate
