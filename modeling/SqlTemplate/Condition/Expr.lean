import SqlTemplate.Condition.Token
import SqlTemplate.Value.Basic

/-!
# Expressions

The tree of a condition: literals and variables, joined by unary and binary operations and by
the choice `test ? a : b`. A binary operation has a level; what has a higher level binds
tighter.
-/

namespace SqlTemplate

namespace Condition

/-- What a literal can be. -/
inductive Literal where
  /-- Nothing. -/
  | null
  /-- A truth value. -/
  | bool (b : Bool)
  /-- A number. -/
  | number (n : Number)
  /-- A text. -/
  | text (s : Text)
  deriving DecidableEq, Repr

/-- The value of a literal. -/
def Literal.value : Literal → Value
  | null => .null
  | bool b => .bool b
  | number n => .number n
  | text s => .text s

/-- The operations on one operand. -/
inductive UnaryOp where
  /-- The opposite truth value. -/
  | not
  /-- The opposite number. -/
  | minus
  /-- The operand as a number. -/
  | plus
  deriving DecidableEq, Repr

/-- The symbol of a unary operation. -/
def UnaryOp.symbol : UnaryOp → Symbol
  | not => .bang
  | minus => .minus
  | plus => .plus

/-- The unary operation of a symbol. -/
def UnaryOp.ofSymbol? : Symbol → Option UnaryOp
  | .bang => some not
  | .minus => some minus
  | .plus => some plus
  | _ => none

/-- The operations on two operands. `ne` and `differs` mean the same and are written
differently. -/
inductive BinaryOp where
  | or | and | eq | ne | differs | lt | le | gt | ge | add | sub | mul | div | mod
  deriving DecidableEq, Repr

namespace BinaryOp

/-- The symbol of a binary operation. -/
def symbol : BinaryOp → Symbol
  | or => .orOr
  | and => .andAnd
  | eq => .equal
  | ne => .notEqual
  | differs => .lessGreater
  | lt => .less
  | le => .lessEqual
  | gt => .greater
  | ge => .greaterEqual
  | add => .plus
  | sub => .minus
  | mul => .times
  | div => .divide
  | mod => .percent

/-- The binary operation of a symbol. -/
def ofSymbol? : Symbol → Option BinaryOp
  | .orOr => some or
  | .andAnd => some and
  | .equal => some eq
  | .notEqual => some ne
  | .lessGreater => some differs
  | .less => some lt
  | .lessEqual => some le
  | .greater => some gt
  | .greaterEqual => some ge
  | .plus => some add
  | .minus => some sub
  | .times => some mul
  | .divide => some div
  | .percent => some mod
  | _ => none

/-- The level of a binary operation, from 0, which binds loosest, to 5. -/
def level : BinaryOp → Nat
  | or => 0
  | and => 1
  | eq | ne | differs => 2
  | lt | le | gt | ge => 3
  | add | sub => 4
  | mul | div | mod => 5

/-- How many levels there are. -/
def levels : Nat := 6

end BinaryOp

/-- The tree of a condition. -/
inductive Expr where
  /-- A literal. -/
  | literal (l : Literal)
  /-- What a variable is bound to, or nothing. -/
  | variable (name : Text)
  /-- An operation on one operand. -/
  | unary (op : UnaryOp) (operand : Expr)
  /-- An operation on two operands. -/
  | binary (op : BinaryOp) (left right : Expr)
  /-- A choice. -/
  | conditional (test thenBranch elseBranch : Expr)
  deriving DecidableEq, Repr

end Condition

end SqlTemplate
