import SqlTemplate.Condition.Expr
import SqlTemplate.Condition.Lexer

/-!
# From tokens to an expression

A parser by descent through the levels of the operations. Each function is given how many calls
may still be nested inside one another and fails with `SyntaxError.tooDeep` when none is left;
this bounds the nesting of parentheses, of choices and of unary operations, but not the length
of a chain of operations of one level, which is read in a loop (`chain`).
-/

namespace SqlTemplate

namespace Condition

namespace Parser

/-- What a parser answers: the expression it has read and the tokens that follow. -/
abbrev Answer := Except SyntaxError (Expr × List Located)

/-- Reads a symbol that must come next; `stop` is the position of the end. -/
def expect (stop : Nat) (symbol : Symbol) : List Located → Except SyntaxError (List Located)
  | [] => .error (.expected symbol stop)
  | t :: rest => if t.token = .symbol symbol then .ok rest else .error (.expected symbol t.position)

/-- The operation of a level with which the tokens begin, and the tokens behind it. -/
def operation? (level : Nat) : List Located → Option (BinaryOp × List Located)
  | [] => none
  | t :: rest => do
    let op ← BinaryOp.ofSymbol? (← t.token.symbol?)
    if op.level = level then some (op, rest) else none

/-- Reads on after a left operand: as long as an operation of the level follows, its right
operand, joined to all that was read before. At most `steps` operations are read. -/
def chain (operand : List Located → Answer) (level : Nat) :
    Nat → Expr → List Located → Answer
  | 0, left, tokens => .ok (left, tokens)
  | steps + 1, left, tokens =>
    match operation? level tokens with
    | none => .ok (left, tokens)
    | some (op, rest) => do
      let (right, rest) ← operand rest
      chain operand level steps (.binary op left right) rest

/-- The literal that a single token is. -/
def literal? : Token → Option Literal
  | .number n => some (.number n)
  | .string s => some (.text s)
  | .keyword .true => some (.bool true)
  | .keyword .false => some (.bool false)
  | .keyword .null => some .null
  | _ => none

mutual

/-- Reads a choice, or what can stand as its test. -/
def ternary (stop : Nat) : Nat → List Located → Answer
  | 0, _ => .error .tooDeep
  | depth + 1, tokens => do
    let (test, tokens) ← binary stop depth 0 tokens
    match tokens with
    | ⟨.symbol .question, _⟩ :: rest =>
      let (thenBranch, rest) ← ternary stop depth rest
      let rest ← expect stop .colon rest
      let (elseBranch, rest) ← ternary stop depth rest
      return (.conditional test thenBranch elseBranch, rest)
    | tokens => return (test, tokens)

/-- Reads operations of a level and above. -/
def binary (stop : Nat) : Nat → Nat → List Located → Answer
  | 0, _, _ => .error .tooDeep
  | depth + 1, level, tokens =>
    if level = BinaryOp.levels then unary stop depth tokens
    else do
      let (left, tokens) ← binary stop depth (level + 1) tokens
      chain (binary stop depth (level + 1)) level tokens.length left tokens

/-- Reads unary operations and their operand. -/
def unary (stop : Nat) : Nat → List Located → Answer
  | 0, _ => .error .tooDeep
  | depth + 1, tokens =>
    match tokens with
    | t :: rest =>
      match t.token.symbol?.bind UnaryOp.ofSymbol? with
      | some op => do
        let (operand, rest) ← unary stop depth rest
        return (.unary op operand, rest)
      | none => primary stop depth tokens
    | [] => primary stop depth tokens

/-- Reads a literal, a variable or an expression in parentheses. -/
def primary (stop : Nat) : Nat → List Located → Answer
  | 0, _ => .error .tooDeep
  | _ + 1, [] => .error .unexpectedEnd
  | depth + 1, t :: rest =>
    match t.token, literal? t.token with
    | _, some l => .ok (.literal l, rest)
    | .name name, none => .ok (.variable name, rest)
    | .symbol .openParen, none => do
      let (inner, rest) ← ternary stop depth rest
      let rest ← expect stop .closeParen rest
      return (inner, rest)
    | token, none => .error (.unexpectedToken token t.position)

end

/-- Reads an expression that takes up all the tokens. -/
def parse (stop depth : Nat) (tokens : List Located) : Except SyntaxError Expr := do
  let (expr, rest) ← ternary stop depth tokens
  match rest with
  | [] => return expr
  | t :: _ => throw (.unexpectedToken t.token t.position)

end Parser

end Condition

end SqlTemplate
