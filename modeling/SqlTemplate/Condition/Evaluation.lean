import SqlTemplate.Condition.Coercion
import SqlTemplate.Environment

/-!
# The value of an expression

Evaluation reads variables from an environment, an unbound one as nothing. The operands of `&&`,
`||` and the branches of a choice are evaluated only as far as they are needed. It is given how
many calls may still be nested inside one another, one for each node on the way down.
-/

namespace SqlTemplate

namespace Condition

namespace Expr

/-- The result of a unary operation. -/
def applyUnary (op : UnaryOp) (v : Value) : Except EvalError Value :=
  match op with
  | .not => .ok (.bool !v.truthy)
  | .minus => do
    let n ← (toNumber v).mapError .operand
    return .number (← n.neg.mapError fun fault => .operand (.number fault))
  | .plus => do return .number (← (toNumber v).mapError .operand)

/-- The result of a binary operation that needs both operands. -/
def applyBinary (op : BinaryOp) (left right : Value) : Except EvalError Value :=
  match op with
  | .eq => do
    return .bool (← (looseEquals left right).mapError fun fault => .operand (.number fault))
  | .ne | .differs => do
    return .bool !(← (looseEquals left right).mapError fun fault => .operand (.number fault))
  | .lt | .le | .gt | .ge => do return .bool (← compareValues op left right)
  | _ => arithmetic op left right

/-- The value of an expression, with at most `depth` nodes nested inside one another. -/
def evaluate (env : Environment) (depth : Nat) (e : Expr) : Except EvalError Value :=
  match depth with
  | 0 => .error .tooDeep
  | depth + 1 =>
    match e with
    | literal l => .ok l.value
    | .variable name => .ok ((env.lookup name).getD .null)
    | unary op operand => do applyUnary op (← operand.evaluate env depth)
    | binary .and left right => do
      if (← left.evaluate env depth).truthy then
        return .bool (← right.evaluate env depth).truthy
      else return .bool false
    | binary .or left right => do
      if (← left.evaluate env depth).truthy then return .bool true
      else return .bool (← right.evaluate env depth).truthy
    | binary op left right => do
      let l ← left.evaluate env depth
      let r ← right.evaluate env depth
      applyBinary op l r
    | conditional test thenBranch elseBranch => do
      if (← test.evaluate env depth).truthy then thenBranch.evaluate env depth
      else elseBranch.evaluate env depth

/-- The names of the variables of an expression, from left to right. -/
def variableNames : Expr → List Text
  | literal _ => []
  | .variable name => [name]
  | unary _ operand => operand.variableNames
  | binary _ left right => left.variableNames ++ right.variableNames
  | conditional test thenBranch elseBranch =>
    test.variableNames ++ thenBranch.variableNames ++ elseBranch.variableNames

end Expr

end Condition

end SqlTemplate
