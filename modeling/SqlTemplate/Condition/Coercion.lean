import SqlTemplate.Condition.Expr
import SqlTemplate.Text.Order
import SqlTemplate.Value.Display
import SqlTemplate.Value.Equality

/-!
# Loose comparison and arithmetic on values

Conditions compare and compute with values of any kind. Equality (`looseEquals`) compares truth
as soon as one side is nothing or a truth value, and a number with a text as numbers if the text
is a numeral, else as texts. Order (`compareValues`) and arithmetic (`arithmetic`) turn their
operands into numbers (`toNumber`), except that two texts are ordered as texts.
-/

namespace SqlTemplate

namespace Condition

/-- Why operands cannot be computed with. -/
inductive OperandFault where
  /-- A value is no number; it is given as a message shows it. -/
  | notANumber (shown : Text)
  /-- The divisor is zero. -/
  | divisionByZero
  /-- The divisor of a remainder is zero. -/
  | moduloByZero
  /-- The numbers cannot be computed with, or a value cannot be shown. -/
  | number (fault : Fault)
  deriving DecidableEq, Repr

/-- The wording of a fault of operands. -/
def OperandFault.message : OperandFault → String
  | notANumber shown =>
    let shown := String.ofList shown
    s!"Not a number: {shown}"
  | divisionByZero => "Division by zero"
  | moduloByZero => "Modulo by zero"
  | number fault => fault.message

/-- Why a condition has no value. -/
inductive EvalError where
  /-- An operand is at fault. -/
  | operand (fault : OperandFault)
  /-- The operands of an arithmetic operation are at fault. -/
  | invalidOperands (op : BinaryOp) (cause : OperandFault)
  /-- The operands have no order; they are given as a message shows them. -/
  | cannotCompare (left : Text) (op : BinaryOp) (right : Text)
  /-- The condition is nested too deeply to be evaluated. -/
  | tooDeep
  deriving DecidableEq, Repr

namespace EvalError

/-- The wording of an error. -/
def message : EvalError → String
  | operand fault => fault.message
  | invalidOperands op cause => s!"Invalid operands for '{op.symbol.text}': {cause.message}"
  | cannotCompare left op right =>
    let left := String.ofList left
    let right := String.ofList right
    s!"Cannot compare {left} {op.symbol.text} {right}"
  | tooDeep => tooDeepMessage

/-- The fault that no condition may hide: it is raised by whoever evaluates the condition, while
all other errors only make the condition fail. -/
def escaping? : EvalError → Option Fault
  | operand (.number fault) => some fault
  | _ => none

end EvalError

/-- A value as a number: nothing is 0, a truth value 0 or 1, a text the number it reads as. -/
def toNumber (v : Value) : Except OperandFault Number :=
  match v with
  | .null => .ok (.int 0)
  | .bool b => .ok (.int (if b then 1 else 0))
  | .number n => .ok n
  | v =>
    match v.text?.bind Number.ofText? with
    | some n => .ok n
    | none =>
      match v.shown with
      | .ok shown => .error (.notANumber shown)
      | .error fault => .error (.number fault)

/-- Whether a value makes a comparison one of truth. -/
def comparesTruth : Value → Bool
  | .null => true
  | .bool _ => true
  | _ => false

/-- Whether a number equals a text: as numbers if the text is a numeral, else as texts. -/
def numberEqualsText (n : Number) (s : Text) : Except Fault Bool :=
  match Number.ofText? s with
  | some m => (m.equals n).mapError .signal
  | none => do return (← n.text) == s

/-- Equality of values of any kinds. -/
def looseEquals (left right : Value) : Except Fault Bool :=
  if comparesTruth left || comparesTruth right then .ok (left.truthy == right.truthy)
  else
    match left, right.text?, left.text?, right with
    | .number n, some s, _, _ => numberEqualsText n s
    | _, _, some s, .number n => numberEqualsText n s
    | _, _, _, _ => (left.equals right).mapError .signal

/-- What an operation of order says about the order of its operands. -/
def holdsFor (op : BinaryOp) (o : Ordering) : Bool :=
  match op with
  | .lt => o == .lt
  | .le => o != .gt
  | .gt => o == .gt
  | .ge => o != .lt
  | _ => false

/-- Whether a value is a truth value. -/
def isBool : Value → Bool
  | .bool _ => true
  | _ => false

/-- What nothing stands for beside the other operand of a comparison. -/
def nullAs (other : Value) : Value :=
  if other.text?.isSome then .text [] else .number (.int 0)

/-- The operands of a comparison with nothing replaced by what it stands for. -/
def withoutNull (left right : Value) : Value × Value :=
  let left := match left with | .null => nullAs right | v => v
  let right := match right with | .null => nullAs left | v => v
  (left, right)

/-- The order of two values of which none is a truth value; none if there is a NaN. -/
def orderOf (op : BinaryOp) (left right : Value) : Except EvalError (Option Ordering) :=
  let (a, b) := withoutNull left right
  match a.text?, b.text? with
  | some s, some t => .ok (some (s.order t))
  | _, _ => do
    let m ← (toNumber a).mapError .operand
    let n ← (toNumber b).mapError .operand
    match m.order n with
    | .ok o => return o
    | .error _ =>
      let shownLeft ← left.shown.mapError fun fault => .operand (.number fault)
      let shownRight ← right.shown.mapError fun fault => .operand (.number fault)
      throw (.cannotCompare shownLeft op shownRight)

/-- Compares two values by an operation of order; a truth value makes it a comparison of truth,
false before true. -/
def compareValues (op : BinaryOp) (left right : Value) : Except EvalError Bool :=
  if isBool left || isBool right then
    .ok (holdsFor op (compare left.truthy.toNat right.truthy.toNat))
  else do
    match ← orderOf op left right with
    | some o => return holdsFor op o
    | none => return false

/-- The integer remainder of two numbers, with the sign of the dividend. -/
def remainder (a b : Number) : Except OperandFault Number := do
  let m ← a.toInt.mapError .number
  let n ← b.toInt.mapError .number
  if n = 0 then throw .moduloByZero
  return .int (m.tmod n)

/-- The quotient of two numbers. -/
def quotient (a b : Number) : Except OperandFault Number := do
  if ← (b.equals (.int 0)).mapError fun s => .number (.signal s) then throw .divisionByZero
  (Number.Operation.div.apply a b).mapError .number

/-- Computes with two numbers. -/
def onNumbers (op : BinaryOp) (a b : Number) : Except OperandFault Number :=
  match op with
  | .add => (Number.Operation.add.apply a b).mapError .number
  | .sub => (Number.Operation.sub.apply a b).mapError .number
  | .mul => (Number.Operation.mul.apply a b).mapError .number
  | .div => quotient a b
  | _ => remainder a b

/-- Computes with two values as numbers. -/
def arithmetic (op : BinaryOp) (left right : Value) : Except EvalError Value :=
  let result : Except OperandFault Number := do
    let a ← toNumber left
    let b ← toNumber right
    onNumbers op a b
  match result with
  | .ok n => .ok (.number n)
  | .error cause => .error (.invalidOperands op cause)

end Condition

end SqlTemplate
