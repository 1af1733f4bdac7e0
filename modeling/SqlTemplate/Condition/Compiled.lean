import SqlTemplate.Condition.Evaluation
import SqlTemplate.Condition.Parser

/-!
# Compiled conditions

A condition is compiled once and can then be evaluated in any environment. What comes of
evaluating a condition as a test is an `Outcome`: it holds or not, or it fails, and then it
counts as not holding. Compiling is a parameter of everything that needs it, so that it can be
done afresh (`compile`) or with a memory of what was compiled before (`Condition.Cache`).

Calls can be nested inside one another only so deep. Whatever compiles or evaluates a condition
is told how many calls there is room for inside the one that asks for it, and leaves less room to
what it calls itself: a condition that is compiled in a rendering has less of it than one that is
compiled by itself.
-/

namespace SqlTemplate

namespace Condition

/-- The room that a program leaves which is not deep in calls itself: of a thousand calls, what
the program takes up, and the innermost ones of reading a condition, which are not counted one by
one. -/
def usualRoom : Nat := 992

/-- A condition that has been read. -/
structure Compiled where
  /-- The text of the condition. -/
  source : Text
  /-- The names of the variables it reads, in increasing order. -/
  names : List Text
  /-- Its tree. -/
  root : Expr
  deriving DecidableEq, Repr

/-- The names among tokens. -/
def namesIn (tokens : List Located) : List Text :=
  tokens.filterMap fun t => match t.token with
    | .name name => some name
    | _ => none

/-- Reads a condition. The parser is the third call inside the one that asks for it. -/
def compile (source : Text) (room : Nat := usualRoom) : Except SyntaxError Compiled := do
  let tokens ← tokens source
  if tokens.isEmpty then throw .empty
  let root ← Parser.parse source.length (room - 3) tokens
  return ⟨source, Text.sorted (namesIn tokens), root⟩

/-- A condition whose tokens can be read is compiled to what they are parsed to. -/
theorem compile_of_tokens {source : Text} {located : List Located}
    (h : tokens source = .ok located) (hne : located ≠ []) (room : Nat) :
    compile source room = (Parser.parse source.length (room - 3) located).map fun root =>
      ⟨source, Text.sorted (namesIn located), root⟩ := by
  cases located with
  | nil => exact absurd rfl hne
  | cons t rest =>
    simp only [compile, h, bind, Except.bind, List.isEmpty_cons, Bool.false_eq_true, if_false]
    cases Parser.parse source.length (room - 3) (t :: rest) <;> rfl

namespace Compiled

/-- The value of a condition. Its tree is evaluated one call further in. -/
def evaluate (c : Compiled) (env : Environment) (room : Nat) : Except EvalError Value :=
  c.root.evaluate env (room - 1)

/-- A compiled condition as a message shows it. -/
def shown (c : Compiled) : Text := "CompiledExpression(".toList ++ c.source.quoted ++ [')']

end Compiled

/-- Why a condition fails. -/
inductive Reason where
  /-- It cannot be read. -/
  | syntaxError (e : SyntaxError)
  /-- It has no value. -/
  | evaluation (e : EvalError)
  deriving DecidableEq, Repr

/-- The wording of a reason. -/
def Reason.message : Reason → String
  | syntaxError e => e.message
  | evaluation e => e.message

/-- What comes of a condition as a test. -/
inductive Outcome where
  /-- It has a value, which counts as true or not. -/
  | evaluated (holds : Bool)
  /-- It fails. -/
  | failed (reason : Reason)
  deriving DecidableEq, Repr

/-- Whether a condition holds; one that fails does not. -/
def Outcome.holds : Outcome → Bool
  | evaluated holds => holds
  | failed _ => false

/-- The outcome of the value of a condition, unless its error escapes. -/
def Outcome.ofValue : Except EvalError Value → Except Fault Outcome
  | .ok v => .ok (evaluated v.truthy)
  | .error e =>
    match e.escaping? with
    | some fault => .error fault
    | none => .ok (failed (.evaluation e))

/-- A way to compile conditions where there is some room, with whatever it does besides. -/
abbrev Compiler (m : Type → Type) := Text → Nat → m (Except SyntaxError Compiled)

/-- Compiles a condition and evaluates it as a test. -/
def outcomeWith {m : Type → Type} [Monad m] (compiler : Compiler m) (env : Environment)
    (source : Text) (room : Nat) : m (Except Fault Outcome) := do
  match ← compiler source (room - 1) with
  | .ok c => return Outcome.ofValue (c.evaluate env (room - 1))
  | .error e => return .ok (.failed (.syntaxError e))

/-- The outcome of a condition, compiled afresh. -/
def outcome (env : Environment) (source : Text) (room : Nat) : Except Fault Outcome :=
  outcomeWith (m := Id) @compile env source room

/-- A condition that can be compiled has the outcome of its tree. -/
theorem outcome_of_compile {source : Text} {room : Nat} {c : Compiled}
    (h : compile source (room - 1) = .ok c) (env : Environment) :
    outcome env source room = Outcome.ofValue (c.evaluate env (room - 1)) := by
  rw [outcome, outcomeWith, h]
  rfl

end Condition

end SqlTemplate
