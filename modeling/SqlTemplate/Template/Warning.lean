import SqlTemplate.Condition.Compiled
import SqlTemplate.Template.Block

/-!
# Warnings about a template

Rendering never stops at a malformed template: what does not fit together stays as text, and a
condition that cannot be read does not hold. `check` reports these places beforehand. It goes
through the tags in order with a stack of the directives that are open, and gives its warnings
in the order of the lines.
-/

namespace SqlTemplate

namespace Template

/-- What can be wrong with a template. -/
inductive Problem where
  /-- Nothing ends a condition. -/
  | openCondition
  /-- A condition cannot be read. -/
  | invalidCondition (condition : Text) (cause : Condition.SyntaxError)
  /-- An `else` tag stands outside all directives. -/
  | orphanElse
  /-- A directive has a second `else` tag. -/
  | duplicateElse
  /-- An `endif` tag closes nothing. -/
  | orphanEndif
  /-- A directive is never closed. -/
  | unterminatedIf
  deriving DecidableEq, Repr

namespace Problem

/-- The kind of a problem. -/
def kind : Problem → String
  | openCondition => "invalid_condition"
  | invalidCondition _ _ => "invalid_condition"
  | orphanElse => "orphan_else"
  | duplicateElse => "duplicate_else"
  | orphanEndif => "orphan_endif"
  | unterminatedIf => "unterminated_if"

/-- The wording of a problem. -/
def message : Problem → String
  | openCondition => "'\x7b% if' tag is never closed with '%\x7d'."
  | invalidCondition condition cause =>
    let shown := String.ofList condition.strip.quoted
    s!"Condition {shown} is invalid ({cause.message}); it will always be false."
  | orphanElse => "'\x7b% else %\x7d' outside any '\x7b% if %\x7d' is kept as literal text."
  | duplicateElse =>
    "Second '\x7b% else %\x7d' for the same '\x7b% if %\x7d' is kept inside the else branch."
  | orphanEndif =>
    "'\x7b% endif %\x7d' without a matching '\x7b% if %\x7d' is kept as literal text."
  | unterminatedIf =>
    "'\x7b% if %\x7d' has no matching '\x7b% endif %\x7d'; text from here on is rendered " ++
      "as-is once reached."

end Problem

/-- A problem and where it is. -/
structure Warning where
  /-- What is wrong. -/
  problem : Problem
  /-- The line, counted from 1. -/
  line : Nat
  deriving DecidableEq, Repr

/-- The line of an offset, counted from 1. -/
def lineOf (text : Text) (offset : Nat) : Nat := (text.take offset).count '\n' + 1

/-- A directive that is open: where it begins, and whether its `else` tag has come. -/
structure OpenDirective where
  /-- Offset of the `if` tag. -/
  offset : Nat
  /-- Whether an `else` tag has been met. -/
  elseSeen : Bool
  deriving DecidableEq, Repr

/-- What a tag does to the open directives, the innermost first, and what is wrong with it. The
condition of an `if` tag is not looked at. -/
def nest (offset : Nat) (tag : Tag) (opens : List OpenDirective) :
    Option Problem × List OpenDirective :=
  match tag, opens with
  | .opening, opens => (none, ⟨offset, false⟩ :: opens)
  | .alternative, [] => (some .orphanElse, [])
  | .alternative, d :: opens =>
    if d.elseSeen then (some .duplicateElse, d :: opens)
    else (none, ⟨d.offset, true⟩ :: opens)
  | .closing, [] => (some .orphanEndif, [])
  | .closing, _ :: opens => (none, opens)

/-- What is wrong with the condition of the `if` tag at an offset. -/
def conditionProblemWith {m : Type → Type} [Monad m] (compiler : Condition.Compiler m)
    (room : Nat) (text : Text) (offset : Nat) : m (Option Problem) := do
  match text.findFrom? Tag.close (offset + 1) with
  | none => return some .openCondition
  | some stop =>
    let condition := text.slice (offset + Tag.opening.text.length) stop
    match ← compiler condition (room - 1) with
    | .ok _ => return none
    | .error cause => return some (.invalidCondition condition cause)

/-- The problems of tags in order, with their offsets, and last the directives that stay open,
the outermost first. -/
def problemsWith {m : Type → Type} [Monad m] (compiler : Condition.Compiler m) (room : Nat)
    (text : Text) : List (Nat × Tag) → List OpenDirective → m (List (Nat × Problem))
  | [], opens => return opens.reverse.map fun d => (d.offset, .unterminatedIf)
  | (offset, tag) :: rest, opens => do
    let first ← match tag with
      | .opening => conditionProblemWith compiler room text offset
      | _ => pure none
    let (second, opens) := nest offset tag opens
    let others ← problemsWith compiler room text rest opens
    return (first.toList ++ second.toList).map ((offset, ·)) ++ others

/-- The warnings about a template, in the order of the lines. -/
def checkWith {m : Type → Type} [Monad m] (compiler : Condition.Compiler m) (text : Text)
    (room : Nat) : m (List Warning) := do
  let problems ← problemsWith compiler (room - 1) text (occurrences text) []
  let warnings := problems.map fun (offset, problem) => Warning.mk problem (lineOf text offset)
  return warnings.mergeSort fun a b => a.line ≤ b.line

/-- The warnings about a template, its conditions compiled afresh. -/
def check (text : Text) (room : Nat) : List Warning :=
  checkWith (m := Id) @Condition.compile text room

end Template

end SqlTemplate
