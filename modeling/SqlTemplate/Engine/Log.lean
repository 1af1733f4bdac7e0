import SqlTemplate.Engine.Rendering
import SqlTemplate.Text.Quoted

/-!
# What is logged

A condition that fails is logged, and so is the number of directives that a rendering resolved.
-/

namespace SqlTemplate

/-- How much a log entry matters. -/
inductive LogLevel where
  | debug | warning
  deriving DecidableEq, Repr

/-- An entry of the log. -/
structure LogEntry where
  /-- How much it matters. -/
  level : LogLevel
  /-- What it says. -/
  message : String
  deriving DecidableEq, Repr

namespace LogEntry

/-- The entry about a condition that failed as a test of its own. -/
def ofOutcome (source : Text) : Condition.Outcome → List LogEntry
  | .evaluated _ => []
  | .failed reason =>
    let shown := String.ofList source.quoted
    [⟨.debug, s!"Condition {shown} failed: {reason.message}"⟩]

/-- The entry about a condition that failed in a rendering. -/
def ofEvaluation (level : LogLevel) (e : Evaluation) : List LogEntry :=
  match e.outcome with
  | .ok (.failed reason) =>
    let shown := String.ofList e.condition.quoted
    [⟨level, s!"Condition {shown} evaluated as false: {reason.message}"⟩]
  | _ => []

/-- The entries about a rendering that came to its end. -/
def ofRendering (debug : Bool) (r : Rendering) : List LogEntry :=
  let count := r.trace.length
  r.trace.flatMap (ofEvaluation (if debug then .warning else .debug)) ++
    if count = 0 then [] else [⟨.debug, s!"Resolved {count} directive(s)"⟩]

end LogEntry

end SqlTemplate
