import SqlTemplate.Condition.Compiled
import SqlTemplate.Template.Block

/-!
# Rendering

A template is rendered by replacing its first directive by one of its branches until it has no
directive any more. The branch that is not chosen is dropped unread; directives in the chosen
one come up later. A rendering keeps its trace, the conditions that were evaluated and what came
of them, so that what a rendering looked at can be told from what it wrote.
-/

namespace SqlTemplate

/-- A condition that was evaluated, and what came of it. -/
structure Evaluation where
  /-- The condition. -/
  condition : Text
  /-- What came of it. -/
  outcome : Except Fault Condition.Outcome

/-- What comes of rendering a template. -/
structure Rendering where
  /-- The conditions evaluated, in order. -/
  trace : List Evaluation
  /-- The text, or the fault that no condition may hide. -/
  result : Except Fault Text

namespace Rendering

/-- Renders a text in an environment. A condition is tested by a call of its own. -/
def renderWith {m : Type → Type} [Monad m] (compiler : Condition.Compiler m) (trim : Bool)
    (env : Environment) (text : Text) (room : Nat) : m Rendering :=
  match found : Template.Block.extract? trim text with
  | none => return ⟨[], .ok text⟩
  | some block => do
    let outcome ← Condition.outcomeWith compiler env block.condition (room - 1)
    match outcome with
    | .error fault => return ⟨[⟨block.condition, outcome⟩], .error fault⟩
    | .ok o =>
      have := Template.Block.length_resolve_lt found o.holds
      let rest ← renderWith compiler trim env (block.resolve o.holds) room
      return ⟨⟨block.condition, outcome⟩ :: rest.trace, rest.result⟩
termination_by text.length

/-- Renders a text in an environment, its conditions compiled afresh. -/
def render (trim : Bool) (env : Environment) (text : Text) (room : Nat) : Rendering :=
  renderWith (m := Id) @Condition.compile trim env text room

end Rendering

end SqlTemplate
