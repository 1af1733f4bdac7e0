import SqlTemplate.Engine.Basic
import SqlTemplate.Literal.Formatter
import SqlTemplate.Template.Reference

/-!
# Substitution of variables

Every key of the variables begins with a dollar sign. The template is rendered first; then each
reference in the rendered text whose name is bound is replaced by the literal of its value. What
is put in is not read again, and a reference to an unbound name stays.
-/

namespace SqlTemplate

namespace Substitution

/-- The names of keys that all begin with a dollar sign, with their values. -/
def namesOf : Bindings → Except RenderError (List (Text × Value))
  | [] => .ok []
  | (key, value) :: rest => do
    match ← key.plain.mapError .fault with
    | '$' :: name => return (name, value) :: (← namesOf rest)
    | key => throw (.unmarkedVariable key)

/-- The text of the literal of a value. -/
def literalText (v : Value) : Except Fault Text := do
  return ((← Literal.ofValue v).text?).getD []

/-- Replaces the references of a text to bound names by the literals of their values. -/
def fill (values : List (Text × Value)) (text : Text) : Except Fault Text :=
  Template.substitute (fun name => (values.lookup name).map literalText) text

/-- Renders a template with an engine of the settings and substitutes its variables. Without
variables, a template of whatever kind is left as it is. -/
def renderWith {m : Type → Type} [Monad m] (compiler : Condition.Compiler m)
    (settings : Settings) (template : Value) (bindings? : Option Bindings) (room : Nat) :
    m (Except RenderError Value) := do
  match bindings? with
  | none => return .ok template
  | some bindings =>
    match namesOf bindings with
    | .error e => return .error e
    | .ok names =>
      let engine : Engine := ⟨⟨[]⟩, settings.trim, settings.debug⟩
      match ← engine.renderWith compiler template bindings (room - 1) with
      | .error e => return .error e
      | .ok rendering =>
        return (rendering.result.bind (fill (Named.ofPairs names))).map .text
          |>.mapError .fault

/-- Renders a template and substitutes its variables, its conditions compiled afresh. -/
def render (settings : Settings) (template : Value) (bindings? : Option Bindings) (room : Nat) :
    Except RenderError Value :=
  renderWith (m := Id) @Condition.compile settings template bindings? room

end Substitution

end SqlTemplate
