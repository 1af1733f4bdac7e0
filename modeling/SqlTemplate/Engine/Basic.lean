import SqlTemplate.Engine.Log
import SqlTemplate.Settings

/-!
# Engines

An engine renders templates with global bindings that are fixed when it is made, and so are its
two options, which come from the settings unless they are given. The bindings of a single
rendering are laid over the global ones.
-/

namespace SqlTemplate

/-- An engine. -/
structure Engine where
  /-- The global bindings. -/
  globals : Environment
  /-- Whether the character before a tag is dropped. -/
  trim : Bool
  /-- Whether failed conditions are logged as warnings. -/
  debug : Bool

/-- Why a template is not rendered. -/
inductive RenderError where
  /-- The template is no text, but a value of this kind. -/
  | notText (kind : String)
  /-- A key of the variables to be substituted does not begin with a dollar sign. -/
  | unmarkedVariable (key : Text)
  /-- A number could not be handled. -/
  | fault (fault : Fault)
  deriving DecidableEq, Repr

/-- The wording of an error. -/
def RenderError.message : RenderError → String
  | notText kind => s!"Template must be str, got {kind}"
  | unmarkedVariable key =>
    let key := String.ofList key
    s!"The SQL variable \"{key}\" must start with $"
  | fault f => f.message

namespace Engine

/-- Makes an engine. -/
def create (settings : Settings) (globals : Bindings) (trim? debug? : Option Bool) :
    Except Fault Engine := do
  return {
    globals := ← Environment.ofBindings globals
    trim := trim?.getD settings.trim
    debug := debug?.getD settings.debug }

/-- Renders a template, which must be a text. -/
def renderWith {m : Type → Type} [Monad m] (compiler : Condition.Compiler m) (engine : Engine)
    (template : Value) (bindings : Bindings) (room : Nat) : m (Except RenderError Rendering) := do
  match template.text?, engine.globals.merged bindings with
  | none, _ => return .error (.notText template.kind)
  | some _, .error fault => return .error (.fault fault)
  | some text, .ok env =>
    return .ok (← Rendering.renderWith compiler engine.trim env text (room - 1))

/-- Renders a template, its conditions compiled afresh. -/
def render (engine : Engine) (template : Value) (bindings : Bindings)
    (room : Nat := Condition.usualRoom) : Except RenderError Rendering :=
  renderWith (m := Id) @Condition.compile engine template bindings room

end Engine

end SqlTemplate
