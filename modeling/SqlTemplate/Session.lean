import SqlTemplate.Condition.Cache
import SqlTemplate.Engine.Substitution
import SqlTemplate.Template.Parameters
import SqlTemplate.Template.Warning

/-!
# Sessions

A session has settings that can be changed, a cache of compiled conditions and engines under
names. `Session.perform` takes a step in it: each step gives an answer or a failure, and leaves a
session behind. Conditions are compiled by way of the cache, at the size that is set when the
step is taken, and where it is taken from says how much room there is for them.
-/

namespace SqlTemplate

open Condition (Cache Compiler)

/-- What is kept from step to step. -/
structure Session where
  /-- The settings. -/
  settings : Settings
  /-- The compiled conditions. -/
  cache : Cache
  /-- The engines under their names. -/
  engines : List (Text × Engine)

/-- A step in a session. -/
inductive Step where
  /-- Sets whether failed conditions are logged as warnings. -/
  | setDebug (debug : Bool)
  /-- Sets whether engines made from now on drop the character before a tag. -/
  | setTrim (trim : Bool)
  /-- Sets how many compiled conditions are kept. -/
  | setCacheSize (size : Int)
  /-- Makes an engine. -/
  | createEngine (id : Text) (globals : Bindings) (trim? debug? : Option Bool)
  /-- Renders a template with an engine. -/
  | render (id : Text) (template : Value) (bindings : Bindings)
  /-- Asks for the bindings that a rendering would see. -/
  | merged (id : Text) (bindings : Bindings)
  /-- Tries to change a global binding of an engine. -/
  | setGlobal (id : Text)
  /-- Compiles a condition. -/
  | compile (source : Text)
  /-- Empties the cache. -/
  | clearCache
  /-- Asks for the value of a condition. -/
  | value (source : Text) (env : Environment)
  /-- Asks for the outcome of a condition. -/
  | outcome (source : Text) (env : Environment)
  /-- Asks whether a condition holds, and logs its failure. -/
  | holds (source : Text) (env : Environment)
  /-- Asks for the names that a template can read. -/
  | parameters (template : Text)
  /-- Asks for the warnings about a template. -/
  | check (template : Text)
  /-- Renders a template and substitutes variables. -/
  | renderSql (template : Value) (bindings? : Option Bindings)

/-- What a step answers. -/
inductive Answer where
  /-- Nothing. -/
  | done
  /-- An engine and its global bindings as a message shows them. -/
  | engine (engine : Engine) (globals : Text)
  /-- A rendered text, what was logged, and the engine's global bindings. -/
  | rendered (text : Text) (log : List LogEntry) (globals : Text)
  /-- Names and values, in the order of the names. -/
  | bindings (entries : List (Text × Value))
  /-- Whether a compiled condition was in the cache. -/
  | compiled (hit : Bool)
  /-- A value. -/
  | value (v : Value)
  /-- An outcome. -/
  | outcome (o : Condition.Outcome)
  /-- Whether a condition holds, and what was logged. -/
  | holds (b : Bool) (log : List LogEntry)
  /-- Names. -/
  | names (names : List Text)
  /-- Warnings. -/
  | warnings (warnings : List Template.Warning)

/-- Why a step has no answer. -/
inductive Failure where
  /-- A condition cannot be read. -/
  | syntaxError (e : Condition.SyntaxError)
  /-- A condition has no value. -/
  | evaluation (e : Condition.EvalError)
  /-- A template is not rendered. -/
  | render (e : RenderError)
  /-- Global bindings cannot be changed. -/
  | frozenGlobals
  /-- There is no engine of that name. -/
  | unknownEngine (id : Text)

namespace Failure

/-- The wording of a failure. -/
def message : Failure → String
  | syntaxError e => e.message
  | evaluation e => e.message
  | render e => e.message
  | frozenGlobals => "'mappingproxy' object does not support item assignment"
  | unknownEngine id => String.ofList id.quoted

/-- A fault as a failure. -/
def ofFault (fault : Fault) : Failure := render (.fault fault)

end Failure

namespace Session

/-- The session in which nothing has happened. -/
def initial : Session := ⟨.default, .empty, []⟩

/-- Lets an action compile conditions by way of the cache. -/
def usingCache {α : Type} (action : Compiler (StateM Cache) → StateM Cache α) :
    StateM Session α :=
  modifyGet fun s =>
    let (a, cache) := action (Cache.compiler s.settings.cacheSize) s.cache
    (a, { s with cache })

/-- The engine of a name. -/
def engine (id : Text) : StateM Session (Except Failure Engine) := do
  return match (← get).engines.lookup id with
    | some e => .ok e
    | none => .error (.unknownEngine id)

/-- The answer to a rendering by an engine. -/
def renderedAnswer (engine : Engine) (rendering : Except RenderError Rendering) :
    Except Failure Answer := do
  let rendering ← rendering.mapError .render
  let text ← rendering.result.mapError .ofFault
  let globals ← engine.globals.shown.mapError .ofFault
  return .rendered text (LogEntry.ofRendering engine.debug rendering) globals

/-- Makes an engine, in the place of one of the same name. -/
def createEngine (id : Text) (globals : Bindings) (trim? debug? : Option Bool) :
    StateM Session (Except Failure Answer) := do
  let s ← get
  match Engine.create s.settings globals trim? debug? with
  | .error fault => return .error (.ofFault fault)
  | .ok e =>
    set { s with engines := Named.insert id e s.engines }
    return (e.globals.shown.map (.engine e)).mapError .ofFault

/-- The outcome of a condition, compiled by way of the cache. -/
def outcome (source : Text) (env : Environment) (room : Nat) :
    StateM Session (Except Failure Condition.Outcome) := do
  return (← usingCache fun c => Condition.outcomeWith c env source room).mapError .ofFault

/-- Takes a step where there is some room for calls. -/
def perform (step : Step) (room : Nat := Condition.usualRoom) :
    StateM Session (Except Failure Answer) := do
  match step with
  | .setDebug debug =>
    modify fun s => { s with settings := { s.settings with debug } }
    return .ok .done
  | .setTrim trim =>
    modify fun s => { s with settings := { s.settings with trim } }
    return .ok .done
  | .setCacheSize cacheSize =>
    modify fun s => { s with settings := { s.settings with cacheSize } }
    return .ok .done
  | .createEngine id globals trim? debug? => createEngine id globals trim? debug?
  | .render id template bindings =>
    match ← engine id with
    | .error e => return .error e
    | .ok e =>
      return renderedAnswer e (← usingCache fun c => e.renderWith c template bindings room)
  | .merged id bindings =>
    match ← engine id with
    | .error e => return .error e
    | .ok e =>
      return match e.globals.merged bindings with
        | .ok env => .ok (.bindings (env.entries.mergeSort fun a b => !Text.before b.1 a.1))
        | .error fault => .error (.ofFault fault)
  | .setGlobal id => return (← engine id).bind fun _ => .error .frozenGlobals
  | .compile source =>
    let s ← get
    let hit := s.cache.hits s.settings.cacheSize source
    match ← usingCache fun c => c source room with
    | .ok _ => return .ok (.compiled hit)
    | .error e => return .error (.syntaxError e)
  | .clearCache =>
    modify fun s => { s with cache := .empty }
    return .ok .done
  | .value source env =>
    match ← usingCache fun c => c source room with
    | .ok compiled => return ((compiled.evaluate env room).map .value).mapError .evaluation
    | .error e => return .error (.syntaxError e)
  | .outcome source env => return (← outcome source env room).map .outcome
  | .holds source env =>
    -- one call more lies between than where the outcome itself is asked for
    return (← outcome source env (room - 1)).map fun o =>
      .holds o.holds (LogEntry.ofOutcome source o)
  | .parameters template =>
    return .ok (.names (← usingCache fun c => Template.parametersWith c template room))
  | .check template =>
    return .ok (.warnings (← usingCache fun c => Template.checkWith c template room))
  | .renderSql template bindings? =>
    let s ← get
    let result ← usingCache fun c => Substitution.renderWith c s.settings template bindings? room
    return (result.map .value).mapError .render

/-- Takes steps one after another, each where there is some room; each answer comes with the texts
that are in the cache after the step, the most recently used one last. -/
def performAll : List (Step × Nat) → StateM Session (List (Except Failure Answer × List Text))
  | [] => return []
  | (step, room) :: rest => do
    let answer ← perform step room
    let keys := (← get).cache.keys
    return (answer, keys) :: (← performAll rest)

end Session

end SqlTemplate
