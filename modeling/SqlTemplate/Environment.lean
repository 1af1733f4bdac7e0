import SqlTemplate.Text.Named
import SqlTemplate.Value.Display
import SqlTemplate.Value.Equality

/-!
# Environments

What a caller binds is a map from keys to values (`Bindings`); a key can be any value. What a
condition sees is a map from names to values (`Environment`), in the order in which the names
came first. A leading dollar sign is no part of a name, so several keys can come to one name, of
which the last one counts. An engine has global bindings, and those of a single rendering are
laid over them.
-/

namespace SqlTemplate

/-- A caller's bindings: keys, each different from the others, with their values. -/
abbrev Bindings := List (Value × Value)

/-- The name without its leading dollar sign; one sign at most is dropped. -/
def normalizeName : Text → Text
  | '$' :: name => name
  | name => name

/-- Names with their values, each name once. -/
structure Environment where
  /-- The names and values, in order of first occurrence. -/
  entries : List (Text × Value)
  deriving Repr

namespace Environment

/-- The environment without names. -/
def empty : Environment := ⟨[]⟩

/-- The value of a name. -/
def lookup (env : Environment) (name : Text) : Option Value := env.entries.lookup name

/-- Binds names one after another: a name in its place if it is there, else at the end. -/
def insertAll (env : Environment) (pairs : List (Text × Value)) : Environment :=
  ⟨Named.insertAll env.entries pairs⟩

/-- The names that the keys of bindings come to, with their values. -/
def namesOf : Bindings → Except Fault (List (Text × Value))
  | [] => .ok []
  | (key, value) :: rest => do
    return (normalizeName (← key.plain), value) :: (← namesOf rest)

/-- The environment of a caller's bindings. -/
def ofBindings (bindings : Bindings) : Except Fault Environment := do
  return empty.insertAll (← namesOf bindings)

/-- The environment in which the keys that are texts stand as they are; others are no names. -/
def ofTextKeys (bindings : Bindings) : Environment :=
  empty.insertAll (bindings.filterMap fun (key, value) => key.text?.map (·, value))

/-- An environment with a caller's bindings laid over it. -/
def merged (globals : Environment) (bindings : Bindings) : Except Fault Environment := do
  return globals.insertAll (← ofBindings bindings).entries

/-- An environment as a message shows it. -/
def shown (env : Environment) : Except Fault Text := do
  let inner ← (Value.dict (env.entries.map fun (name, value) => (.text name, value))).shown
  return "VariableEnvironment(".toList ++ inner ++ [')']

end Environment

end SqlTemplate
