import SqlTemplate.Condition.Compiled
import SqlTemplate.Template.Block
import SqlTemplate.Template.Reference

/-!
# The variables that a template can read

They are the names in its conditions, nested or not, and the references in the text outside the
conditions. A condition that cannot be read has no names.
-/

namespace SqlTemplate

namespace Template

/-- The text outside the opening tags and their conditions, in pieces; `last` is where the tag
before ends. Where a tag begins inside the one before, nothing lies between them. -/
def outsideFrom (text : Text) (last : Nat) : List (Nat × Text) → List Text
  | [] => [text.drop last]
  | (offset, condition) :: rest =>
    let tagEnd := offset + Tag.opening.text.length + condition.length + Tag.close.length
    text.slice last offset :: outsideFrom text (max last tagEnd) rest

/-- The text outside the opening tags and their conditions, in pieces. -/
def outside (text : Text) : List Text := outsideFrom text 0 (conditions text)

/-- The names of conditions that can be read. -/
def conditionNamesWith {m : Type → Type} [Monad m] (compiler : Condition.Compiler m)
    (room : Nat) : List (Nat × Text) → m (List Text)
  | [] => return []
  | (_, condition) :: rest => do
    let names := match ← compiler condition room with
      | .ok c => c.names
      | .error _ => []
    return names ++ (← conditionNamesWith compiler room rest)

/-- The names that a template can read, in increasing order. -/
def parametersWith {m : Type → Type} [Monad m] (compiler : Condition.Compiler m) (text : Text)
    (room : Nat) : m (List Text) := do
  let names ← conditionNamesWith compiler (room - 1) (conditions text)
  return Text.sorted (names ++ (outside text).flatMap references)

/-- The names that a template can read, its conditions compiled afresh. -/
def parameters (text : Text) (room : Nat) : List Text :=
  parametersWith (m := Id) @Condition.compile text room

end Template

end SqlTemplate
