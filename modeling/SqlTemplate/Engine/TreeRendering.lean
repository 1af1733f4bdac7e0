import SqlTemplate.Engine.Rendering
import SqlTemplate.Template.Tree

/-!
# What a template tree stands for

A tree says directly what its printed text is rendered to. Without trimming this is a recursion
on the tree (`Tree.rendering`): literal texts are kept, and of a directive the branch that its
condition chooses. With trimming a directive also takes away the character before it, which may
come from a literal text or from an earlier directive, so the tree is read from the left with
the output so far at hand (`Tree.trimmedRendering`).
-/

namespace SqlTemplate

namespace Rendering

/-- A rendering that has written a text and evaluated nothing. -/
def ofText (text : Text) : Rendering := ⟨[], .ok text⟩

/-- A rendering and another one behind it, which is not begun if the first one fails. -/
def append (first second : Rendering) : Rendering :=
  match first.result with
  | .error _ => first
  | .ok text => ⟨first.trace ++ second.trace, second.result.map (text ++ ·)⟩

/-- Evaluates a condition, and goes on as it says unless a fault escapes. -/
def branch (env : Environment) (room : Nat) (condition : Text) (next : Bool → Rendering) :
    Rendering :=
  let outcome := Condition.outcome env condition (room - 1)
  match outcome with
  | .error fault => ⟨[⟨condition, outcome⟩], .error fault⟩
  | .ok o =>
    let rest := next o.holds
    ⟨⟨condition, outcome⟩ :: rest.trace, rest.result⟩

end Rendering

namespace Template

namespace Tree

/-- What the printed tree is rendered to without trimming. -/
def rendering (env : Environment) (room : Nat) : Tree → Rendering
  | done => .ofText []
  | literal text rest => (Rendering.ofText text).append (rest.rendering env room)
  | whenHolds condition valid rest =>
    (Rendering.branch env room condition fun holds =>
      if holds then valid.rendering env room else .ofText []).append (rest.rendering env room)
  | choose condition valid invalid rest =>
    (Rendering.branch env room condition fun holds =>
      if holds then valid.rendering env room else invalid.rendering env room).append
        (rest.rendering env room)

/-- Reads a tree from the left, `output` being what was written before it; `cut` says that the
last character of its last literal text goes to an `else` tag. -/
def trimmedFrom (env : Environment) (room : Nat) (cut : Bool) (output : Text) :
    Tree → (Text → Rendering) → Rendering
  | done, next => next output
  | literal text rest, next =>
    let text := if cut && rest.isDone then text.dropLast else text
    rest.trimmedFrom env room cut (output ++ text) next
  | whenHolds condition valid rest, next =>
    Rendering.branch env room condition fun holds =>
      let after (output : Text) := rest.trimmedFrom env room cut output next
      if holds then valid.trimmedFrom env room false output.dropLast after
      else after output.dropLast
  | choose condition valid invalid rest, next =>
    Rendering.branch env room condition fun holds =>
      let after (output : Text) := rest.trimmedFrom env room cut output next
      if holds then valid.trimmedFrom env room true output.dropLast after
      else invalid.trimmedFrom env room false output.dropLast after

/-- What the printed tree is rendered to with trimming. -/
def trimmedRendering (env : Environment) (room : Nat) (tree : Tree) : Rendering :=
  tree.trimmedFrom env room false [] .ofText

end Tree

end Template

end SqlTemplate
