import SqlTemplate.Text.Identifier

/-!
# References to variables in a text

A reference is a dollar sign with an identifier behind it, as long as it can be. `pieces` reads
a text from the left as references and single characters; `substitute` puts texts in the place
of references in one pass, so what is put in is not read again.
-/

namespace SqlTemplate

namespace Template

/-- A reference, or a character that belongs to none. -/
inductive Piece where
  /-- A character. -/
  | char (c : Char)
  /-- A reference to a variable, without the dollar sign. -/
  | reference (name : Text)
  deriving DecidableEq, Repr

namespace Piece

/-- A piece as it is written. -/
def text : Piece → Text
  | char c => [c]
  | reference name => '$' :: name

end Piece

/-- A text as references and single characters. -/
def pieces (text : Text) : List Piece :=
  match text with
  | [] => []
  | c :: rest =>
    let name := Text.identifier rest
    if c = '$' ∧ name ≠ [] then .reference name :: pieces (rest.drop name.length)
    else .char c :: pieces rest
termination_by text.length

/-- The names that a text refers to, in order. -/
def references (text : Text) : List Text :=
  (pieces text).filterMap fun
    | .reference name => some name
    | .char _ => none

/-- The text of a piece in which references are replaced; one without a replacement stays. -/
def substitutePiece {ε : Type} (replacement : Text → Option (Except ε Text)) :
    Piece → Except ε Text
  | .reference name => (replacement name).getD (.ok (Piece.reference name).text)
  | piece => .ok piece.text

/-- A text in which references are replaced, from the left. -/
def substitute {ε : Type} (replacement : Text → Option (Except ε Text)) (text : Text) :
    Except ε Text := do
  return ((← (pieces text).mapM (substitutePiece replacement))).flatten

end Template

end SqlTemplate
