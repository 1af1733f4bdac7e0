import SqlTemplate.Template.Tag

/-!
# Templates as trees

A template in which every directive is complete is a sequence of literal texts and directives,
whose branches are such sequences again. `Tree` is that sequence, with what comes next as part
of each constructor, so that one recursion goes through siblings and branches alike. `print`
writes a tree as a text, and `IsPlain` says that a tree has no brace where a tag could be
mistaken for text: on such trees `print` loses nothing.
-/

namespace SqlTemplate

namespace Template

/-- A sequence of literal texts and complete directives. -/
inductive Tree where
  /-- The end of the sequence. -/
  | done
  /-- A literal text, and what follows. -/
  | literal (text : Text) (rest : Tree)
  /-- A directive without an `else` tag, and what follows. -/
  | whenHolds (condition : Text) (valid rest : Tree)
  /-- A directive with an `else` tag, and what follows. -/
  | choose (condition : Text) (valid invalid rest : Tree)
  deriving DecidableEq, Repr

namespace Tree

/-- A tree as it is written. -/
def print : Tree → Text
  | done => []
  | literal text rest => text ++ rest.print
  | whenHolds condition valid rest =>
    Tag.opening.text ++ condition ++ Tag.close ++ valid.print ++ Tag.closing.text ++ rest.print
  | choose condition valid invalid rest =>
    Tag.opening.text ++ condition ++ Tag.close ++ valid.print ++
      Tag.alternative.text ++ invalid.print ++ Tag.closing.text ++ rest.print

/-- Whether a text can be a condition that `Tag.close` ends: it has no brace that opens a tag
and does not hold `Tag.close` itself. -/
def IsPlainCondition (condition : Text) : Prop :=
  '{' ∉ condition ∧ ¬Tag.close <:+: condition

/-- Whether no tag can be found in the literal texts and conditions of a tree. -/
def IsPlain : Tree → Prop
  | done => True
  | literal text rest => '{' ∉ text ∧ rest.IsPlain
  | whenHolds condition valid rest => IsPlainCondition condition ∧ valid.IsPlain ∧ rest.IsPlain
  | choose condition valid invalid rest =>
    IsPlainCondition condition ∧ valid.IsPlain ∧ invalid.IsPlain ∧ rest.IsPlain

/-- The conditions of a tree, each before those inside its directive, with the offsets of their
tags in the printed tree; `offset` is that of the tree itself. -/
def conditionsFrom (offset : Nat) : Tree → List (Nat × Text)
  | done => []
  | literal text rest => rest.conditionsFrom (offset + text.length)
  | whenHolds condition valid rest =>
    let inside := offset + Tag.opening.text.length + condition.length + Tag.close.length
    (offset, condition) :: valid.conditionsFrom inside ++
      rest.conditionsFrom (inside + valid.print.length + Tag.closing.text.length)
  | choose condition valid invalid rest =>
    let inside := offset + Tag.opening.text.length + condition.length + Tag.close.length
    let other := inside + valid.print.length + Tag.alternative.text.length
    (offset, condition) :: valid.conditionsFrom inside ++ invalid.conditionsFrom other ++
      rest.conditionsFrom (other + invalid.print.length + Tag.closing.text.length)

/-- The literal runs of a tree in order, neighbouring literal texts taken together; `run` is the
text that the tree's first literal text goes on with. -/
def runsFrom (run : Text) : Tree → List Text
  | done => [run]
  | literal text rest => rest.runsFrom (run ++ text)
  | whenHolds _ valid rest => run :: valid.runsFrom [] ++ rest.runsFrom []
  | choose _ valid invalid rest =>
    run :: valid.runsFrom [] ++ invalid.runsFrom [] ++ rest.runsFrom []

/-- Whether nothing follows. -/
def isDone : Tree → Bool
  | done => true
  | _ => false

/-- Whether a tree is empty or ends in a literal text that is not, so that dropping the last
character of what is printed drops one of a literal text. -/
def EndsInText : Tree → Prop
  | done => True
  | literal text done => text ≠ []
  | literal _ rest => rest.EndsInText ∧ rest ≠ done
  | whenHolds _ _ rest => rest.EndsInText ∧ rest ≠ done
  | choose _ _ _ rest => rest.EndsInText ∧ rest ≠ done

/-- Whether the branch before every `else` tag of a tree is empty or ends in a literal text. -/
def ElsesFollowText : Tree → Prop
  | done => True
  | literal _ rest => rest.ElsesFollowText
  | whenHolds _ valid rest => valid.ElsesFollowText ∧ rest.ElsesFollowText
  | choose _ valid invalid rest =>
    valid.EndsInText ∧ valid.ElsesFollowText ∧ invalid.ElsesFollowText ∧ rest.ElsesFollowText

end Tree

end Template

end SqlTemplate
