import SqlTemplate.Text.Search

/-!
# Directive tags and their nesting

A template is a text in which three tags stand for structure: the `if` tag opens a directive,
the `else` tag divides its body, the `endif` tag closes it. There is no escape, so a tag inside
quoted text is a tag. This module finds the tags of a text (`occurrences`), the tag that closes
an opener (`closerFrom?`, `matchEndif`), the first directive (`findSpan`) and the `else` tag
that divides a body (`findElse`). An offset is good only for the text in which it was found.
-/

namespace SqlTemplate

/-- The three tags that give a template its structure. -/
inductive Tag where
  /-- Opens a directive; the condition follows, up to `Tag.close`. -/
  | opening
  /-- Divides the body of a directive. -/
  | alternative
  /-- Closes a directive. -/
  | closing
  deriving DecidableEq, Repr

namespace Tag

/-- How a tag is written; of the opening tag, the part before its condition. -/
def text : Tag → Text
  | opening => ['{', '%', ' ', 'i', 'f', ' ']
  | alternative => ['{', '%', ' ', 'e', 'l', 's', 'e', ' ', '%', '}']
  | closing => ['{', '%', ' ', 'e', 'n', 'd', 'i', 'f', ' ', '%', '}']

/-- What ends a condition. -/
def close : Text := ['%', '}']

/-- The tag with which a text begins. -/
def ofText? (text : Text) : Option Tag :=
  if opening.text.isPrefixOf text then some opening
  else if alternative.text.isPrefixOf text then some alternative
  else if closing.text.isPrefixOf text then some closing
  else none

end Tag

namespace Template

/-- The tags of a text and their offsets, in order; `offset` is that of the first character. -/
def occurrencesFrom (offset : Nat) : Text → List (Nat × Tag)
  | [] => []
  | c :: rest =>
    match Tag.ofText? (c :: rest) with
    | some tag => (offset, tag) :: occurrencesFrom (offset + 1) rest
    | none => occurrencesFrom (offset + 1) rest

/-- The tags of a text and their offsets, in order. -/
def occurrences (text : Text) : List (Nat × Tag) := occurrencesFrom 0 text

/-- Offset of the `endif` tag that closes a directive entered `depth` openers ago: an opener
goes one deeper, a closer comes one up, and the closer at depth 0 is the answer. -/
def closerFrom? (depth offset : Nat) : Text → Option Nat
  | [] => none
  | c :: rest =>
    match Tag.ofText? (c :: rest), depth with
    | some .opening, depth => closerFrom? (depth + 1) (offset + 1) rest
    | some .closing, 0 => some offset
    | some .closing, depth + 1 => closerFrom? depth (offset + 1) rest
    | _, depth => closerFrom? depth (offset + 1) rest

/-- Offset of the tag that closes a directive whose body is looked for from `start` on. -/
def closer? (text : Text) (start : Nat) : Option Nat :=
  closerFrom? 0 start (text.drop start)

/-- Offset of the `endif` tag that closes the `if` tag at an offset: the search starts one
character after it, whatever stands there. -/
def matchEndif (text : Text) (ifOffset : Int) : Option Nat :=
  closer? text (text.resolveOffset (ifOffset + 1))

/-- Where a directive opens and where the tag that closes it stands. -/
structure Span where
  /-- Offset of the `if` tag. -/
  openOffset : Nat
  /-- Offset of the matching `endif` tag. -/
  closeOffset : Nat
  deriving DecidableEq, Repr

/-- The first directive that opens at or after `start`; nothing if that one is never closed. -/
def findSpan (text : Text) (start : Nat) : Option Span := do
  let openOffset ← text.findFrom? Tag.opening.text start
  let closeOffset ← closer? text (openOffset + 1)
  return ⟨openOffset, closeOffset⟩

/-- A closer found stands in the text that was searched. -/
theorem closerFrom?_bounds {depth offset n : Nat} {text : Text}
    (h : closerFrom? depth offset text = some n) : offset ≤ n ∧ n < offset + text.length := by
  induction text generalizing depth offset with
  | nil => simp [closerFrom?] at h
  | cons c rest ih =>
    simp only [closerFrom?] at h
    simp only [List.length_cons]
    split at h
    · have := ih h; omega
    · simp only [Option.some.injEq] at h; omega
    · have := ih h; omega
    · have := ih h; omega

theorem closer?_bounds {text : Text} {start n : Nat} (h : closer? text start = some n) :
    start ≤ n ∧ n < text.length := by
  have := closerFrom?_bounds h
  simp only [List.length_drop] at this
  omega

/-- Offset of the `else` tag at the outermost level of a directive's body, looked for from
`start` on. A directive nested before it is passed over as a whole, up to its own closer; a
nested directive that is never closed hides every `else` tag behind it. -/
def findElse (region : Text) (start : Nat) : Option Nat :=
  match region.findFrom? Tag.alternative.text start with
  | none => none
  | some elseOffset =>
    match opened : region.findFrom? Tag.opening.text start with
    | none => some elseOffset
    | some nested =>
      if elseOffset < nested then some elseOffset
      else
        match closed : closer? region (nested + 1) with
        | none => none
        | some nestedEnd =>
          have openedAfter := (Text.findFrom?_bounds opened).1
          have closedAfter := closer?_bounds closed
          findElse region (nestedEnd + 1)
termination_by region.length - start

end Template

end SqlTemplate
