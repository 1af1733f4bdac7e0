import SqlTemplate.Template.Tag

/-!
# The first directive of a text

`Block.extract?` takes a text apart around its first directive: what stands before it, its
condition, its two branches and what stands after it. With `trim`, the character right before
the `if` tag and the one right before the dividing `else` tag are dropped too, so that a
directive on a line of its own takes its line break with it.

`conditions` lists the condition of every `if` tag, nested or not, with the tag's offset.
-/

namespace SqlTemplate

namespace Template

/-- A text taken apart around its first directive. -/
structure Block where
  /-- The text before the directive. -/
  before : Text
  /-- The condition, with the blanks around it. -/
  condition : Text
  /-- The branch for a condition that holds. -/
  valid : Text
  /-- The branch for one that does not; empty without an `else` tag. -/
  invalid : Text
  /-- The text after the directive. -/
  after : Text
  deriving DecidableEq, Repr

namespace Block

/-- The characters before an offset, without the last of them when trimming. -/
def cutBefore (trim : Bool) (text : Text) (offset : Nat) : Text :=
  text.take (if trim then offset - 1 else offset)

/-- The two branches of a directive's body. -/
def branches (trim : Bool) (body : Text) : Text × Text :=
  match findElse body 0 with
  | none => (body, [])
  | some offset => (cutBefore trim body offset, body.drop (offset + Tag.alternative.text.length))

/-- Takes a text apart around its first directive. There is none when the text has no `if` tag,
or when its first one is never closed or does not end its condition before its closer. -/
def extract? (trim : Bool) (text : Text) : Option Block := do
  let span ← findSpan text 0
  let conditionEnd ← text.findFrom? Tag.close (span.openOffset + 1)
  let bodyStart := conditionEnd + Tag.close.length
  if span.closeOffset < bodyStart then none
  else
    let (valid, invalid) := branches trim (text.slice bodyStart span.closeOffset)
    return {
      before := cutBefore trim text span.openOffset
      condition := text.slice (span.openOffset + Tag.opening.text.length) conditionEnd
      valid := valid
      invalid := invalid
      after := text.drop (span.closeOffset + Tag.closing.text.length) }

/-- The text in which a directive is replaced by its branch for a condition that holds or not. -/
def resolve (block : Block) (holds : Bool) : Text :=
  block.before ++ (if holds then block.valid else block.invalid) ++ block.after

theorem length_cutBefore_le (trim : Bool) (text : Text) (offset : Nat) :
    (cutBefore trim text offset).length ≤ offset := by
  simp only [cutBefore, List.length_take]
  split <;> omega

theorem length_branches_le (trim : Bool) (body : Text) :
    (branches trim body).1.length ≤ body.length ∧ (branches trim body).2.length ≤ body.length := by
  simp only [branches]
  split
  · simp
  · simp only [cutBefore, List.length_take, List.length_drop]
    split <;> omega

/-- Resolving a directive makes a text shorter. -/
theorem length_resolve_lt {trim : Bool} {text : Text} {block : Block}
    (h : extract? trim text = some block) (holds : Bool) :
    (block.resolve holds).length < text.length := by
  simp only [extract?, findSpan, Option.bind_eq_bind, Option.bind_eq_some_iff, Option.pure_def,
    Option.some.injEq] at h
  obtain ⟨_, ⟨opened, hOpen, closed, hClose, rfl⟩, stop, hStop, h⟩ := h
  have hStop := (Text.findFrom?_bounds hStop).1
  have hClose := closer?_bounds hClose
  split at h
  · simp at h
  · simp only [Option.some.injEq] at h
    subst h
    have hBody := length_branches_le trim (text.slice (stop + Tag.close.length) closed)
    have hBefore := length_cutBefore_le trim text opened
    simp only [Text.slice, List.length_drop, List.length_take, Tag.close, List.length_cons,
      List.length_nil] at *
    cases holds <;>
      simp only [resolve, List.length_append, List.length_drop, Tag.text, List.length_cons,
        List.length_nil, if_true, Bool.false_eq_true, if_false] <;>
      omega

end Block

/-- The conditions of all `if` tags that are ended by `Tag.close`, with the tags' offsets. -/
def conditions (text : Text) : List (Nat × Text) :=
  (occurrences text).filterMap fun (offset, tag) =>
    match tag with
    | .opening => (text.findFrom? Tag.close (offset + 1)).map fun stop =>
        (offset, text.slice (offset + Tag.opening.text.length) stop)
    | _ => none

end Template

end SqlTemplate
