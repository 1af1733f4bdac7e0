import SqlTemplate.Proofs.Engine.Torn
import SqlTemplate.Proofs.Template.Extraction

/-!
# How a rendering ends

Resolving a directive can join what stood apart to new tags, so the number of tags need not fall
with a step (`joiningText`). But a step only deletes characters, and among them an opening tag, the
end of its condition and a closing tag, which never overlap: nineteen characters at least
(`Block.length_resolve_add_le`). So **a rendering ends, behind no more steps than a nineteenth of
the length of its text** (`Rendering.resolves_at_most`).

What has been rendered has no directive that could be resolved, with trimming or without, so **it is
rendered to itself** (`Engine.render_rendered`).
-/

namespace SqlTemplate

namespace Template

namespace Block

variable {trim : Bool} {text front body : Text} {block : Block}

/-! ### What a step deletes -/

theorem Splits.before_sublist (h : Splits trim text front body block) :
    block.before.Sublist front := by
  rw [h.before]
  split
  · exact List.dropLast_sublist front
  · exact List.Sublist.refl front

/-- Each branch stands in the body. -/
theorem Splits.branch_sublist (h : Splits trim text front body block) (holds : Bool) :
    (if holds then block.valid else block.invalid).Sublist body := by
  have hBranches := h.branches
  rcases branches_cases trim body with ⟨-, hNone⟩ | ⟨valid, invalid, rfl, -, hSome⟩
  · rw [hNone, Prod.mk.injEq] at hBranches
    rw [← hBranches.1, ← hBranches.2]
    cases holds with
    | true => exact List.Sublist.refl body
    | false => exact List.nil_sublist body
  · rw [hSome, Prod.mk.injEq] at hBranches
    rw [← hBranches.1, ← hBranches.2]
    cases holds with
    | true =>
      have hValid : (if trim then valid.dropLast else valid).Sublist valid := by
        split
        · exact List.dropLast_sublist valid
        · exact List.Sublist.refl valid
      exact hValid.trans (List.sublist_append_left _ _)
    | false =>
      exact (List.sublist_append_right _ _).trans (List.sublist_append_right _ _)

/-- **A step deletes characters and does nothing else.** -/
theorem resolve_sublist (h : extract? trim text = some block) (holds : Bool) :
    (block.resolve holds).Sublist text := by
  obtain ⟨front, body, hSplits⟩ := exists_splits h
  have hAfter : block.after.Sublist (Tag.closing.text ++ block.after) :=
    List.sublist_append_right _ _
  have hRest : ((if holds then block.valid else block.invalid) ++ block.after).Sublist
      (directive block.condition body block.after) := by
    refine ((hSplits.branch_sublist holds).append hAfter).trans ?_
    rw [directive]
    refine List.Sublist.trans ?_ (List.sublist_append_right _ _)
    exact (List.sublist_append_right _ _).trans (List.sublist_append_right _ _)
  rw [hSplits.text_eq, resolve, List.append_assoc]
  exact hSplits.before_sublist.append hRest

/-- **A step deletes an opening tag, the end of its condition and a closing tag at least.** -/
theorem length_resolve_add_le (h : extract? trim text = some block) (holds : Bool) :
    (block.resolve holds).length + 19 ≤ text.length := by
  obtain ⟨front, body, hSplits⟩ := exists_splits h
  have hBefore := hSplits.before_sublist.length_le
  have hBranch := (hSplits.branch_sublist holds).length_le
  have hMarkup : Tag.opening.text.length + Tag.close.length + Tag.closing.text.length = 19 := rfl
  rw [hSplits.text_eq, resolve]
  simp only [directive, List.length_append]
  omega

/-- Whether there is a directive to be resolved does not depend on trimming. -/
theorem extract?_eq_none_iff (trim trim' : Bool) (text : Text) :
    extract? trim text = none ↔ extract? trim' text = none := by
  simp only [extract?, Option.bind_eq_bind, Option.bind_eq_none_iff, ite_eq_left_iff,
    Option.pure_def, reduceCtorEq, imp_false]

end Block

end Template

namespace Rendering

open Template (Block directive)

/-! ### Steps and runs -/

/-- The text in which the first directive is resolved, if there is one whose condition has an
outcome. -/
def next? (trim : Bool) (env : Environment) (room : Nat) (text : Text) : Option Text := do
  let block ← Block.extract? trim text
  let o ← (Condition.outcome env block.condition (room - 1)).toOption
  return block.resolve o.holds

/-- The text in which so many directives are resolved, one after another, if a rendering comes so
far. -/
def textAfter (trim : Bool) (env : Environment) (room : Nat) : Nat → Text → Option Text
  | 0, text => some text
  | k + 1, text => do textAfter trim env room k (← next? trim env room text)

variable {trim : Bool} {env : Environment} {room : Nat} {text left : Text}

theorem next?_of_extract? {block : Block} (h : Block.extract? trim text = some block) :
    next? trim env room text =
      (Condition.outcome env block.condition (room - 1)).toOption.map
        fun o => block.resolve o.holds := by
  rw [next?, h, Option.map_eq_bind]
  rfl

theorem next?_of_extract?_none (h : Block.extract? trim text = none) :
    next? trim env room text = none := by
  rw [next?, h]
  rfl

theorem exists_of_next? (h : next? trim env room text = some left) :
    ∃ block o, Block.extract? trim text = some block ∧
      Condition.outcome env block.condition (room - 1) = .ok o ∧ block.resolve o.holds = left := by
  cases hBlock : Block.extract? trim text with
  | none =>
    rw [next?_of_extract?_none hBlock] at h
    cases h
  | some block =>
    rw [next?_of_extract? hBlock] at h
    cases hOutcome : Condition.outcome env block.condition (room - 1) with
    | error fault =>
      rw [hOutcome] at h
      cases h
    | ok o =>
      rw [hOutcome] at h
      exact ⟨block, o, rfl, hOutcome, Option.some.inj h⟩

/-- What is left after some steps is the text with some characters deleted, nineteen for each step
at least. -/
theorem sublist_of_textAfter {k : Nat} (h : textAfter trim env room k text = some left) :
    left.Sublist text ∧ left.length + 19 * k ≤ text.length := by
  induction k generalizing text with
  | zero =>
    cases h
    exact ⟨List.Sublist.refl _, Nat.le_refl _⟩
  | succ k ih =>
    rw [textAfter, Option.bind_eq_bind, Option.bind_eq_some_iff] at h
    obtain ⟨between, hNext, hLeft⟩ := h
    obtain ⟨block, o, hBlock, -, rfl⟩ := exists_of_next? hNext
    obtain ⟨hSublist, hLength⟩ := ih hLeft
    have hStep := Block.length_resolve_add_le hBlock o.holds
    exact ⟨hSublist.trans (Block.resolve_sublist hBlock o.holds), by omega⟩

/-- Whether a rendering is what comes of so many steps with a text left: no directive is left in it,
or a fault escapes from the condition of its first one. -/
def EndsAfter (trim : Bool) (env : Environment) (room steps : Nat) (left : Text)
    (r : Rendering) : Prop :=
  (Block.extract? trim left = none ∧ r.result = .ok left ∧ r.trace.length = steps) ∨
    ∃ block fault, Block.extract? trim left = some block ∧
      Condition.outcome env block.condition (room - 1) = .error fault ∧
      r.result = .error fault ∧ r.trace.length = steps + 1

/-- A rendering ends behind some steps. -/
theorem exists_endsAfter (trim : Bool) (env : Environment) (room : Nat) (text : Text) :
    ∃ k left, textAfter trim env room k text = some left ∧ next? trim env room left = none ∧
      EndsAfter trim env room k left (render trim env text room) := by
  induction hn : text.length using Nat.strongRecOn generalizing text with
  | _ n ih =>
    subst hn
    cases hBlock : Block.extract? trim text with
    | none =>
      rw [render_of_extract?_none hBlock]
      exact ⟨0, text, rfl, next?_of_extract?_none hBlock, .inl ⟨hBlock, rfl, rfl⟩⟩
    | some block =>
      have hNext := @next?_of_extract? trim env room text block hBlock
      rw [render_of_extract? hBlock, branch]
      cases hOutcome : Condition.outcome env block.condition (room - 1) with
      | error fault =>
        rw [hOutcome] at hNext
        exact ⟨0, text, rfl, hNext, .inr ⟨block, fault, hBlock, hOutcome, rfl, rfl⟩⟩
      | ok o =>
        rw [hOutcome] at hNext
        obtain ⟨k, left, hLeft, hLast, hEnds⟩ :=
          ih _ (Block.length_resolve_lt hBlock o.holds) _ rfl
        refine ⟨k + 1, left, ?_, hLast, ?_⟩
        · rw [textAfter, hNext]
          exact hLeft
        · obtain ⟨hNone, hResult, hTrace⟩ |
            ⟨block', fault, hBlock', hFault, hResult, hTrace⟩ := hEnds
          · exact .inl ⟨hNone, hResult, congrArg (· + 1) hTrace⟩
          · exact .inr ⟨block', fault, hBlock', hFault, hResult, congrArg (· + 1) hTrace⟩

/-- **A rendering deletes characters only, nineteen with each directive at least, so it resolves no
more directives than a nineteenth of the length of its text, and then it ends.** -/
theorem resolves_at_most (trim : Bool) (env : Environment) (room : Nat) (text : Text) :
    (∀ k left, textAfter trim env room k text = some left →
      left.Sublist text ∧ left.length + 19 * k ≤ text.length ∧ k ≤ text.length / 19) ∧
    ∃ k left, textAfter trim env room k text = some left ∧ next? trim env room left = none ∧
      EndsAfter trim env room k left (render trim env text room) := by
  refine ⟨fun k left hLeft => ?_, exists_endsAfter trim env room text⟩
  obtain ⟨hSublist, hLength⟩ := sublist_of_textAfter hLeft
  have hSteps : k ≤ text.length / 19 := by
    rw [Nat.le_div_iff_mul_le (by decide)]
    omega
  exact ⟨hSublist, hLength, hSteps⟩

/-- A directive between the pieces of an opening and of a closing tag. -/
def joiningText : Text :=
  ['{', '%', ' '] ++ directive ['a'] ['i', 'f', ' ', 'b', '%', '}', '{', '%', ' ']
    ['e', 'n', 'd', 'i', 'f', ' ', '%', '}']

/-- The directive that the pieces are joined to. -/
def joinedText : Text := directive ['b'] [] []

/-- The first step leaves as many tags as there were, and deletes nineteen characters all the
same. -/
theorem resolves_at_most_joining :
    textAfter false ⟨[(['a'], .bool true)]⟩ Condition.usualRoom 1 joiningText = some joinedText ∧
    (Template.occurrences joinedText).length = (Template.occurrences joiningText).length ∧
    joinedText.Sublist joiningText ∧ joinedText.length + 19 * 1 ≤ joiningText.length ∧
    1 ≤ joiningText.length / 19 := by
  have hBlock : Block.extract? false joiningText = some {
      before := ['{', '%', ' ']
      condition := ['a']
      valid := ['i', 'f', ' ', 'b', '%', '}', '{', '%', ' ']
      invalid := []
      after := ['e', 'n', 'd', 'i', 'f', ' ', '%', '}'] } := by decide +kernel
  have hStep : textAfter false ⟨[(['a'], .bool true)]⟩ Condition.usualRoom 1 joiningText =
      some joinedText := by
    rw [textAfter, next?_of_extract? hBlock,
      Condition.outcome_name ⟨List.cons_ne_nil _ _, rfl⟩ rfl (by decide)]
    rfl
  exact ⟨hStep, by decide, (resolves_at_most false _ _ joiningText).1 1 joinedText hStep⟩

/-- No directive that could be resolved is left in what a rendering comes to. -/
theorem extract?_of_result {result : Text} (h : (render trim env text room).result = .ok result)
    (trim' : Bool) : Block.extract? trim' result = none := by
  obtain ⟨k, left, -, -, hEnds⟩ := exists_endsAfter trim env room text
  obtain ⟨hNone, hResult, -⟩ | ⟨_, _, _, _, hFault, _⟩ := hEnds
  · cases h.symm.trans hResult
    exact (Block.extract?_eq_none_iff trim trim' result).mp hNone
  · cases h.symm.trans hFault

end Rendering

namespace Engine

/-- **What an engine has rendered, every engine renders to itself and evaluates nothing**, whatever
its bindings, whether it trims and how much room there is. Only bindings whose names cannot be
written keep it from beginning. -/
theorem render_rendered {engine : Engine} {text result : Text} {bindings : Bindings}
    {rendering : Rendering} {room : Nat}
    (h : engine.render (.text text) bindings room = .ok rendering)
    (hResult : rendering.result = .ok result) (other : Engine) (bindings' : Bindings)
    (room' : Nat) :
    other.render (.text result) bindings' room' =
      match other.globals.merged bindings' with
      | .error fault => .error (.fault fault)
      | .ok _ => .ok ⟨[], .ok result⟩ := by
  rw [render_text] at h
  cases hEnv : engine.globals.merged bindings with
  | error fault =>
    rw [hEnv] at h
    cases h
  | ok env =>
    rw [hEnv] at h
    cases h
    have hNone := Rendering.extract?_of_result hResult other.trim
    rw [render_text]
    cases other.globals.merged bindings' with
    | error fault => rfl
    | ok env' => exact congrArg Except.ok (Rendering.render_of_extract?_none hNone env' (room' - 1))

/-- A torn directive stays when it is rendered without trimming and with other bindings. -/
theorem render_rendered_nestedResult :
    trimmingEngine.render (.text nestedTree.print) [] = .ok
      ⟨[⟨['a'], .ok (.evaluated true)⟩], .ok nestedResult⟩ ∧
    (Engine.mk ⟨[]⟩ false true).render (.text nestedResult) [(.text ['a'], .bool false)] =
      .ok ⟨[], .ok nestedResult⟩ :=
  ⟨render_nestedTree, render_rendered render_nestedTree rfl _ _ _⟩

end Engine

end SqlTemplate
