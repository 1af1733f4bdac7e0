import SqlTemplate.Engine.Basic
import SqlTemplate.Engine.TreeRendering
import SqlTemplate.Proofs.Template.Printed

/-!
# A rendering step by step

A rendering evaluates the condition of the first directive, puts the chosen branch in its place
and goes on (`render_of_extract?`). Here is this step for a text that begins with a directive of a
printed tree, whatever stands behind it, and how `Rendering.append` and `Rendering.branch` go
together.
-/

namespace SqlTemplate

namespace Rendering

/-! ### Renderings one behind the other -/

@[simp] theorem ofText_append_ofText (first second : Text) :
    (ofText first).append (ofText second) = ofText (first ++ second) := rfl

@[simp] theorem ofText_nil_append (r : Rendering) : (ofText []).append r = r := by
  obtain ⟨trace, result⟩ := r
  cases result <;> rfl

@[simp] theorem append_ofText_nil (r : Rendering) : r.append (ofText []) = r := by
  obtain ⟨trace, result⟩ := r
  cases result with
  | error fault => rfl
  | ok text => simp [append, ofText, Except.map]

theorem append_assoc (a b c : Rendering) : (a.append b).append c = a.append (b.append c) := by
  obtain ⟨traceA, resultA⟩ := a
  obtain ⟨traceB, resultB⟩ := b
  obtain ⟨traceC, resultC⟩ := c
  cases resultA with
  | error fault => rfl
  | ok textA =>
    cases resultB with
    | error fault => rfl
    | ok textB => cases resultC <;> simp [append, Except.map]

theorem branch_append (env : Environment) (room : Nat) (condition : Text)
    (next : Bool → Rendering) (r : Rendering) :
    (branch env room condition next).append r = branch env room condition fun holds =>
      (next holds).append r := by
  simp only [branch]
  cases Condition.outcome env condition (room - 1) with
  | error fault => rfl
  | ok o =>
    simp only [append]
    generalize next o.holds = chosen
    obtain ⟨trace, result⟩ := chosen
    cases result <;> rfl

theorem ofText_append_branch (text : Text) (env : Environment) (room : Nat) (condition : Text)
    (next : Bool → Rendering) :
    (ofText text).append (branch env room condition next) = branch env room condition fun holds =>
      (ofText text).append (next holds) := by
  simp only [branch]
  cases Condition.outcome env condition (room - 1) <;> rfl

/-- A rendering that comes to an end has evaluated its first condition and come to an end with
what that led to. -/
theorem exists_of_branch_eq_ok {env : Environment} {room : Nat} {condition text : Text}
    {next : Bool → Rendering} (h : (branch env room condition next).result = .ok text) :
    ∃ o, Condition.outcome env condition (room - 1) = .ok o ∧ (next o.holds).result = .ok text := by
  rw [branch] at h
  cases hOutcome : Condition.outcome env condition (room - 1) with
  | error fault =>
    rw [hOutcome] at h
    cases h
  | ok o =>
    rw [hOutcome] at h
    exact ⟨o, rfl, h⟩

/-! ### Steps -/

/-- Rendering evaluates the first directive and goes on with the chosen branch in its place, in
whatever way conditions are compiled. -/
theorem renderWith_of_extract? {m : Type → Type} [Monad m] (compiler : Condition.Compiler m)
    {trim : Bool} {text : Text} {block : Template.Block}
    (h : Template.Block.extract? trim text = some block) (env : Environment) (room : Nat) :
    renderWith compiler trim env text room = (do
      let outcome ← Condition.outcomeWith compiler env block.condition (room - 1)
      match outcome with
      | .error fault => return ⟨[⟨block.condition, outcome⟩], .error fault⟩
      | .ok o =>
        let rest ← renderWith compiler trim env (block.resolve o.holds) room
        return ⟨⟨block.condition, outcome⟩ :: rest.trace, rest.result⟩) := by
  rw [renderWith]
  split
  next h' => cases h.symm.trans h'
  next block' h' =>
    cases h.symm.trans h'
    rfl

/-- Rendering ends when no directive is left. -/
theorem renderWith_of_extract?_none {m : Type → Type} [Monad m] (compiler : Condition.Compiler m)
    {trim : Bool} {text : Text} (h : Template.Block.extract? trim text = none)
    (env : Environment) (room : Nat) :
    renderWith compiler trim env text room = pure (ofText text) := by
  rw [renderWith]
  split
  · rfl
  next block h' => cases h.symm.trans h'

theorem render_of_extract? {trim : Bool} {text : Text} {block : Template.Block}
    (h : Template.Block.extract? trim text = some block) (env : Environment) (room : Nat) :
    render trim env text room = branch env room block.condition fun holds =>
      render trim env (block.resolve holds) room := by
  rw [render, renderWith_of_extract? _ h]
  simp only [branch, Condition.outcome]
  cases Condition.outcomeWith (m := Id) @Condition.compile env block.condition (room - 1) <;> rfl

theorem render_of_extract?_none {trim : Bool} {text : Text}
    (h : Template.Block.extract? trim text = none) (env : Environment) (room : Nat) :
    render trim env text room = ofText text :=
  renderWith_of_extract?_none (m := Id) @Condition.compile h env room

theorem render_of_notMem {text : Text} (h : '{' ∉ text) (trim : Bool) (env : Environment)
    (room : Nat) : render trim env text room = ofText text :=
  render_of_extract?_none (Template.Block.extract?_of_notMem h trim) env room

open Template (directive)

variable {front condition : Text} {valid invalid : Template.Tree}

/-- The step at a directive without an `else` tag. -/
theorem render_whenHolds (hFront : '{' ∉ front)
    (hCondition : Template.Tree.IsPlainCondition condition) (hValid : valid.IsPlain) (trim : Bool)
    (env : Environment) (room : Nat) (rest : Text) :
    render trim env (front ++ directive condition valid.print rest) room =
      branch env room condition fun holds =>
        render trim env ((if trim then front.dropLast else front) ++
          ((if holds then valid.print else []) ++ rest)) room := by
  rw [render_of_extract? (Template.Block.extract?_whenHolds hFront hCondition hValid trim rest)]
  simp only [Template.Block.resolve, List.append_assoc]

/-- The step at a directive with an `else` tag. -/
theorem render_choose (hFront : '{' ∉ front)
    (hCondition : Template.Tree.IsPlainCondition condition) (hValid : valid.IsPlain)
    (hInvalid : invalid.IsPlain) (trim : Bool) (env : Environment) (room : Nat) (rest : Text) :
    render trim env (front ++
      directive condition (valid.print ++ (Tag.alternative.text ++ invalid.print)) rest) room =
      branch env room condition fun holds =>
        render trim env ((if trim then front.dropLast else front) ++
          ((if holds then if trim then valid.print.dropLast else valid.print
            else invalid.print) ++ rest)) room := by
  rw [render_of_extract?
    (Template.Block.extract?_choose hFront hCondition hValid hInvalid trim rest)]
  simp only [Template.Block.resolve, List.append_assoc]

end Rendering

namespace Engine

/-- An engine renders a text in its global bindings with the given ones laid over them. -/
theorem render_text (engine : Engine) (text : Text) (bindings : Bindings) (room : Nat) :
    engine.render (.text text) bindings room =
      match engine.globals.merged bindings with
      | .error fault => .error (.fault fault)
      | .ok env => .ok (Rendering.render engine.trim env text (room - 1)) := by
  simp only [render, renderWith, Value.text?]
  cases engine.globals.merged bindings <;> rfl

end Engine

end SqlTemplate
