import SqlTemplate.Proofs.Condition.Printed
import SqlTemplate.Proofs.Condition.Stumbling
import SqlTemplate.Proofs.Engine.Steps

/-!
# When rendering gives a text

A malformed template stays as it is and a condition that fails does not hold, so most of what can go
wrong leaves a text. What does not is a fault that escapes: one of a condition that a rendering
comes to (`Rendering.Stumbles`), or one of a key that is an integer of too many digits or holds one.
**Rendering gives a text, and a condition has an outcome, in all other cases and only in these**
(`Engine.renders_iff_not_stumbles`). That it gives one always is not so: a signaling NaN that is
compared stops it (`Engine.not_renders_always`).
-/

namespace SqlTemplate

namespace Rendering

/-- Whether a rendering comes to a condition that stumbles. -/
inductive Stumbles (trim : Bool) (env : Environment) (room : Nat) : Text → Prop where
  /-- At the first directive. -/
  | here {text : Text} {block : Template.Block} :
    Template.Block.extract? trim text = some block →
    Condition.Stumbles env block.condition (room - 1) → Stumbles trim env room text
  /-- In what the first directive leaves. -/
  | later {text : Text} {block : Template.Block} {o : Condition.Outcome} :
    Template.Block.extract? trim text = some block →
    Condition.outcome env block.condition (room - 1) = .ok o →
    Stumbles trim env room (block.resolve o.holds) → Stumbles trim env room text

/-- **A rendering comes to an end if and only if it does not stumble.** -/
theorem exists_result_iff (trim : Bool) (env : Environment) (room : Nat) (text : Text) :
    (∃ result, (render trim env text room).result = .ok result) ↔ ¬Stumbles trim env room text := by
  induction hn : text.length using Nat.strongRecOn generalizing text with
  | _ n ih =>
    subst hn
    cases hBlock : Template.Block.extract? trim text with
    | none =>
      rw [render_of_extract?_none hBlock]
      refine iff_of_true ⟨text, rfl⟩ fun h => ?_
      cases h with
      | here h _ | later h _ _ => cases hBlock.symm.trans h
    | some block =>
      rw [render_of_extract? hBlock, branch]
      cases hOutcome : Condition.outcome env block.condition (room - 1) with
      | error fault =>
        have hStumbles : Condition.Stumbles env block.condition (room - 1) := by
          rw [← Classical.not_not (a := Condition.Stumbles env block.condition (room - 1)),
            ← Condition.exists_outcome_iff, hOutcome]
          exact not_exists_error_eq_ok
        exact iff_of_false not_exists_error_eq_ok (not_not_intro (.here hBlock hStumbles))
      | ok o =>
        refine (ih _ (Template.Block.length_resolve_lt hBlock o.holds) _ rfl).trans
          (not_congr ⟨.later hBlock hOutcome, fun h => ?_⟩)
        cases h with
        | here hFirst hStumbles =>
          cases hBlock.symm.trans hFirst
          exact absurd hStumbles ((Condition.exists_outcome_iff env _ _).mp ⟨o, hOutcome⟩)
        | later hFirst hOther h =>
          cases hBlock.symm.trans hFirst
          cases hOutcome.symm.trans hOther
          exact h

end Rendering

namespace Engine

/-- **An engine renders a text to a text if and only if every key can be written and no condition
that the rendering comes to stumbles; a condition that is evaluated by itself has an outcome if and
only if it does not stumble.** -/
theorem renders_iff_not_stumbles (engine : Engine) (text : Text) (bindings : Bindings)
    (room : Nat) :
    ((∃ rendering result, engine.render (.text text) bindings room = .ok rendering ∧
        rendering.result = .ok result) ↔
      (∀ entry ∈ bindings, ¬entry.1.HoldsLongInteger) ∧
      ∀ env, engine.globals.merged bindings = .ok env →
        ¬Rendering.Stumbles engine.trim env (room - 1) text) ∧
    ∀ env condition, (∃ o, Condition.outcome env condition room = .ok o) ↔
      ¬Condition.Stumbles env condition room := by
  refine ⟨?_, fun env condition => Condition.exists_outcome_iff env condition room⟩
  rw [render_text, ← Environment.exists_merged_iff engine.globals]
  cases engine.globals.merged bindings with
  | error fault =>
    refine iff_of_false ?_ fun h => ?_
    · rintro ⟨_, _, h, -⟩
      cases h
    · obtain ⟨⟨_, h⟩, -⟩ := h
      cases h
  | ok env =>
    rw [and_iff_right ⟨env, rfl⟩]
    constructor
    · rintro ⟨_, result, h, hResult⟩ env' hEnv
      cases h
      cases hEnv
      exact (Rendering.exists_result_iff engine.trim env (room - 1) text).mp ⟨result, hResult⟩
    · intro h
      obtain ⟨result, hResult⟩ :=
        (Rendering.exists_result_iff engine.trim env (room - 1) text).mpr (h env rfl)
      exact ⟨_, result, rfl, hResult⟩

/-! ### A NaN that is compared -/

/-- Global bindings with a signaling NaN. -/
def signalingGlobals : Environment := ⟨[(['a'], .number (.decimal (.nan false true 0 0)))]⟩

/-- A comparison with the NaN. -/
def comparison : Condition.Expr := .binary .eq (.variable ['a']) (.literal (.number (.int 1)))

theorem print_comparison :
    comparison.print (fun _ => .single) = ['$', 'a', ' ', '=', '=', ' ', '1'] := by
  decide

/-- The comparison stumbles wherever it can be read. -/
theorem stumbles_comparison {room : Nat} (hRoom : 44 ≤ room) :
    Condition.Stumbles signalingGlobals (comparison.print fun _ => .single) room := by
  obtain ⟨more, rfl⟩ := Nat.exists_eq_add_of_le' hRoom
  have hWritable : (Text.writeInt 1).isOk := by decide +kernel
  have hLeaves : comparison.HasWritableLeaves := ⟨⟨by decide, by decide⟩, by decide, hWritable⟩
  have hShort : 10 * (comparison.tokensAt 0).length + 13 ≤ more + 44 - 1 := by
    show 10 * 3 + 13 ≤ more + 44 - 1
    omega
  obtain ⟨c, hCompile, hRoot⟩ :=
    Condition.exists_compile_print_eq_ok (fun _ => .single) hLeaves hShort
  have hStumbles : comparison.Stumbles signalingGlobals (more + 41 + 1) :=
    .binary rfl rfl rfl (.values rfl rfl (.numbers rfl rfl (.inl rfl)))
  exact ⟨c, hCompile, hRoot ▸ hStumbles⟩

/-- A template with the comparison. -/
def comparingTree : Template.Tree :=
  .whenHolds (comparison.print fun _ => .single) (.literal ['x'] .done) .done

theorem stumbles_comparingTree (trim : Bool) {room : Nat} (hRoom : 45 ≤ room) :
    Rendering.Stumbles trim signalingGlobals room comparingTree.print := by
  have hCondition : Template.Tree.IsPlainCondition (comparison.print fun _ => .single) := by
    rw [print_comparison]
    exact ⟨by decide, by decide⟩
  have hValid : (Template.Tree.literal ['x'] .done).IsPlain := ⟨by decide, trivial⟩
  rw [comparingTree, Template.Tree.print_whenHolds]
  exact .here (Template.Block.extract?_whenHolds List.not_mem_nil hCondition hValid trim [])
    (stumbles_comparison (by omega))

/-- Neither rendering a template nor evaluating a condition always comes to a result. -/
theorem not_renders_always :
    (¬∀ (engine : Engine) (text : Text) (bindings : Bindings), ∃ rendering result,
      engine.render (.text text) bindings Condition.usualRoom = .ok rendering ∧
        rendering.result = .ok result) ∧
    ¬∀ (env : Environment) (condition : Text),
      ∃ o, Condition.outcome env condition Condition.usualRoom = .ok o := by
  refine ⟨fun h => ?_, fun h => ?_⟩
  · obtain ⟨rendering, result, hRender, hResult⟩ :=
      h ⟨signalingGlobals, true, false⟩ comparingTree.print []
    cases hRender
    exact (Rendering.exists_result_iff _ _ _ _).mp ⟨result, hResult⟩
      (stumbles_comparingTree true (by decide))
  · exact (Condition.exists_outcome_iff _ _ _).mp (h _ _) (stumbles_comparison (by decide))

end Engine

end SqlTemplate
