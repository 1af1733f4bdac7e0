import SqlTemplate.Proofs.Condition.Calls
import SqlTemplate.Proofs.Engine.Substitution
import SqlTemplate.Proofs.Template.DocumentOrder
import SqlTemplate.Template.Parameters
import SqlTemplate.Template.Warning

/-!
# What is done to a template only compiles conditions

Whatever is done to a template by way of a cache, **is done by compiling conditions and nothing
else** (`ByCompiling`): a rendering with its trace (`byCompiling_renderWith`), the search for the
names that a template can read (`byCompiling_parametersWith`) and the warnings about it
(`byCompiling_checkWith`). A rendering compiles the conditions that it evaluates, where there is
room for fewer calls the further in it is begun; the other two compile all conditions of the
template. So a cache that is faithful for these conditions does not show in the answer, and any
cache is left as calls that compile texts one after another would leave it.
-/

namespace SqlTemplate

open Condition (Cache ByCompiling)

variable (size : Int) {room : Nat} {asked : Text → Prop}

namespace Rendering

/-- The conditions that a rendering has evaluated. -/
def conditions (r : Rendering) : List Text := r.trace.map (·.condition)

/-- A rendering evaluates the condition of the first directive, and then those in what this
leaves. -/
theorem mem_conditions_render {trim : Bool} {text : Text} {block : Template.Block}
    (h : Template.Block.extract? trim text = some block) {env : Environment} {source : Text} :
    source ∈ (render trim env text room).conditions ↔
      source = block.condition ∨
        ∃ o, Condition.outcome env block.condition (room - 1) = .ok o ∧
          source ∈ (render trim env (block.resolve o.holds) room).conditions := by
  rw [render_of_extract? h, branch]
  cases Condition.outcome env block.condition (room - 1) with
  | error fault => simp [conditions]
  | ok o => simp [conditions]

/-- The induction is on the length of the text, which each step makes shorter. -/
theorem byCompiling_renderWith (trim : Bool) (env : Environment) (text : Text)
    (h : ∀ source ∈ (render trim env text room).conditions, asked source) :
    ByCompiling size (room - 1 - 1) asked (renderWith (Cache.compiler size) trim env text room)
      (render trim env text room) := by
  induction hn : text.length using Nat.strongRecOn generalizing text asked with
  | _ n ih =>
    rw [render, renderWith, renderWith]
    split
    next hNone => exact .pure _
    next block hBlock =>
      simp only [mem_conditions_render hBlock] at h
      refine .bind (.outcomeWith env (h _ (.inl rfl))) fun outcome => ?_
      cases outcome with
      | error fault => exact .pure _
      | ok o =>
        have hLength := Template.Block.length_resolve_lt hBlock o.holds
        refine .bind (ih _ (hn ▸ hLength) _ (fun source hSource hOutcome => ?_) rfl)
          fun _ => .pure _
        exact h source (.inr ⟨o, hOutcome.symm, hSource⟩)

/-- By way of a cache, a rendering goes on as the outcome of its first condition says. -/
theorem exists_run_renderWith {size : Int} {trim : Bool} {text : Text} {block : Template.Block}
    (h : Template.Block.extract? trim text = some block) {env : Environment} {cache : Cache}
    {o : Condition.Outcome}
    (hOutcome : ((Condition.outcomeWith (Cache.compiler size) env block.condition
      (room - 1)).run cache).1 = .ok o) :
    ∃ behind, (renderWith (Cache.compiler size) trim env text room).run cache =
      let rest :=
        (renderWith (Cache.compiler size) trim env (block.resolve o.holds) room).run behind
      (⟨⟨block.condition, .ok o⟩ :: rest.1.trace, rest.1.result⟩, rest.2) := by
  rw [renderWith_of_extract? _ h, StateT.run_bind]
  generalize
    (Condition.outcomeWith (Cache.compiler size) env block.condition (room - 1)).run cache = first
    at hOutcome ⊢
  obtain ⟨outcome, behind⟩ := first
  cases hOutcome
  exact ⟨behind, rfl⟩

end Rendering

/-- The conditions that an engine evaluates. -/
def Engine.conditionsMet (engine : Engine) (template : Value) (bindings : Bindings) (room : Nat) :
    List Text :=
  match engine.render template bindings room with
  | .ok rendering => rendering.conditions
  | .error _ => []

theorem Engine.byCompiling_renderWith (engine : Engine) (template : Value) (bindings : Bindings)
    (h : ∀ source ∈ engine.conditionsMet template bindings room, asked source) :
    ByCompiling size (room - 1 - 1 - 1) asked
      (engine.renderWith (Cache.compiler size) template bindings room)
      (engine.render template bindings room) := by
  revert h
  rw [conditionsMet, render, renderWith, renderWith]
  cases template.text? with
  | none => exact fun _ => .pure _
  | some text =>
    cases engine.globals.merged bindings with
    | error fault => exact fun _ => .pure _
    | ok env =>
      intro h
      exact .bind (Rendering.byCompiling_renderWith size engine.trim env text h) fun _ => .pure _

/-- The conditions that are evaluated before variables are substituted. -/
def Substitution.conditionsMet (settings : Settings) (template : Value)
    (bindings? : Option Bindings) (room : Nat) : List Text :=
  match bindings? with
  | none => []
  | some bindings =>
    match namesOf bindings with
    | .error _ => []
    | .ok _ =>
      Engine.conditionsMet ⟨⟨[]⟩, settings.trim, settings.debug⟩ template bindings (room - 1)

theorem Substitution.byCompiling_renderWith (settings : Settings) (template : Value)
    (bindings? : Option Bindings)
    (h : ∀ source ∈ conditionsMet settings template bindings? room, asked source) :
    ByCompiling size (room - 1 - 1 - 1 - 1) asked
      (renderWith (Cache.compiler size) settings template bindings? room)
      (render settings template bindings? room) := by
  unfold conditionsMet at h
  unfold render renderWith
  cases bindings? with
  | none => exact .pure _
  | some bindings =>
    dsimp only at h ⊢
    cases hNames : namesOf bindings with
    | error e => exact .pure _
    | ok names =>
      rw [hNames] at h
      refine .bind (Engine.byCompiling_renderWith size _ template bindings h) fun rendered => ?_
      cases rendered with
      | error e => exact .pure _
      | ok rendering => exact .pure _

namespace Template

theorem byCompiling_conditionNamesWith (found : List (Nat × Text))
    (h : ∀ source ∈ found.map Prod.snd, asked source) :
    ByCompiling size room asked (conditionNamesWith (Cache.compiler size) room found)
      (conditionNamesWith (m := Id) @Condition.compile room found) := by
  induction found generalizing asked with
  | nil => exact .pure _
  | cons first rest ih =>
    obtain ⟨hFirst, hRest⟩ := List.forall_mem_cons.mp h
    exact .bind (.compiler hFirst) fun _ =>
      .bind (ih fun source hSource _ => hRest source hSource) fun _ => .pure _

theorem byCompiling_parametersWith (text : Text)
    (h : ∀ source ∈ (conditions text).map Prod.snd, asked source) :
    ByCompiling size (room - 1) asked (parametersWith (Cache.compiler size) text room)
      (parameters text room) :=
  .bind (byCompiling_conditionNamesWith size (conditions text) h) fun _ => .pure _

theorem byCompiling_conditionProblemWith (text : Text) (offset : Nat)
    (h : ∀ found, conditionAt? text (offset, .opening) = some found → asked found.2) :
    ByCompiling size (room - 1) asked
      (conditionProblemWith (Cache.compiler size) room text offset)
      (conditionProblemWith (m := Id) @Condition.compile room text offset) := by
  rw [conditionAt?] at h
  rw [conditionProblemWith, conditionProblemWith]
  cases hStop : text.findFrom? Tag.close (offset + 1) with
  | none => exact .pure _
  | some stop =>
    simp only [hStop, Option.map_some, Option.some.injEq, forall_eq'] at h
    refine .bind (.compiler h) fun compiled => ?_
    cases compiled with
    | ok c => exact .pure _
    | error cause => exact .pure _

theorem byCompiling_problemsWith (text : Text) (tags : List (Nat × Tag))
    (opens : List OpenDirective)
    (h : ∀ source ∈ (tags.filterMap (conditionAt? text)).map Prod.snd, asked source) :
    ByCompiling size (room - 1) asked
      (problemsWith (Cache.compiler size) room text tags opens)
      (problemsWith (m := Id) @Condition.compile room text tags opens) := by
  induction tags generalizing opens asked with
  | nil => exact .pure _
  | cons first rest ih =>
    obtain ⟨offset, tag⟩ := first
    simp only [List.forall_mem_map, List.mem_filterMap, List.mem_cons, exists_eq_or_imp] at h
    have hRest : ∀ source ∈ (rest.filterMap (conditionAt? text)).map Prod.snd, asked source := by
      simp only [List.forall_mem_map, List.mem_filterMap]
      exact fun found hFound => h found (.inr hFound)
    cases tag with
    | opening =>
      exact .bind (byCompiling_conditionProblemWith size text offset fun found hFound =>
          h found (.inl hFound)) fun _ =>
        .bind (ih _ fun source hSource _ => hRest source hSource) fun _ => .pure _
    | alternative | closing =>
      exact .bind (.pure none) fun _ =>
        .bind (ih _ fun source hSource _ => hRest source hSource) fun _ => .pure _

theorem byCompiling_checkWith (text : Text)
    (h : ∀ source ∈ (conditions text).map Prod.snd, asked source) :
    ByCompiling size (room - 1 - 1) asked (checkWith (Cache.compiler size) text room)
      (check text room) :=
  .bind (byCompiling_problemsWith size text (occurrences text) [] h) fun _ => .pure _

end Template

end SqlTemplate
