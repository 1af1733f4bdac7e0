import SqlTemplate.Proofs.Engine.Steps
import SqlTemplate.Proofs.Template.DocumentOrder

/-!
# The order of evaluation

Without trimming, the conditions that a rendering evaluates are conditions of the template, in
document order, none of them twice. The template need not be well-formed: tags may be missing, come
twice or stand in a condition, as long as every brace begins one. Each step evaluates the first
condition and leaves conditions that come behind it (`Block.conditionTexts_resolve`), so **what a
whole rendering evaluates is a subsequence of what the template lists**
(`Rendering.trace_sublist_conditionTexts`, `Engine.evaluates_in_order`).
-/

namespace SqlTemplate

namespace Rendering

open Template (BracesAreTags conditionTexts)

/-- **What is evaluated is a subsequence of the conditions of the text.** -/
theorem trace_sublist_conditionTexts (env : Environment) (room : Nat) {text : Text}
    (hTags : BracesAreTags text) :
    ((render false env text room).trace.map (·.condition)).Sublist (conditionTexts text) := by
  induction hn : text.length using Nat.strongRecOn generalizing text with
  | _ n ih =>
    subst hn
    cases hBlock : Template.Block.extract? false text with
    | none =>
      rw [render_of_extract?_none hBlock]
      exact List.nil_sublist _
    | some block =>
      have hStep (holds : Bool) := Template.Block.conditionTexts_resolve hTags hBlock holds
      rw [render_of_extract? hBlock, branch]
      cases Condition.outcome env block.condition (room - 1) with
      | error fault =>
        exact ((List.nil_sublist _).cons_cons _).trans (hStep true)
      | ok o =>
        have hRest := ih _ (Template.Block.length_resolve_lt hBlock o.holds)
          (Template.Block.bracesAreTags_resolve hTags hBlock o.holds) rfl
        exact (hRest.cons_cons _).trans (hStep o.holds)

end Rendering

namespace Engine

open Template (BracesAreTags conditions)

/-- **Without trimming, the conditions that an engine evaluates are conditions of the template, each
at a tag further on than the one before**, whatever the environment, the room for calls and
however malformed the template, if all of its braces begin tags. -/
theorem evaluates_in_order (engine : Engine) (hTrim : engine.trim = false) (text : Text)
    (hTags : BracesAreTags text) (bindings : Bindings) (env : Environment)
    (hEnv : engine.globals.merged bindings = .ok env) (room : Nat) :
    ∃ rendering, ∃ found : List (Nat × Text),
      engine.render (.text text) bindings room = .ok rendering ∧
      rendering.trace.map (·.condition) = found.map Prod.snd ∧
      found.Sublist (conditions text) ∧ found.Pairwise (·.1 < ·.1) := by
  have hTrace := Rendering.trace_sublist_conditionTexts env (room - 1) hTags
  rw [← Template.map_snd_conditions] at hTrace
  obtain ⟨found, hFound, hMap⟩ := List.sublist_map_iff.mp hTrace
  refine ⟨_, found, ?_, hMap, hFound, (Template.pairwise_conditions text).sublist hFound⟩
  rw [render_text, hEnv, hTrim]

/-- A closer without a directive, an opening tag in a condition, and an `else` tag too many. -/
def tangledText : Text :=
  Tag.closing.text ++ (Tag.opening.text ++ (['\''] ++ (Tag.opening.text ++ (['\'', '%', '}'] ++
    (Tag.alternative.text ++ (Tag.alternative.text ++ (Tag.closing.text ++ (Tag.closing.text ++
      []))))))))

theorem evaluates_in_order_tangled :
    conditions tangledText =
      [(11, ['\'', '{', '%', ' ', 'i', 'f', ' ', '\'']), (18, ['\''])] ∧
    ∃ rendering, ∃ found : List (Nat × Text),
      (Engine.mk ⟨[]⟩ false false).render (.text tangledText) [] = .ok rendering ∧
      rendering.trace.map (·.condition) = found.map Prod.snd ∧
      found.Sublist (conditions tangledText) ∧ found.Pairwise (·.1 < ·.1) := by
  have hNil : BracesAreTags [] := fun tail hTail => by simp at hTail
  have hTags : BracesAreTags tangledText :=
    .tag_append _ (.tag_append _ (.append_of_notMem (by decide) (.tag_append _
      (.append_of_notMem (by decide) (.tag_append _ (.tag_append _ (.tag_append _
        (.tag_append _ hNil))))))))
  exact ⟨by decide,
    evaluates_in_order ⟨⟨[]⟩, false, false⟩ rfl _ hTags [] _ rfl Condition.usualRoom⟩

end Engine

end SqlTemplate
