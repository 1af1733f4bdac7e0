import SqlTemplate.Proofs.Condition.Names
import SqlTemplate.Proofs.Engine.Steps
import SqlTemplate.Proofs.Template.Clean

/-!
# Closing tags torn by trimming

With trimming, the branch before an `else` tag loses its last character. If the branch ends in a
directive, this is the last character of a closing tag: the directive is torn, unless the text
behind the whole directive begins with the character that was lost.

For templates without warnings, all of whose braces begin tags, **a torn tag is the one thing that
can leave a tag in the rendered text, and it always does** (`resolved_iff_not_tears`).
-/

namespace SqlTemplate

namespace Template

/-- A closing tag without its last character. -/
def torn : Text := Tag.closing.text.dropLast

/-- Whether putting a branch in the place of its directive leaves a torn closing tag: the branch
for a condition that holds ends in one, and what follows does not mend it. -/
def Block.Tears (block : Block) (holds : Bool) : Prop :=
  holds = true ∧ torn <:+ block.valid ∧ ¬['}'] <+: block.after

theorem closing_eq_torn : Tag.closing.text = torn ++ ['}'] := rfl

theorem torn_append_brace (rest : Text) : torn ++ '}' :: rest = Tag.closing.text ++ rest := by
  rw [closing_eq_torn, List.append_assoc]
  rfl

/-- A torn tag is no tag. -/
theorem ofText?_torn_append {rest : Text} (h : ¬['}'] <+: rest) :
    Tag.ofText? (torn ++ rest) = none := by
  cases rest with
  | nil => rfl
  | cons c rest =>
    have hc : '}' ≠ c := by
      rintro rfl
      exact h (List.prefix_append ['}'] rest)
    simp [Tag.ofText?, torn, Tag.text, hc]

theorem occurrencesFrom_torn_append {rest : Text} (h : ¬['}'] <+: rest) (offset : Nat) :
    occurrencesFrom offset (torn ++ rest) = occurrencesFrom (offset + torn.length) rest := by
  have hBody : '{' ∉ torn.tail := by decide
  have hTorn : torn ++ rest = '{' :: (torn.tail ++ rest) := rfl
  have hNone := ofText?_torn_append h
  rw [hTorn] at hNone ⊢
  rw [occurrencesFrom_cons_of_none hNone, occurrencesFrom_append_of_notMem hBody, Nat.add_assoc]
  rfl

/-- No torn tag stands in a printed tree. -/
theorem IsPrinted.not_torn_suffix {text : Text} (h : IsPrinted text) : ¬torn <:+ text := by
  intro hTorn
  obtain ⟨tag, hTag⟩ := h.bracesAreTags torn.tail hTorn
  have hPrefix : tag.text <+: torn := hTag
  rw [← Tag.ofText?_eq_some_iff, show Tag.ofText? torn = none from rfl] at hPrefix
  cases hPrefix

/-! ### Directives that nothing closes -/

/-- Whether a text begins with an opening tag that nothing closes. -/
def Unclosed (text : Text) : Prop :=
  ∃ rest, text = Tag.opening.text ++ rest ∧
    ∀ offset, closerAmong 0 (occurrencesFrom offset rest) = none

/-- What is not closed is not closed from deeper inside either. -/
theorem closerAmong_succ_eq_none {depth : Nat} {tags : List (Nat × Tag)}
    (h : closerAmong depth tags = none) : closerAmong (depth + 1) tags = none := by
  fun_induction closerAmong depth tags with
  | case1 => rfl
  | case2 _ _ _ ih => exact ih h
  | case3 => cases h
  | case4 _ _ _ ih => exact ih h
  | case5 _ _ _ ih => exact ih h

/-- What may stand behind the part of a text that can still be rendered. -/
def IsTail (text : Text) : Prop := text = [] ∨ Unclosed text

theorem IsTail.closerAmong_eq_none {tail : Text} (h : IsTail tail) (offset : Nat) :
    closerAmong 0 (occurrencesFrom offset tail) = none := by
  obtain rfl | ⟨rest, rfl, hRest⟩ := h
  · rfl
  · rw [occurrencesFrom_tag_append, closerAmong]
    exact closerAmong_succ_eq_none (hRest _)

/-- A torn directive is never closed. -/
theorem unclosed_torn {body rest tail : Text} (hBody : ClosesItself body) (hRest : IsPrinted rest)
    (hTail : IsTail tail) (h : ¬['}'] <+: rest ++ tail) :
    Unclosed (Tag.opening.text ++ (body ++ (torn ++ (rest ++ tail)))) := by
  refine ⟨_, rfl, fun offset => ?_⟩
  obtain ⟨tree, hTree, rfl⟩ := hRest
  rw [hBody, occurrencesFrom_torn_append h, Tree.closerAmong_print hTree,
    hTail.closerAmong_eq_none]

/-- A branch that has lost its last character leaves a printed tree, unless it ends in a torn tag
that is not mended. -/
theorem exists_cut {branch rest tail : Text} (hBranch : IsPrinted branch) (hEnd : EndsWell branch)
    (hRest : IsPrinted rest) (hTail : IsTail tail) :
    ∃ text tail', IsPrinted text ∧ branch.dropLast ++ (rest ++ tail) = text ++ tail' ∧
      (torn <:+ branch.dropLast ∧ ¬['}'] <+: rest ++ tail → Unclosed tail') ∧
      (¬(torn <:+ branch.dropLast ∧ ¬['}'] <+: rest ++ tail) → tail' = tail) := by
  rcases hEnd with hCut | ⟨front, body, hFront, hBody, rfl⟩
  · refine ⟨branch.dropLast ++ rest, tail, hCut.append hRest, (List.append_assoc ..).symm, ?_,
      fun _ => rfl⟩
    exact fun hTorn => absurd hTorn.1 hCut.not_torn_suffix
  · have hDrop : (front ++ (Tag.opening.text ++ (body ++ Tag.closing.text))).dropLast =
        front ++ (Tag.opening.text ++ (body ++ torn)) := by
      rw [closing_eq_torn]
      simp only [← List.append_assoc, List.dropLast_concat]
    have hTorn : torn <:+ front ++ (Tag.opening.text ++ (body ++ torn)) := by
      simp only [← List.append_assoc]
      exact List.suffix_append _ torn
    rw [hDrop]
    by_cases hMend : ['}'] <+: rest ++ tail
    · -- The brace can come from the printed tree only.
      obtain ⟨rest', rfl⟩ : ∃ rest', rest = '}' :: rest' := by
        cases rest with
        | nil =>
          obtain rfl | ⟨_, rfl, _⟩ := hTail
          · simp at hMend
          · simp [Tag.text_eq] at hMend
        | cons c rest =>
          rw [List.cons_append, List.cons_prefix_cons] at hMend
          exact ⟨rest, by rw [hMend.1]⟩
      refine ⟨_, tail, hBranch.append (hRest.of_cons (by decide)), ?_,
        fun h => absurd hMend h.2, fun _ => rfl⟩
      simp only [List.append_assoc, List.cons_append, torn_append_brace]
    · refine ⟨front, _, hFront, ?_, fun _ => unclosed_torn hBody hRest hTail hMend,
        fun h => absurd ⟨hTorn, hMend⟩ h⟩
      simp only [List.append_assoc]

/-- **A step with trimming**: the part of a text that is a printed tree has no directive left, or
its first directive is resolved; then a printed tree is left in front of what stood behind it, or a
torn directive in front of a text that is not looked at any more. -/
theorem IsPrinted.exists_step {text tail : Text} (h : IsPrinted text) (hTail : IsTail tail) :
    '{' ∉ text ∨
    ∃ block, Block.extract? true (text ++ tail) = some block ∧
      ∀ holds, ∃ text' tail', IsPrinted text' ∧ block.resolve holds = text' ++ tail' ∧
        (block.Tears holds → Unclosed tail') ∧ (¬block.Tears holds → tail' = tail) := by
  rcases h.exists_directive with hNone | ⟨front, condition, rest, hFront, hCondition, hRest,
    hDirective⟩
  · exact .inl hNone
  have hBefore : IsPrinted front.dropLast := .of_notMem fun hc => hFront (front.dropLast_subset hc)
  rcases hDirective with ⟨valid, hValid, rfl⟩ | ⟨valid, invalid, hValid, hInvalid, rfl⟩
  · rw [List.append_assoc, directive_append]
    refine .inr ⟨_, Block.extract?_whenHolds hFront hCondition hValid true _, fun holds => ?_⟩
    have hBranch : IsPrinted (if holds then valid.print else []) := by
      cases holds
      · exact .nil
      · exact ⟨valid, hValid, rfl⟩
    refine ⟨_, tail, (hBefore.append hBranch).append hRest, ?_, fun hTears => ?_, fun _ => rfl⟩
    · simp only [Block.resolve, if_true, List.append_assoc]
    · exact absurd hTears.2.1 (IsPrinted.not_torn_suffix ⟨valid, hValid, rfl⟩)
  · rw [List.append_assoc, directive_append]
    refine .inr ⟨_, Block.extract?_choose hFront hCondition hValid hInvalid true _, fun holds => ?_⟩
    cases holds with
    | false =>
      refine ⟨_, tail, (hBefore.append ⟨invalid, hInvalid, rfl⟩).append hRest, ?_,
        fun hTears => ?_, fun _ => rfl⟩
      · simp only [Block.resolve, if_true, Bool.false_eq_true, if_false, List.append_assoc]
      · cases hTears.1
    | true =>
      obtain ⟨text, tail', hText, hCut, hUnclosed, hWhole⟩ :=
        exists_cut ⟨valid, hValid, rfl⟩ (Tree.endsWell_print hValid) hRest hTail
      refine ⟨front.dropLast ++ text, tail', hBefore.append hText, ?_,
        fun hTears => hUnclosed hTears.2, fun hTears => hWhole fun h => hTears ⟨rfl, h⟩⟩
      simp only [Block.resolve, if_true, List.append_assoc]
      rw [hCut]

/-- The step at the first directive of a printed tree with nothing behind it. -/
theorem IsPrinted.step {text : Text} (h : IsPrinted text) {block : Block}
    (hBlock : Block.extract? true text = some block) (holds : Bool) :
    ∃ text' tail, IsPrinted text' ∧ block.resolve holds = text' ++ tail ∧
      (block.Tears holds → Unclosed tail) ∧ (¬block.Tears holds → tail = []) := by
  rcases h.exists_step (.inl rfl) with hNone | ⟨block', hBlock', hStep⟩
  · cases hBlock.symm.trans (Block.extract?_of_notMem hNone true)
  · rw [List.append_nil] at hBlock'
    cases hBlock.symm.trans hBlock'
    exact hStep holds

end Template

namespace Rendering

open Template (Block IsPrinted Tree Unclosed)

/-! ### Runs -/

/-- Whether rendering a text with trimming tears a closing tag, at its first directive or later. -/
inductive Tears (env : Environment) (room : Nat) : Text → Prop where
  /-- Resolving the first directive does. -/
  | here {text : Text} {block : Block} {o : Condition.Outcome} :
      Block.extract? true text = some block →
      Condition.outcome env block.condition (room - 1) = .ok o →
      block.Tears o.holds → Tears env room text
  /-- Rendering what is left of the text then does. -/
  | later {text : Text} {block : Block} {o : Condition.Outcome} :
      Block.extract? true text = some block →
      Condition.outcome env block.condition (room - 1) = .ok o →
      Tears env room (block.resolve o.holds) → Tears env room text

/-- A rendering that comes to an end has resolved its first directive and come to an end with what
was left. -/
theorem exists_outcome {trim : Bool} {env : Environment} {room : Nat} {text result : Text}
    {block : Block} (hBlock : Block.extract? trim text = some block)
    (h : (render trim env text room).result = .ok result) :
    ∃ o, Condition.outcome env block.condition (room - 1) = .ok o ∧
      (render trim env (block.resolve o.holds) room).result = .ok result := by
  rw [render_of_extract? hBlock] at h
  exact exists_of_branch_eq_ok h

/-- An opening tag that nothing closes is never resolved. -/
theorem opening_infix_of_unclosed {env : Environment} {room : Nat} {text tail result : Text}
    (hText : IsPrinted text) (hTail : Unclosed tail)
    (h : (render true env (text ++ tail) room).result = .ok result) :
    Tag.opening.text <:+: result := by
  induction hn : (text ++ tail).length using Nat.strongRecOn generalizing text tail with
  | _ n ih =>
    subst hn
    rcases hText.exists_step (.inr hTail) with hNone | ⟨block, hBlock, hStep⟩
    · obtain ⟨rest, rfl, hRest⟩ := hTail
      rw [render_of_extract?_none (Block.extract?_opening_eq_none hNone hRest true)] at h
      cases h
      exact ⟨text, rest, by rw [List.append_assoc]⟩
    · obtain ⟨o, _, hResult⟩ := exists_outcome hBlock h
      obtain ⟨text', tail', hText', hResolve, hTears, hWhole⟩ := hStep o.holds
      have hTail' : Unclosed tail' := by
        by_cases hTorn : block.Tears o.holds
        · exact hTears hTorn
        · exact hWhole hTorn ▸ hTail
      have hLength := Block.length_resolve_lt hBlock o.holds
      rw [hResolve] at hResult hLength
      exact ih _ hLength hText' hTail' hResult rfl

/-- A torn tag leaves an opening tag in the rendered text. -/
theorem opening_infix_of_tears {env : Environment} {room : Nat} {text result : Text}
    (hTears : Tears env room text)
    (hText : IsPrinted text) (h : (render true env text room).result = .ok result) :
    Tag.opening.text <:+: result := by
  induction hTears with
  | here hBlock hOutcome hTorn =>
    obtain ⟨text, tail, hPrinted, hResolve, hUnclosed, -⟩ := hText.step hBlock _
    obtain ⟨o, hOutcome', hResult⟩ := exists_outcome hBlock h
    cases hOutcome.symm.trans hOutcome'
    rw [hResolve] at hResult
    exact opening_infix_of_unclosed hPrinted (hUnclosed hTorn) hResult
  | later hBlock hOutcome _ ih =>
    rename_i block o _
    obtain ⟨text, tail, hPrinted, hResolve, hUnclosed, hWhole⟩ := hText.step hBlock o.holds
    obtain ⟨o, hOutcome', hResult⟩ := exists_outcome hBlock h
    cases hOutcome.symm.trans hOutcome'
    by_cases hTorn : block.Tears o.holds
    · rw [hResolve] at hResult
      exact opening_infix_of_unclosed hPrinted (hUnclosed hTorn) hResult
    · rw [hWhole hTorn, List.append_nil] at hResolve
      exact ih (hResolve ▸ hPrinted) hResult

/-- As long as no closing tag is torn, no brace is left. -/
theorem notMem_of_not_tears {env : Environment} {room : Nat} {text result : Text}
    (hTears : ¬Tears env room text)
    (hText : IsPrinted text) (h : (render true env text room).result = .ok result) :
    '{' ∉ result := by
  induction hn : text.length using Nat.strongRecOn generalizing text with
  | _ n ih =>
    subst hn
    rcases hText.exists_step (.inl rfl) with hNone | ⟨block, hBlock, -⟩
    · rw [render_of_notMem hNone] at h
      cases h
      exact hNone
    · rw [List.append_nil] at hBlock
      obtain ⟨o, hOutcome, hResult⟩ := exists_outcome hBlock h
      obtain ⟨text', tail, hPrinted, hResolve, -, hWhole⟩ := hText.step hBlock o.holds
      rw [hWhole fun hTorn => hTears (.here hBlock hOutcome hTorn), List.append_nil] at hResolve
      exact ih _ (Block.length_resolve_lt hBlock o.holds)
        (fun hLater => hTears (.later hBlock hOutcome hLater)) (hResolve ▸ hPrinted) hResult rfl

end Rendering

namespace Engine

open Template (BracesAreTags check)

/-- **With trimming, a template without warnings, all of whose braces begin tags, is fully resolved
unless a closing tag is torn**: the rendered text has no tag if no tag was torn on the way, and has
one otherwise. -/
theorem resolved_iff_not_tears (engine : Engine) (hTrim : engine.trim = true) (text : Text)
    (hTags : BracesAreTags text) (room : Nat) (hCheck : check text room = []) (bindings : Bindings)
    (env : Environment) (hEnv : engine.globals.merged bindings = .ok env) (rendering : Rendering)
    (room' : Nat) (hRender : engine.render (.text text) bindings room' = .ok rendering)
    (result : Text)
    (hResult : rendering.result = .ok result) :
    (∀ tag : Tag, ¬tag.text <:+: result) ↔ ¬Rendering.Tears env (room' - 1) text := by
  rw [render_text, hTrim, hEnv] at hRender
  cases hRender
  obtain ⟨tree, hTree, -, hPrint⟩ := Template.exists_tree_of_check_eq_nil hTags hCheck
  have hPrinted : Template.IsPrinted text := ⟨tree, hTree, hPrint⟩
  constructor
  · intro hNone hTears
    exact hNone .opening (Rendering.opening_infix_of_tears hTears hPrinted hResult)
  · intro hTears tag hTag
    refine Rendering.notMem_of_not_tears hTears hPrinted hResult (hTag.subset ?_)
    rw [Tag.text_eq]
    exact List.mem_cons_self

/-! ### A directive right before an `else` tag -/

/-- A directive at the end of the branch before an `else` tag. -/
def nestedTree : Template.Tree :=
  .choose ['a'] (.whenHolds ['a'] (.literal ['x'] .done) .done) (.literal ['y'] .done) .done

/-- An engine that trims, with one true variable. -/
def trimmingEngine : Engine := ⟨⟨[(['a'], .bool true)]⟩, true, false⟩

theorem isIdentifier_a : Text.IsIdentifier ['a'] := ⟨List.cons_ne_nil _ _, rfl⟩

theorem isPlain_nestedTree : nestedTree.IsPlain := by
  have hA : Template.Tree.IsPlainCondition ['a'] := ⟨by decide, by decide⟩
  exact ⟨hA, ⟨hA, ⟨by decide, trivial⟩, trivial⟩, ⟨by decide, trivial⟩, trivial⟩

theorem compiles_nestedTree : nestedTree.Compiles (Condition.usualRoom - 1 - 1) := by
  have hA : (Condition.compile ['a'] (Condition.usualRoom - 1 - 1)).isOk := by
    rw [Condition.compile_name isIdentifier_a rfl (by decide)]
    rfl
  exact ⟨hA, ⟨hA, trivial, trivial⟩, trivial, trivial⟩

/-- The inner directive when it has lost the end of its closing tag. -/
def nestedResult : Text := Tag.opening.text ++ (['a', '%', '}', 'x'] ++ Template.torn)

theorem unclosed_nestedResult : Template.Unclosed nestedResult := by
  have hBody : Template.ClosesItself ['a', '%', '}', 'x'] := .of_notMem (by decide)
  exact Template.unclosed_torn hBody .nil (.inl rfl) (by decide)

/-- The inner directive is never resolved. -/
theorem render_nestedTree :
    trimmingEngine.render (.text nestedTree.print) [] Condition.usualRoom = .ok
      ⟨[⟨['a'], .ok (.evaluated true)⟩], .ok nestedResult⟩ := by
  have hEnd (env : Environment) (room : Nat) : Rendering.render true env nestedResult room =
      .ofText nestedResult := by
    obtain ⟨rest, hText, hRest⟩ := unclosed_nestedResult
    rw [hText]
    exact Rendering.render_of_extract?_none
      (Template.Block.extract?_opening_eq_none List.not_mem_nil hRest true) env room
  have hStep := Rendering.render_choose List.not_mem_nil isPlain_nestedTree.1
    isPlain_nestedTree.2.1 isPlain_nestedTree.2.2.1 true ⟨[(['a'], .bool true)]⟩
    (Condition.usualRoom - 1) []
  rw [List.nil_append] at hStep
  rw [render_text]
  show Except.ok
    (Rendering.render true ⟨[(['a'], .bool true)]⟩ nestedTree.print (Condition.usualRoom - 1)) = _
  rw [nestedTree, Template.Tree.print_choose, Template.Tree.print, hStep, Rendering.branch,
    Condition.outcome_name isIdentifier_a rfl (by decide)]
  show Except.ok (Rendering.mk
    (⟨['a'], .ok (.evaluated true)⟩ :: (Rendering.render true _ nestedResult _).trace)
    (Rendering.render true _ nestedResult _).result) = _
  rw [hEnd]
  rfl

/-- The closing tag of the inner directive is torn. -/
theorem tears_nestedTree :
    Rendering.Tears ⟨[(['a'], .bool true)]⟩ (Condition.usualRoom - 1) nestedTree.print := by
  have hTags : BracesAreTags nestedTree.print :=
    Template.IsPrinted.bracesAreTags ⟨_, isPlain_nestedTree, rfl⟩
  have hIff := resolved_iff_not_tears trimmingEngine rfl nestedTree.print hTags _
    (Template.check_print isPlain_nestedTree compiles_nestedTree) [] _ rfl _ _ render_nestedTree _
    rfl
  exact Classical.not_not.mp fun h => hIff.mpr h .opening (List.prefix_append _ _).isInfix

/-- A template without warnings may keep its tags. -/
theorem not_resolved_nestedTree :
    ¬∀ (engine : Engine) (text : Text) (bindings : Bindings) (rendering : Rendering)
      (result : Text), engine.trim = true → BracesAreTags text →
      check text Condition.usualRoom = [] →
      engine.render (.text text) bindings Condition.usualRoom = .ok rendering →
      rendering.result = .ok result →
      ∀ tag : Tag, ¬tag.text <:+: result := by
  intro h
  have hTags : BracesAreTags nestedTree.print :=
    Template.IsPrinted.bracesAreTags ⟨_, isPlain_nestedTree, rfl⟩
  exact h trimmingEngine nestedTree.print [] _ nestedResult rfl hTags
    (Template.check_print isPlain_nestedTree compiles_nestedTree) render_nestedTree rfl .opening
    (List.prefix_append _ _).isInfix

end Engine

end SqlTemplate
