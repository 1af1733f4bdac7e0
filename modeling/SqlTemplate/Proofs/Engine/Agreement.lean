import SqlTemplate.Proofs.Engine.Exact
import SqlTemplate.Proofs.Engine.Torn
import SqlTemplate.Proofs.Template.Conditions

/-!
# Environments that a template cannot tell apart

While a template without warnings is rendered, its text is a draft: a printed tree, behind which a
torn directive may stand that is not looked at any more. A step leaves a draft whose conditions are
conditions of the one before (`IsDraft.resolve`), so every condition that is ever evaluated is one
of the template (`hasCondition_of_mem_trace`). **In two environments that agree on the names that
the template can read, the same conditions are evaluated, with the same outcomes, and the result is
the same** (`render_eq_of_agree`).
-/

namespace SqlTemplate

namespace Template

/-- Whether a text is a printed tree in front of what is not looked at any more. -/
def IsDraft (text : Text) : Prop :=
  ∃ front tail, IsPrinted front ∧ IsTail tail ∧ text = front ++ tail

/-- Whether a draft has no condition that a text does not have. -/
def IsDraftOf (text draft : Text) : Prop :=
  IsDraft draft ∧ ∀ condition, HasCondition draft condition → HasCondition text condition

namespace IsDraft

variable {front before condition body kept rest tail : Text} {branch : Tree}

theorem of_branch (hBefore : '{' ∉ before) (hBranch : branch.IsPlain)
    (hRest : IsPrinted rest) (hTail : IsTail tail) :
    IsDraft (before ++ (branch.print ++ (rest ++ tail))) :=
  ⟨before ++ (branch.print ++ rest), tail,
    (IsPrinted.of_notMem hBefore).append (IsPrinted.append ⟨branch, hBranch, rfl⟩ hRest),
    hTail, by simp only [List.append_assoc]⟩

/-- A branch that has lost its last character leaves a draft, whether a tag is torn or not. -/
theorem of_cut (hBefore : '{' ∉ before) (hBranch : branch.IsPlain)
    (hRest : IsPrinted rest) (hTail : IsTail tail) :
    IsDraft (before ++ (branch.print.dropLast ++ (rest ++ tail))) := by
  obtain ⟨text, tail', hText, hCut, hTorn, hWhole⟩ :=
    exists_cut ⟨branch, hBranch, rfl⟩ (Tree.endsWell_print hBranch) hRest hTail
  refine ⟨before ++ text, tail', (IsPrinted.of_notMem hBefore).append hText, ?_,
    by rw [hCut, List.append_assoc]⟩
  by_cases h : torn <:+ branch.print.dropLast ∧ ¬['}'] <+: rest ++ tail
  · exact .inr (hTorn h)
  · exact hWhole h ▸ hTail

/-- Where a directive is replaced by a branch of its body, which may have lost its last character,
a draft is left, and no condition that was not there before. -/
theorem of_directive (hBefore : '{' ∉ before) (hBranch : branch.IsPlain)
    (hBody : branch.print <:+: body) (hRest : IsPrinted rest) (hTail : IsTail tail)
    (hKept : kept = branch.print ∨ kept = branch.print.dropLast) :
    IsDraftOf (front ++ directive condition body (rest ++ tail))
      (before ++ (kept ++ (rest ++ tail))) := by
  have hText : front ++ directive condition body (rest ++ tail) =
      front ++ (Tag.opening.text ++ (condition ++ Tag.close)) ++ body ++
        (Tag.closing.text ++ (rest ++ tail)) := by
    simp only [directive, List.append_assoc]
  obtain ⟨cut, hCut, hPrint⟩ : ∃ cut : Text, cut.length ≤ 1 ∧ kept ++ cut = branch.print := by
    rcases hKept with rfl | rfl
    · exact ⟨[], Nat.zero_le 1, List.append_nil _⟩
    · rcases List.eq_nil_or_concat branch.print with hNil | ⟨text, c, hLast⟩
      · exact ⟨[], Nat.zero_le 1, by rw [hNil]; rfl⟩
      · exact ⟨[c], Nat.le_refl 1, by rw [hLast, List.concat_eq_append, List.dropLast_concat]⟩
  refine ⟨?_, fun c hc => ?_⟩
  · rcases hKept with rfl | rfl
    · exact of_branch hBefore hBranch hRest hTail
    · exact of_cut hBefore hBranch hRest hTail
  · rw [hText]
    rcases (hc.of_append_of_notMem hBefore).of_append (hPrint ▸ ⟨branch, hBranch, rfl⟩) hCut with
      hOwn | hAfter
    · exact hOwn.of_infix (hPrint ▸ hBody.trans (List.infix_append _ _ _))
    · exact hAfter.of_infix
        ((List.suffix_append _ _).trans (List.suffix_append _ _)).isInfix

variable {trim : Bool} {block : Block}

theorem notMem_before (hFront : '{' ∉ front) (trim : Bool) :
    '{' ∉ if trim then front.dropLast else front := by
  cases trim with
  | true => exact fun hc => hFront (front.dropLast_subset hc)
  | false => exact hFront

/-- The only branch of a directive is left whole, or nothing is left of it. -/
theorem resolve_whenHolds {valid : Tree} (hFront : '{' ∉ front)
    (hCondition : Tree.IsPlainCondition condition) (hValid : valid.IsPlain)
    (hRest : IsPrinted rest) (hTail : IsTail tail)
    (hBlock : Block.extract? trim (front ++ directive condition valid.print (rest ++ tail)) =
      some block) (holds : Bool) :
    block.condition = condition ∧
      IsDraftOf (front ++ directive condition valid.print (rest ++ tail)) (block.resolve holds) := by
  cases hBlock.symm.trans (Block.extract?_whenHolds hFront hCondition hValid trim (rest ++ tail))
  refine ⟨rfl, ?_⟩
  simp only [Block.resolve, List.append_assoc]
  have hBefore := notMem_before hFront trim
  cases holds with
  | true => exact of_directive hBefore hValid List.infix_rfl hRest hTail (.inl rfl)
  | false =>
    have hDone : Tree.done.IsPlain := trivial
    exact of_directive hBefore hDone List.nil_infix hRest hTail (.inl rfl)

/-- Of two branches, the second is left whole; the first loses its last character if there is
trimming. -/
theorem resolve_choose {valid invalid : Tree} (hFront : '{' ∉ front)
    (hCondition : Tree.IsPlainCondition condition) (hValid : valid.IsPlain)
    (hInvalid : invalid.IsPlain) (hRest : IsPrinted rest) (hTail : IsTail tail)
    (hBlock : Block.extract? trim (front ++ directive condition
      (valid.print ++ (Tag.alternative.text ++ invalid.print)) (rest ++ tail)) = some block)
    (holds : Bool) :
    block.condition = condition ∧
      IsDraftOf (front ++ directive condition
        (valid.print ++ (Tag.alternative.text ++ invalid.print)) (rest ++ tail))
        (block.resolve holds) := by
  cases hBlock.symm.trans
    (Block.extract?_choose hFront hCondition hValid hInvalid trim (rest ++ tail))
  refine ⟨rfl, ?_⟩
  simp only [Block.resolve, List.append_assoc]
  have hBefore := notMem_before hFront trim
  cases holds with
  | true =>
    refine of_directive hBefore hValid (List.prefix_append _ _).isInfix hRest hTail ?_
    cases trim with
    | true => exact .inr rfl
    | false => exact .inl rfl
  | false =>
    refine of_directive hBefore hInvalid ?_ hRest hTail (.inl rfl)
    exact ((List.suffix_append _ _).trans (List.suffix_append _ _)).isInfix

/-- **A step leaves a draft, and no condition that was not there before.** -/
theorem resolve {text : Text} (h : IsDraft text) (hBlock : Block.extract? trim text = some block)
    (holds : Bool) : HasCondition text block.condition ∧ IsDraftOf text (block.resolve holds) := by
  obtain ⟨first, tail, hFirst, hTail, rfl⟩ := h
  rcases hFirst.exists_directive with hPlain | ⟨front, condition, rest, hFront, hCondition, hRest,
    ⟨valid, hValid, rfl⟩ | ⟨valid, invalid, hValid, hInvalid, rfl⟩⟩
  · have hEnd : Block.extract? trim (first ++ tail) = none := by
      obtain rfl | ⟨rest, rfl, hRest⟩ := hTail
      · exact Block.extract?_of_notMem (by rwa [List.append_nil]) trim
      · exact Block.extract?_opening_eq_none hPlain hRest trim
    cases hBlock.symm.trans hEnd
  · rw [List.append_assoc, directive_append] at hBlock ⊢
    obtain ⟨hSame, hDraft⟩ := resolve_whenHolds hFront hCondition hValid hRest hTail hBlock holds
    rw [hSame]
    exact ⟨⟨hCondition.2, front, _, rfl⟩, hDraft⟩
  · rw [List.append_assoc, directive_append] at hBlock ⊢
    obtain ⟨hSame, hDraft⟩ :=
      resolve_choose hFront hCondition hValid hInvalid hRest hTail hBlock holds
    rw [hSame]
    exact ⟨⟨hCondition.2, front, _, rfl⟩, hDraft⟩

end IsDraft

end Template

namespace Rendering

open Template (BracesAreTags HasCondition IsDraft check parameters)

/-- Environments in which the conditions that are evaluated in one of them have the same outcomes
lead to the same rendering. -/
theorem render_congr {trim : Bool} {env env' : Environment} {text : Text} {room : Nat}
    (h : ∀ e ∈ (render trim env text room).trace,
      Condition.outcome env e.condition (room - 1) =
        Condition.outcome env' e.condition (room - 1)) :
    render trim env text room = render trim env' text room := by
  induction hn : text.length using Nat.strongRecOn generalizing text with
  | _ n ih =>
    subst hn
    cases hBlock : Template.Block.extract? trim text with
    | none => rw [render_of_extract?_none hBlock, render_of_extract?_none hBlock]
    | some block =>
      rw [render_of_extract? hBlock, branch] at h
      rw [render_of_extract? hBlock, render_of_extract? hBlock, branch, branch]
      cases hOutcome : Condition.outcome env block.condition (room - 1) with
      | error fault =>
        rw [hOutcome] at h
        rw [← h _ List.mem_cons_self, hOutcome]
      | ok o =>
        rw [hOutcome] at h
        rw [← h _ List.mem_cons_self, hOutcome]
        have hRest := ih _ (Template.Block.length_resolve_lt hBlock o.holds)
          (fun e he => h e (List.mem_cons_of_mem _ he)) rfl
        simp only [hRest]

/-- **Every condition that is evaluated is one of the template**, though the text is rewritten again
and again. -/
theorem hasCondition_of_mem_trace {trim : Bool} {env : Environment} {text : Text} {room : Nat}
    (h : IsDraft text) {e : Evaluation} (he : e ∈ (render trim env text room).trace) :
    HasCondition text e.condition := by
  induction hn : text.length using Nat.strongRecOn generalizing text with
  | _ n ih =>
    subst hn
    cases hBlock : Template.Block.extract? trim text with
    | none =>
      rw [render_of_extract?_none hBlock] at he
      cases he
    | some block =>
      rw [render_of_extract? hBlock, branch] at he
      cases hOutcome : Condition.outcome env block.condition (room - 1) with
      | error fault =>
        rw [hOutcome] at he
        obtain rfl := List.mem_singleton.mp he
        exact (h.resolve hBlock true).1
      | ok o =>
        rw [hOutcome] at he
        obtain ⟨hFirst, hDraft, hConditions⟩ := h.resolve hBlock o.holds
        rcases List.mem_cons.mp he with rfl | hLater
        · exact hFirst
        · exact hConditions _
            (ih _ (Template.Block.length_resolve_lt hBlock o.holds) hDraft hLater rfl)

/-- In a template without warnings, all of whose braces begin tags, no name is read by a condition
that is not listed. -/
theorem mem_parameters_of_mem_trace {trim : Bool} {env : Environment} {text : Text}
    {room room' room'' : Nat} (hTags : BracesAreTags text) (hCheck : check text room = [])
    {e : Evaluation} (he : e ∈ (render trim env text room').trace) {name : Text}
    (hName : name ∈ Condition.names e.condition room'') : name ∈ parameters text room := by
  obtain ⟨tree, hTree, -, hPrint⟩ := Template.exists_tree_of_check_eq_nil hTags hCheck
  have hDraft : IsDraft text :=
    ⟨text, [], ⟨tree, hTree, hPrint⟩, .inl rfl, (List.append_nil text).symm⟩
  have hCondition := hasCondition_of_mem_trace hDraft he
  -- Where the names are listed, there is no less room than where the warnings are looked for.
  have hChecked := Condition.names_subset_of_isOk (hCondition.isOk_compile hCheck) room'' hName
  exact Template.mem_parameters_of_hasCondition hCondition
    (Condition.names_subset (Nat.sub_le (room - 1) 1) _ hChecked)

/-- So it is rendered alike in environments that agree on the listed names. -/
theorem render_eq_of_parameters {trim : Bool} {env env' : Environment} {text : Text} {room : Nat}
    (hTags : BracesAreTags text) (hCheck : check text room = [])
    (hAgree : ∀ name ∈ parameters text room, env.lookup name = env'.lookup name) (room' : Nat) :
    render trim env text room' = render trim env' text room' :=
  render_congr fun _ he => Condition.outcome_congr fun name hName =>
    hAgree name (mem_parameters_of_mem_trace hTags hCheck he hName)

end Rendering

namespace Engine

open Template (BracesAreTags check conditions parameters)

/-- **A template without warnings, all of whose braces begin tags, is rendered alike in environments
that agree on the names that it can read**: the same conditions are evaluated with the same
outcomes, and the same text is written or the same fault escapes. -/
theorem render_eq_of_agree (engine engine' : Engine) (hTrim : engine.trim = engine'.trim)
    (text : Text) (hTags : BracesAreTags text) (room : Nat) (hCheck : check text room = [])
    (bindings bindings' : Bindings) (env env' : Environment)
    (hEnv : engine.globals.merged bindings = .ok env)
    (hEnv' : engine'.globals.merged bindings' = .ok env')
    (hAgree : ∀ name ∈ parameters text room, env.lookup name = env'.lookup name) (room' : Nat) :
    engine.render (.text text) bindings room' = engine'.render (.text text) bindings' room' := by
  rw [render_text, render_text, hEnv, hEnv', ← hTrim]
  exact congrArg Except.ok (Rendering.render_eq_of_parameters hTags hCheck hAgree (room' - 1))

/-- A variable that is not read, and a variable that is bound elsewhere: the closing tag is torn
alike. -/
theorem render_eq_of_agree_unread :
    parameters nestedTree.print Condition.usualRoom = [['a']] ∧
    trimmingEngine.render (.text nestedTree.print) [] Condition.usualRoom =
      (Engine.mk ⟨[]⟩ true true).render (.text nestedTree.print)
        [(.text ['$', 'a'], .bool true), (.text ['b'], .null)] Condition.usualRoom := by
  have hNames : Condition.names ['a'] (Condition.usualRoom - 1) = [['a']] :=
    Condition.names_name isIdentifier_a rfl (by decide)
  have hConditions : conditions nestedTree.print = [(0, ['a']), (9, ['a'])] := by decide
  have hParameters : parameters nestedTree.print Condition.usualRoom = [['a']] := by
    rw [Template.parameters_of_notMem (by decide), hConditions]
    simp only [List.flatMap_cons, List.flatMap_nil, hNames]
    rfl
  have hTags : BracesAreTags nestedTree.print :=
    Template.IsPrinted.bracesAreTags ⟨_, isPlain_nestedTree, rfl⟩
  refine ⟨hParameters, render_eq_of_agree trimmingEngine ⟨⟨[]⟩, true, true⟩ rfl _ hTags
    _ (Template.check_print isPlain_nestedTree compiles_nestedTree) _ _ _ _ rfl rfl ?_ _⟩
  intro name hName
  rw [hParameters] at hName
  obtain rfl := List.mem_singleton.mp hName
  rfl

end Engine

end SqlTemplate
