import SqlTemplate.Proofs.Template.Ends
import SqlTemplate.Proofs.Template.Extraction

/-!
# The conditions of a text in document order

`conditions` lists the conditions of a text with the offsets of their tags, which grow
(`pairwise_conditions`). Without the offsets it is a recursion on the text (`conditionTexts`), so
the conditions behind a piece of a text are among those of the text, in the same order, and two
pieces have the conditions of the first and then those of the second, if those of the first can
end in it.

**The first directive of any text whose braces all begin tags can be replaced by one of its
branches**: what is left has such braces again, and its conditions are, in order, among those of the
text behind the condition of the directive (`Block.conditionTexts_resolve`).
-/

namespace SqlTemplate

namespace Template

/-- The condition of the tag with which a text begins, if that is an opening tag and its condition
ends. -/
def firstCondition? (text : Text) : Option Text :=
  if Tag.ofText? text = some .opening then
    let rest := text.drop Tag.opening.text.length
    (Text.find? rest Tag.close).map rest.take
  else none

/-- The conditions of a text, in order. -/
def conditionTexts : Text → List Text
  | [] => []
  | c :: rest => (firstCondition? (c :: rest)).toList ++ conditionTexts rest

/-! ### What is listed -/

theorem firstCondition?_opening (rest : Text) :
    firstCondition? (Tag.opening.text ++ rest) = (Text.find? rest Tag.close).map rest.take := by
  simp only [firstCondition?, Tag.ofText?_append, if_true, List.drop_left]

theorem firstCondition?_of_ne {text : Text} (h : Tag.ofText? text ≠ some .opening) :
    firstCondition? text = none := if_neg h

/-- The condition of a tag at an offset of a text. -/
def conditionAt? (text : Text) (found : Nat × Tag) : Option (Nat × Text) :=
  match found.2 with
  | .opening => (text.findFrom? Tag.close (found.1 + 1)).map fun stop =>
      (found.1, text.slice (found.1 + Tag.opening.text.length) stop)
  | _ => none

theorem conditions_eq (text : Text) :
    conditions text = (occurrences text).filterMap (conditionAt? text) := rfl

theorem fst_of_conditionAt? {text : Text} {found : Nat × Tag} {condition : Nat × Text}
    (h : conditionAt? text found = some condition) : condition.1 = found.1 := by
  rw [conditionAt?] at h
  split at h
  · obtain ⟨stop, -, rfl⟩ := Option.map_eq_some_iff.mp h
    rfl
  · cases h

/-- The condition of a tag is the first one of the text that the tag begins. -/
theorem conditionAt?_append (front : Text) (tag : Tag) (rest : Text) :
    conditionAt? (front ++ (tag.text ++ rest)) (front.length, tag) =
      (firstCondition? (tag.text ++ rest)).map (front.length, ·) := by
  cases tag with
  | alternative | closing =>
    rw [firstCondition?_of_ne (by rw [Tag.ofText?_append]; decide)]
    rfl
  | opening =>
    have hSlice (n : Nat) :
        Text.slice (front ++ (Tag.opening.text ++ rest)) (front.length + Tag.opening.text.length)
          (n + (front ++ Tag.opening.text).length) = rest.take n := by
      rw [Text.slice, ← List.append_assoc, Nat.add_comm n, List.take_length_add_append,
        ← List.length_append, List.drop_left]
    rw [conditionAt?, firstCondition?_opening, findFrom?_close_opening, Option.map_map,
      Option.map_map]
    simp only [Function.comp_def, hSlice]

/-- `conditions` lists the conditions of a text in order. -/
theorem map_snd_conditions (text : Text) :
    (conditions text).map Prod.snd = conditionTexts text := by
  suffices h : ∀ front, ((occurrencesFrom front.length text).filterMap
      (conditionAt? (front ++ text))).map Prod.snd = conditionTexts text from h []
  intro front
  induction text generalizing front with
  | nil => rfl
  | cons c text ih =>
    have hRest := ih (front ++ [c])
    rw [List.length_append, List.append_assoc] at hRest
    rw [conditionTexts, ← hRest]
    cases hc : Tag.ofText? (c :: text) with
    | none =>
      rw [occurrencesFrom_cons_of_none hc, firstCondition?_of_ne (by rw [hc]; decide)]
      rfl
    | some tag =>
      obtain ⟨rest, hText⟩ := Tag.prefix_of_ofText? hc
      have hFirst := conditionAt?_append front tag rest
      rw [hText] at hFirst
      rw [occurrencesFrom_cons_of_some hc, List.filterMap_cons, hFirst]
      cases firstCondition? (c :: text) <;> rfl

/-- The tags of the conditions come one behind the other. -/
theorem pairwise_conditions (text : Text) : (conditions text).Pairwise (·.1 < ·.1) := by
  rw [conditions_eq, List.pairwise_filterMap]
  refine (pairwise_occurrencesFrom 0 text).imp fun {a b} hlt condition hCondition other hOther => ?_
  rwa [fst_of_conditionAt? hCondition, fst_of_conditionAt? hOther]

/-! ### Pieces of a text -/

/-- What stands behind a piece of a text has no other conditions than the text. -/
theorem conditionTexts_sublist_append (front rest : Text) :
    (conditionTexts rest).Sublist (conditionTexts (front ++ rest)) := by
  induction front with
  | nil => exact List.Sublist.refl _
  | cons c front ih => exact ih.trans (List.sublist_append_right _ _)

/-- The condition of an opening tag comes before those behind it. -/
theorem conditionTexts_opening {condition : Text} (h : ¬Tag.close <:+: condition) (rest : Text) :
    (condition :: conditionTexts rest).Sublist
      (conditionTexts (Tag.opening.text ++ (condition ++ (Tag.close ++ rest)))) := by
  have hFirst : firstCondition? (Tag.opening.text ++ (condition ++ (Tag.close ++ rest))) =
      some condition := by
    rw [firstCondition?_opening, find?_close h, Option.map_some, List.take_left]
  rw [Tag.text_eq, List.cons_append] at hFirst ⊢
  rw [conditionTexts, hFirst]
  refine List.Sublist.cons_cons condition ?_
  rw [← List.append_assoc, ← List.append_assoc]
  exact conditionTexts_sublist_append _ _

theorem conditionTexts_of_not_infix {text : Text} (h : ¬Tag.opening.text <:+: text) :
    conditionTexts text = [] := by
  induction text with
  | nil => rfl
  | cons c text ih =>
    rw [List.infix_cons_iff, not_or, ← Tag.ofText?_eq_some_iff] at h
    rw [conditionTexts, firstCondition?_of_ne h.1, ih h.2]
    rfl

/-- A condition that ends in a piece of a text ends where it does in the text. -/
theorem firstCondition?_append {c : Char} {text : Text} (hTags : BracesAreTags (c :: text))
    (hClose : ClosesConditions (c :: text)) (rest : Text) :
    firstCondition? (c :: text ++ rest) = firstCondition? (c :: text) := by
  by_cases hc : c = '{'
  · subst hc
    obtain ⟨tag, tail, hTail⟩ := hTags text List.suffix_rfl
    rw [← hTail, List.append_assoc]
    by_cases hTag : tag = .opening
    · subst hTag
      obtain ⟨condition, behind, rfl, hCondition⟩ :=
        Text.exists_append_of_infix Tag.close_ne_nil (hClose tail (hTail ▸ List.suffix_rfl))
      rw [firstCondition?_opening, firstCondition?_opening, List.append_assoc, List.append_assoc,
        find?_close hCondition, find?_close hCondition, Option.map_some, Option.map_some,
        List.take_left, List.take_left]
    · have hne (rest : Text) : Tag.ofText? (tag.text ++ rest) ≠ some .opening := by
        rw [Tag.ofText?_append]
        exact fun h => hTag (Option.some.inj h)
      rw [firstCondition?_of_ne (hne _), firstCondition?_of_ne (hne _)]
  · have hne (rest : Text) : Tag.ofText? (c :: rest) ≠ some .opening := by
      rw [Tag.ofText?_cons_of_ne hc]
      exact (Option.some_ne_none _).symm
    rw [List.cons_append, firstCondition?_of_ne (hne _), firstCondition?_of_ne (hne _)]

/-- Two pieces have the conditions of the one and then those of the other, if those of the first
can end in it. -/
theorem conditionTexts_append {text : Text} (hTags : BracesAreTags text)
    (hClose : ClosesConditions text) (rest : Text) :
    conditionTexts (text ++ rest) = conditionTexts text ++ conditionTexts rest := by
  induction text with
  | nil => rfl
  | cons c text ih =>
    have hRest : ClosesConditions text := fun rest h =>
      hClose rest (h.trans (List.suffix_cons c text))
    rw [List.cons_append, conditionTexts, ← List.cons_append, firstCondition?_append hTags hClose,
      ih (@BracesAreTags.of_append [c] text hTags) hRest, conditionTexts, List.append_assoc]

namespace BracesAreTags

variable {front rest : Text}

theorem append (hFront : BracesAreTags front) (hRest : BracesAreTags rest) :
    BracesAreTags (front ++ rest) := by
  rintro tail ⟨before, hTail⟩
  rcases List.append_eq_append_iff.mp hTail with ⟨x, rfl, hx⟩ | ⟨x, -, hx⟩
  · cases x with
    | nil => exact hRest tail ⟨[], hx⟩
    | cons c x =>
      obtain ⟨rfl, rfl⟩ := List.cons.inj hx
      obtain ⟨tag, hTag⟩ := hFront x (List.suffix_append _ _)
      exact ⟨tag, hTag.trans (List.prefix_append _ _)⟩
  · exact hRest tail ⟨x, hx.symm⟩

/-- A piece of a text in front of a tag. -/
theorem of_append_tag {tag : Tag} (h : BracesAreTags (front ++ (tag.text ++ rest))) :
    BracesAreTags front := by
  rintro tail ⟨before, rfl⟩
  obtain ⟨tag', hTag⟩ := h (tail ++ (tag.text ++ rest))
    ⟨before, by simp only [List.append_assoc, List.cons_append]⟩
  exact ⟨tag', prefix_of_prefix_append_tag hTag⟩

end BracesAreTags

namespace Block

variable {text : Text} {block : Block}

/-- **A step leaves a text whose braces begin tags.** -/
theorem bracesAreTags_resolve (hTags : BracesAreTags text)
    (h : extract? false text = some block) (holds : Bool) :
    BracesAreTags (block.resolve holds) := by
  obtain ⟨front, body, hSplits⟩ := exists_splits h
  obtain ⟨branch, before, tag, behind, hResolve, rfl, -⟩ := hSplits.exists_branch holds
  have hBranch := hTags.of_append.of_append.of_append.of_append.of_append
  rw [hResolve]
  exact hTags.of_append_tag.append (hBranch.of_append_tag.append
    hBranch.of_append.of_append.of_append)

/-- **A step evaluates the first condition and leaves conditions that come behind it**, in the same
order. -/
theorem conditionTexts_resolve (hTags : BracesAreTags text)
    (h : extract? false text = some block) (holds : Bool) :
    (block.condition :: conditionTexts (block.resolve holds)).Sublist (conditionTexts text) := by
  obtain ⟨front, body, hSplits⟩ := exists_splits h
  obtain ⟨branch, before, tag, behind, hResolve, rfl, hClose⟩ := hSplits.exists_branch holds
  have hFront : ClosesConditions front := fun rest hRest =>
    absurd ((List.prefix_append _ _).isInfix.trans hRest.isInfix) hSplits.first
  have hBranch := hTags.of_append.of_append.of_append.of_append.of_append
  have hResolved : conditionTexts (block.resolve holds) =
      conditionTexts branch ++ conditionTexts block.after := by
    rw [hResolve, conditionTexts_append hTags.of_append_tag hFront,
      conditionTexts_of_not_infix hSplits.first, List.nil_append,
      conditionTexts_append hBranch.of_append_tag hClose]
  have hBehind : (conditionTexts branch ++ conditionTexts block.after).Sublist
      (conditionTexts (before ++ (branch ++ (tag.text ++ (behind ++ block.after))))) := by
    refine List.Sublist.trans ?_ (conditionTexts_sublist_append _ _)
    rw [conditionTexts_append hBranch.of_append_tag hClose, ← List.append_assoc]
    exact (conditionTexts_sublist_append _ _).append_left _
  rw [hResolved]
  exact (hBehind.cons_cons _).trans ((conditionTexts_opening hSplits.condition _).trans
    (conditionTexts_sublist_append _ _))

end Block

end Template

end SqlTemplate
