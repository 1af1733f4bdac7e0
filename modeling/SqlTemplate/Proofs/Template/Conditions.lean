import SqlTemplate.Proofs.Condition.Dependence
import SqlTemplate.Proofs.Template.Clean
import SqlTemplate.Proofs.Template.References
import SqlTemplate.Template.Parameters

/-!
# The conditions of a text

A text has a condition if one of its opening tags has it, up to the first `Tag.close` behind the tag
(`HasCondition`); these are the conditions that `conditions` finds (`mem_conditions`). In a printed
tree each condition is over, and more text follows. So **a printed tree in front of a text brings
no condition that is not its own**, not even when it has lost its last character
(`HasCondition.of_append`).
-/

namespace SqlTemplate

namespace Template

/-- Whether an opening tag of a text has a condition, which goes up to the first `Tag.close`. -/
def HasCondition (text condition : Text) : Prop :=
  ¬Tag.close <:+: condition ∧
    ∃ front tail, text = front ++ (Tag.opening.text ++ (condition ++ (Tag.close ++ tail)))

namespace HasCondition

variable {text text' condition : Text}

/-- A piece of a text has no other conditions than the text. -/
theorem of_infix (hInfix : text <:+: text') (h : HasCondition text condition) :
    HasCondition text' condition := by
  obtain ⟨hClose, front, tail, rfl⟩ := h
  obtain ⟨before, after, rfl⟩ := hInfix
  exact ⟨hClose, before ++ front, tail ++ after, by simp only [List.append_assoc]⟩

theorem of_append_of_notMem {front : Text} (hFront : '{' ∉ front)
    (h : HasCondition (front ++ text) condition) : HasCondition text condition := by
  obtain ⟨hClose, before, tail, hText⟩ := h
  obtain ⟨between, hText⟩ := Text.cons_suffix_of_notMem hFront ⟨before, hText.symm⟩
  exact ⟨hClose, between, tail, hText.symm⟩

end HasCondition

/-! ### What is found -/

/-- A tag is found where it stands. -/
theorem mem_occurrencesFrom (tag : Tag) (offset : Nat) (front rest : Text) :
    (offset + front.length, tag) ∈ occurrencesFrom offset (front ++ (tag.text ++ rest)) := by
  induction front generalizing offset with
  | nil =>
    rw [List.nil_append, occurrencesFrom_tag_append]
    exact List.mem_cons_self
  | cons c front ih =>
    have hRest := ih (offset + 1)
    rw [Nat.add_assoc, Nat.add_comm 1] at hRest
    rw [List.cons_append, occurrencesFrom, List.length_cons]
    split
    · exact List.mem_cons_of_mem _ hRest
    · exact hRest

/-- The conditions of a text are found. -/
theorem mem_conditions {text condition : Text} (h : HasCondition text condition) :
    ∃ offset, (offset, condition) ∈ conditions text := by
  obtain ⟨hClose, front, tail, rfl⟩ := h
  have hTag := mem_occurrencesFrom .opening 0 front (condition ++ (Tag.close ++ tail))
  rw [Nat.zero_add] at hTag
  refine ⟨front.length, List.mem_filterMap.mpr ⟨_, hTag, ?_⟩⟩
  simp only [findFrom?_close_opening, find?_close hClose, Option.map_some, slice_condition]

/-- In a template without warnings all conditions can be compiled. -/
theorem HasCondition.isOk_compile {text condition : Text} {room : Nat}
    (h : HasCondition text condition) (hCheck : check text room = []) :
    (Condition.compile condition (room - 1 - 1)).isOk := by
  obtain ⟨hClose, front, tail, rfl⟩ := h
  have hTag := mem_occurrencesFrom .opening 0 front (condition ++ (Tag.close ++ tail))
  rw [Nat.zero_add] at hTag
  exact isOk_compile_of_conditionProblem hClose
    (conditionProblem_eq_none ((check_eq_nil_iff _).mp hCheck) hTag)

/-- The names that a template can read are those that its conditions read and the references
outside its opening tags. -/
theorem parameters_eq (text : Text) (room : Nat) :
    parameters text room = Text.sorted
      ((conditions text).flatMap (fun found => Condition.names found.2 (room - 1)) ++
        (outside text).flatMap references) := by
  have hNames (found : List (Nat × Text)) :
      conditionNamesWith (m := Id) @Condition.compile (room - 1) found =
        found.flatMap fun found => Condition.names found.2 (room - 1) := by
    induction found with
    | nil => rfl
    | cons first rest ih =>
      rw [List.flatMap_cons, ← ih]
      rfl
  rw [← hNames]
  rfl

theorem mem_parameters_of_hasCondition {text condition name : Text} {room : Nat}
    (h : HasCondition text condition) (hName : name ∈ Condition.names condition (room - 1)) :
    name ∈ parameters text room := by
  obtain ⟨offset, hFound⟩ := mem_conditions h
  rw [parameters_eq, Text.mem_sorted]
  exact List.mem_append_left _ (List.mem_flatMap.mpr ⟨_, hFound, hName⟩)

/-- A template without a dollar sign can read no names but those of its conditions. -/
theorem parameters_of_notMem {text : Text} (h : '$' ∉ text) (room : Nat) :
    parameters text room =
      Text.sorted ((conditions text).flatMap fun found => Condition.names found.2 (room - 1)) := by
  have hOutside (found : List (Nat × Text)) (last : Nat) :
      (outsideFrom text last found).flatMap references = [] := by
    induction found generalizing last with
    | nil =>
      rw [outsideFrom, List.flatMap_singleton]
      exact references_of_notMem fun hc => h (List.drop_subset _ _ hc)
    | cons first rest ih =>
      rw [outsideFrom, List.flatMap_cons, ih, List.append_nil]
      exact references_of_notMem fun hc => h (List.take_subset _ _ (List.drop_subset _ _ hc))
  rw [parameters_eq, outside, hOutside, List.append_nil]

/-! ### Conditions that are over -/

/-- Whether every opening tag of a text has a condition and more text behind it. -/
def EndsConditions (text : Text) : Prop :=
  ∀ rest, Tag.opening.text ++ rest <:+ text →
    ∃ condition tail, rest = condition ++ (Tag.close ++ tail) ∧ ¬Tag.close <:+: condition ∧
      tail ≠ []

namespace EndsConditions

variable {front rest condition tail : Text}

theorem append_of_notMem (hFront : '{' ∉ front) (h : EndsConditions rest) :
    EndsConditions (front ++ rest) :=
  fun tail hTail => h tail (Text.cons_suffix_of_notMem hFront hTail)

theorem tag_append {tag : Tag} (hTag : tag ≠ .opening) (h : EndsConditions rest) :
    EndsConditions (tag.text ++ rest) := by
  intro tail hTail
  have hTail' := hTail
  rw [Tag.text_eq tag, List.cons_append] at hTail'
  rcases List.suffix_cons_iff.mp hTail' with hEq | hTail'
  · rw [← List.cons_append, ← Tag.text_eq] at hEq
    have hFirst := congrArg Tag.ofText? hEq
    rw [Tag.ofText?_append, Tag.ofText?_append] at hFirst
    exact absurd (Option.some.inj hFirst).symm hTag
  · exact append_of_notMem tag.notMem_body h tail hTail'

theorem opening_append (hCondition : Tree.IsPlainCondition condition) (hne : tail ≠ [])
    (h : EndsConditions tail) :
    EndsConditions (Tag.opening.text ++ (condition ++ (Tag.close ++ tail))) := by
  intro rest hRest
  have hRest' := hRest
  rw [Tag.text_eq, List.cons_append, List.cons_append] at hRest'
  rcases List.suffix_cons_iff.mp hRest' with hEq | hRest'
  · exact ⟨condition, tail, List.append_cancel_left (List.cons.inj hEq).2, hCondition.2, hne⟩
  · refine append_of_notMem Tag.opening.notMem_body ?_ rest hRest'
    exact append_of_notMem hCondition.1 (append_of_notMem (by decide) h)

end EndsConditions

theorem Tree.endsConditions_print {tree : Tree} (h : tree.IsPlain) {rest : Text}
    (hRest : EndsConditions rest) : EndsConditions (tree.print ++ rest) := by
  induction tree generalizing rest with
  | done => exact hRest
  | literal text tree ih =>
    rw [print, List.append_assoc]
    exact .append_of_notMem h.1 (ih h.2 hRest)
  | whenHolds condition valid tree ihValid ih =>
    obtain ⟨hCondition, hValid, hTree⟩ := h
    simp only [print, List.append_assoc]
    refine .opening_append hCondition (by simp [Tag.text_eq]) ?_
    exact ihValid hValid (.tag_append (by decide) (ih hTree hRest))
  | choose condition valid invalid tree ihValid ihInvalid ih =>
    obtain ⟨hCondition, hValid, hInvalid, hTree⟩ := h
    simp only [print, List.append_assoc]
    refine .opening_append hCondition (by simp [Tag.text_eq]) ?_
    exact ihValid hValid (.tag_append (by decide)
      (ihInvalid hInvalid (.tag_append (by decide) (ih hTree hRest))))

theorem IsPrinted.endsConditions {text : Text} (h : IsPrinted text) : EndsConditions text := by
  obtain ⟨tree, hTree, rfl⟩ := h
  have hNil : EndsConditions [] := by
    intro rest hRest
    simp [Tag.text_eq] at hRest
  have := Tree.endsConditions_print hTree hNil
  rwa [List.append_nil] at this

/-- What begins a text with at most one character behind it, and goes on, begins the text. -/
theorem prefix_of_append {piece tail text cut : Text} (h : piece ++ tail <+: text ++ cut)
    (hne : tail ≠ []) (hCut : cut.length ≤ 1) : piece <+: text := by
  refine List.prefix_of_prefix_length_le ((List.prefix_append piece tail).trans h)
    (List.prefix_append text cut) ?_
  have hLength := h.length_le
  have hTail := List.length_pos_iff.mpr hne
  rw [List.length_append, List.length_append] at hLength
  omega

/-- An opening tag in a text that may have lost its last character is one of the whole text. -/
theorem opening_prefix_of_bracesAreTags {text cut rest x : Text} (h : BracesAreTags (text ++ cut))
    (hCut : cut.length ≤ 1) (hSuffix : '{' :: x <:+ text)
    (hOpening : Tag.opening.text <+: '{' :: x ++ rest) :
    Tag.opening.text <+: '{' :: x ++ cut := by
  obtain ⟨front, rfl⟩ := hSuffix
  have hBrace : '{' :: (x ++ cut) <:+ front ++ '{' :: x ++ cut := by simp
  obtain ⟨tag, hTag⟩ := h (x ++ cut) hBrace
  -- What is left of another tag differs from an opening tag.
  have hOther {piece : Text} {c : Char} (hPiece : piece ++ [c] <+: '{' :: x ++ cut)
      (hLength : Tag.opening.text.length ≤ piece.length) : Tag.opening.text <+: piece :=
    List.prefix_of_prefix_length_le hOpening
      ((prefix_of_append hPiece (List.cons_ne_nil c []) hCut).trans
        (List.prefix_append _ rest)) hLength
  cases tag with
  | opening => exact hTag
  | alternative =>
    exact absurd (@hOther Tag.alternative.text.dropLast '}' hTag (by decide)) (by decide)
  | closing => exact absurd (@hOther Tag.closing.text.dropLast '}' hTag (by decide)) (by decide)

/-- **A printed tree, which may have lost its last character, brings no condition that is not its
own** to the text behind it. -/
theorem HasCondition.of_append {text cut rest condition : Text} (hText : IsPrinted (text ++ cut))
    (hCut : cut.length ≤ 1) (h : HasCondition (text ++ rest) condition) :
    HasCondition (text ++ cut) condition ∨ HasCondition rest condition := by
  obtain ⟨hClose, front, tail, hTail⟩ := h
  rcases List.append_eq_append_iff.mp hTail with ⟨x, -, hRest⟩ | ⟨x, rfl, hRest⟩
  · exact .inr ⟨hClose, x, tail, hRest⟩
  · cases x with
    | nil => exact .inr ⟨hClose, [], tail, hRest.symm⟩
    | cons c x =>
      obtain ⟨rfl, -⟩ := List.cons.inj hRest
      have hOpening : Tag.opening.text <+: '{' :: x ++ rest := ⟨_, hRest⟩
      obtain ⟨behind, hBehind⟩ := opening_prefix_of_bracesAreTags hText.bracesAreTags hCut
        (List.suffix_append front ('{' :: x)) hOpening
      obtain ⟨condition', tail', rfl, hClose', hne⟩ := hText.endsConditions behind
        (hBehind ▸ ⟨front, (List.append_assoc ..).symm⟩)
      -- The condition is over before the character that may be lost.
      obtain ⟨kept, hKept⟩ : Tag.opening.text ++ (condition' ++ Tag.close) <+: '{' :: x := by
        refine prefix_of_append (hBehind ▸ ?_) hne hCut
        simp only [List.append_assoc, List.prefix_rfl]
      have hSame : condition ++ (Tag.close ++ tail) =
          condition' ++ (Tag.close ++ (kept ++ rest)) := by
        refine List.append_cancel_left (hRest.trans ?_)
        rw [← hKept]
        simp only [List.append_assoc]
      rw [eq_of_append_close hSame hClose hClose']
      refine .inl ⟨hClose', front, kept ++ cut, ?_⟩
      rw [← hKept]
      simp only [List.append_assoc]

end Template

end SqlTemplate
