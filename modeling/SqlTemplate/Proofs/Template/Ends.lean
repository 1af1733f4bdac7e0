import SqlTemplate.Proofs.Template.Printed

/-!
# The ends of a printed tree

Printed trees can be put one behind the other, and every brace in one begins a tag. A printed tree
without a directive has no brace; any other begins with text and a first directive
(`IsPrinted.exists_directive`). A character that is no brace can be taken from the beginning. **The
last character belongs to a literal text, and can be taken too, or to the closing tag of a
directive** (`Tree.endsWell_print`).
-/

namespace SqlTemplate

namespace Template

/-- Whether every brace that could open a tag does. -/
def BracesAreTags (text : Text) : Prop :=
  ∀ rest, '{' :: rest <:+ text → ∃ tag : Tag, tag.text <+: '{' :: rest

namespace BracesAreTags

theorem of_append {front rest : Text} (h : BracesAreTags (front ++ rest)) : BracesAreTags rest :=
  fun tail hTail => h tail (hTail.trans (List.suffix_append front rest))

theorem append_of_notMem {front rest : Text} (hFront : '{' ∉ front) (h : BracesAreTags rest) :
    BracesAreTags (front ++ rest) :=
  fun tail hTail => h tail (Text.cons_suffix_of_notMem hFront hTail)

theorem tag_append (tag : Tag) {rest : Text} (h : BracesAreTags rest) :
    BracesAreTags (tag.text ++ rest) := by
  intro tail hTail
  rw [Tag.text_eq, List.cons_append] at hTail
  rcases List.suffix_cons_iff.mp hTail with hTail | hTail
  · exact ⟨tag, by rw [hTail, Tag.text_eq]; exact List.prefix_append ('{' :: tag.body) rest⟩
  · exact append_of_notMem tag.notMem_body h tail hTail

end BracesAreTags

/-- Every brace of a printed tree begins a tag. -/
theorem Tree.bracesAreTags_print {tree : Tree} (h : tree.IsPlain) {rest : Text}
    (hRest : BracesAreTags rest) : BracesAreTags (tree.print ++ rest) := by
  induction tree generalizing rest with
  | done => exact hRest
  | literal text tree ih =>
    rw [print, List.append_assoc]
    exact .append_of_notMem h.1 (ih h.2 hRest)
  | whenHolds condition valid tree ihValid ih =>
    obtain ⟨hCondition, hValid, hTree⟩ := h
    simp only [print, List.append_assoc]
    exact .tag_append _ (.append_of_notMem hCondition.1 (.append_of_notMem (by decide)
      (ihValid hValid (.tag_append _ (ih hTree hRest)))))
  | choose condition valid invalid tree ihValid ihInvalid ih =>
    obtain ⟨hCondition, hValid, hInvalid, hTree⟩ := h
    simp only [print, List.append_assoc]
    exact .tag_append _ (.append_of_notMem hCondition.1 (.append_of_notMem (by decide)
      (ihValid hValid (.tag_append _ (ihInvalid hInvalid (.tag_append _ (ih hTree hRest)))))))

/-! ### Printed texts -/

/-- Whether a text is a printed tree in which no tag can be mistaken. -/
def IsPrinted (text : Text) : Prop := ∃ tree : Tree, tree.IsPlain ∧ tree.print = text

namespace IsPrinted

variable {a b condition front rest text : Text} {valid invalid : Tree}

theorem nil : IsPrinted [] := ⟨.done, trivial, rfl⟩

theorem literal (hText : '{' ∉ text) (h : IsPrinted rest) : IsPrinted (text ++ rest) := by
  obtain ⟨tree, hTree, rfl⟩ := h
  exact ⟨.literal text tree, ⟨hText, hTree⟩, rfl⟩

theorem of_notMem (h : '{' ∉ text) : IsPrinted text := by
  have := literal h nil
  rwa [List.append_nil] at this

theorem whenHolds (hCondition : Tree.IsPlainCondition condition) (hValid : valid.IsPlain)
    (h : IsPrinted rest) : IsPrinted (directive condition valid.print rest) := by
  obtain ⟨tree, hTree, rfl⟩ := h
  exact ⟨.whenHolds condition valid tree, ⟨hCondition, hValid, hTree⟩, Tree.print_whenHolds _ _ _⟩

theorem choose (hCondition : Tree.IsPlainCondition condition) (hValid : valid.IsPlain)
    (hInvalid : invalid.IsPlain) (h : IsPrinted rest) :
    IsPrinted
      (directive condition (valid.print ++ (Tag.alternative.text ++ invalid.print)) rest) := by
  obtain ⟨tree, hTree, rfl⟩ := h
  exact ⟨.choose condition valid invalid tree, ⟨hCondition, hValid, hInvalid, hTree⟩,
    Tree.print_choose _ _ _ _⟩

theorem append (ha : IsPrinted a) (hb : IsPrinted b) : IsPrinted (a ++ b) := by
  obtain ⟨tree, hTree, rfl⟩ := ha
  induction tree with
  | done => exact hb
  | literal text tree ih =>
    rw [Tree.print, List.append_assoc]
    exact literal hTree.1 (ih hTree.2)
  | whenHolds condition valid tree _ ih =>
    obtain ⟨hCondition, hValid, hTree⟩ := hTree
    rw [Tree.print_whenHolds, directive_append]
    exact whenHolds hCondition hValid (ih hTree)
  | choose condition valid invalid tree _ _ ih =>
    obtain ⟨hCondition, hValid, hInvalid, hTree⟩ := hTree
    rw [Tree.print_choose, directive_append]
    exact choose hCondition hValid hInvalid (ih hTree)

theorem bracesAreTags (h : IsPrinted text) : BracesAreTags text := by
  obtain ⟨tree, hTree, rfl⟩ := h
  have hNil : BracesAreTags [] := fun tail hTail => by simp at hTail
  have := Tree.bracesAreTags_print hTree hNil
  rwa [List.append_nil] at this

/-- A character that is no brace can be taken from the beginning. -/
theorem of_cons {c : Char} (hc : c ≠ '{') (h : IsPrinted (c :: rest)) : IsPrinted rest := by
  obtain ⟨tree, hTree, hPrint⟩ := h
  induction tree with
  | done => cases hPrint
  | literal text tree ih =>
    cases text with
    | nil => exact ih hTree.2 hPrint
    | cons d text =>
      cases hPrint
      exact literal (fun hText => hTree.1 (List.mem_cons_of_mem c hText)) ⟨tree, hTree.2, rfl⟩
  | whenHolds _ _ _ _ _ =>
    rw [Tree.print_whenHolds, directive, Tag.text_eq] at hPrint
    exact absurd (List.cons.inj hPrint).1.symm hc
  | choose _ _ _ _ _ _ _ =>
    rw [Tree.print_choose, directive, Tag.text_eq] at hPrint
    exact absurd (List.cons.inj hPrint).1.symm hc

/-- A printed tree has no directive or begins with text and a first one. -/
theorem exists_directive (h : IsPrinted text) :
    '{' ∉ text ∨ ∃ front condition rest, '{' ∉ front ∧ Tree.IsPlainCondition condition ∧
      IsPrinted rest ∧
      ((∃ valid : Tree, valid.IsPlain ∧ text = front ++ directive condition valid.print rest) ∨
      (∃ valid invalid : Tree, valid.IsPlain ∧ invalid.IsPlain ∧ text = front ++
        directive condition (valid.print ++ (Tag.alternative.text ++ invalid.print)) rest)) := by
  obtain ⟨tree, hTree, rfl⟩ := h
  induction tree with
  | done => exact .inl List.not_mem_nil
  | literal text tree ih =>
    obtain ⟨hText, hTree⟩ := hTree
    rcases ih hTree with hNone | ⟨front, condition, rest, hFront, hCondition, hRest, hText'⟩
    · refine .inl ?_
      rw [Tree.print, List.mem_append, not_or]
      exact ⟨hText, hNone⟩
    · refine .inr ⟨text ++ front, condition, rest, ?_, hCondition, hRest, ?_⟩
      · rw [List.mem_append, not_or]
        exact ⟨hText, hFront⟩
      · simpa only [Tree.print, List.append_assoc, List.append_cancel_left_eq] using hText'
  | whenHolds condition valid tree _ _ =>
    obtain ⟨hCondition, hValid, hTree⟩ := hTree
    exact .inr ⟨[], condition, tree.print, List.not_mem_nil, hCondition, ⟨tree, hTree, rfl⟩,
      .inl ⟨valid, hValid, Tree.print_whenHolds _ _ _⟩⟩
  | choose condition valid invalid tree _ _ _ =>
    obtain ⟨hCondition, hValid, hInvalid, hTree⟩ := hTree
    exact .inr ⟨[], condition, tree.print, List.not_mem_nil, hCondition, ⟨tree, hTree, rfl⟩,
      .inr ⟨valid, invalid, hValid, hInvalid, Tree.print_choose _ _ _ _⟩⟩

end IsPrinted

/-! ### The last character -/

/-- Whether a text closes all directives that it opens, and no others. -/
def ClosesItself (text : Text) : Prop :=
  ∀ depth offset rest, closerAmong depth (occurrencesFrom offset (text ++ rest)) =
    closerAmong depth (occurrencesFrom (offset + text.length) rest)

namespace ClosesItself

theorem of_notMem {text : Text} (h : '{' ∉ text) : ClosesItself text := by
  intro depth offset rest
  rw [occurrencesFrom_append_of_notMem h]

theorem append {a b : Text} (ha : ClosesItself a) (hb : ClosesItself b) :
    ClosesItself (a ++ b) := by
  intro depth offset rest
  rw [List.append_assoc, ha, hb, List.length_append, Nat.add_assoc]

theorem alternative : ClosesItself Tag.alternative.text := by
  intro depth offset rest
  rw [occurrencesFrom_tag_append, closerAmong]

theorem print {tree : Tree} (h : tree.IsPlain) : ClosesItself tree.print :=
  Tree.closerAmong_print h

/-- The condition and the body of a directive. -/
theorem condition {condition body : Text} (hCondition : Tree.IsPlainCondition condition)
    (hBody : ClosesItself body) : ClosesItself (condition ++ (Tag.close ++ body)) :=
  (of_notMem hCondition.1).append ((of_notMem (by decide)).append hBody)

end ClosesItself

/-- Whether a text may lose its last character: what is left is a printed tree, or the character
belonged to the closing tag of a last directive. -/
def EndsWell (text : Text) : Prop :=
  IsPrinted text.dropLast ∨
  ∃ front body, IsPrinted front ∧ ClosesItself body ∧
    text = front ++ (Tag.opening.text ++ (body ++ Tag.closing.text))

namespace EndsWell

theorem append {front rest : Text} (hFront : IsPrinted front) (hne : rest ≠ [])
    (h : EndsWell rest) : EndsWell (front ++ rest) := by
  rcases h with hRest | ⟨before, body, hBefore, hBody, rfl⟩
  · rw [EndsWell, List.dropLast_append_of_ne_nil hne]
    exact .inl (hFront.append hRest)
  · exact .inr ⟨front ++ before, body, hFront.append hBefore, hBody, by rw [List.append_assoc]⟩

/-- A directive ends in its closing tag or goes on behind it. -/
theorem directive {condition body rest : Text}
    (hBody : ClosesItself (condition ++ (Tag.close ++ body)))
    (hDirective : IsPrinted (directive condition body [])) (h : EndsWell rest) :
    EndsWell (directive condition body rest) := by
  cases rest with
  | nil =>
    refine .inr ⟨[], condition ++ (Tag.close ++ body), .nil, hBody, ?_⟩
    simp only [Template.directive, List.nil_append, List.append_nil, List.append_assoc]
  | cons c rest =>
    have := append hDirective (List.cons_ne_nil c rest) h
    rwa [directive_append, List.nil_append] at this

end EndsWell

/-- A printed tree is empty or ends in a literal text, and then it stays a printed tree when its
last character is cut off; or it ends in a closing tag. -/
theorem Tree.endsWell_print {tree : Tree} (h : tree.IsPlain) : EndsWell tree.print := by
  induction tree with
  | done => exact .inl .nil
  | literal text tree ih =>
    obtain ⟨hText, hTree⟩ := h
    rw [print]
    cases hPrint : tree.print with
    | nil =>
      rw [List.append_nil]
      exact .inl (.of_notMem fun hc => hText (text.dropLast_subset hc))
    | cons c rest =>
      exact .append (.of_notMem hText) (List.cons_ne_nil c rest) (hPrint ▸ ih hTree)
  | whenHolds condition valid tree _ ih =>
    obtain ⟨hCondition, hValid, hTree⟩ := h
    rw [print_whenHolds]
    exact .directive (.condition hCondition (.print hValid))
      (.whenHolds hCondition hValid .nil) (ih hTree)
  | choose condition valid invalid tree _ _ ih =>
    obtain ⟨hCondition, hValid, hInvalid, hTree⟩ := h
    rw [print_choose]
    exact .directive (.condition hCondition
        ((ClosesItself.print hValid).append (ClosesItself.alternative.append (.print hInvalid))))
      (.choose hCondition hValid hInvalid .nil) (ih hTree)

end Template

end SqlTemplate
