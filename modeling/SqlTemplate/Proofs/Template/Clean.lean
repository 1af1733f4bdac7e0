import SqlTemplate.Proofs.Condition.Names
import SqlTemplate.Proofs.Condition.Quotes
import SqlTemplate.Proofs.Template.Ends
import SqlTemplate.Template.Warning

/-!
# Templates without warnings

`check` goes through the tags of a text with a stack of the open directives and never looks where
a condition ends. Still, if every brace of a text begins a tag and there is no warning, **the text
is a printed tree whose conditions can be compiled** (`exists_tree_of_check_eq_nil`); and such a
tree has no warnings when it is printed (`check_print`).

A tag inside a condition would be missed by the tree and seen by the stack; but then one of two
conditions has an open quote (`Condition.not_compiles_both`). The rest is an induction over the
text: `Finishes` says what the open directives still ask of the text to come.
-/

namespace SqlTemplate

namespace Template

/-! ### Conditions without problems -/

/-- What is wrong with the condition of the tag at an offset, compiled afresh. -/
def conditionProblem (room : Nat) (text : Text) (offset : Nat) : Option Problem :=
  conditionProblemWith (m := Id) @Condition.compile room text offset

/-- The problems of tags in order, the conditions compiled afresh. -/
def problems (room : Nat) (text : Text) (tags : List (Nat × Tag)) (opens : List OpenDirective) :
    List (Nat × Problem) :=
  problemsWith (m := Id) @Condition.compile room text tags opens

variable {room : Nat}

/-- There are no warnings where there are no problems. -/
theorem check_eq_nil_iff (text : Text) :
    check text room = [] ↔ problems (room - 1) text (occurrences text) [] = [] := by
  rw [← List.length_eq_zero_iff]
  simp only [check, checkWith, bind, pure, List.length_mergeSort, List.length_map,
    List.length_eq_zero_iff]
  rfl

theorem problems_nil (text : Text) (opens : List OpenDirective) :
    problems room text [] opens = opens.reverse.map fun d => (d.offset, .unterminatedIf) := rfl

theorem problems_cons (text : Text) (offset : Nat) (tag : Tag) (rest : List (Nat × Tag))
    (opens : List OpenDirective) :
    problems room text ((offset, tag) :: rest) opens =
      ((match tag with
        | .opening => conditionProblem room text offset
        | _ => none).toList ++ (nest offset tag opens).1.toList).map ((offset, ·)) ++
        problems room text rest (nest offset tag opens).2 := by
  cases tag <;> rfl

/-- Without problems, no condition has one. -/
theorem conditionProblem_eq_none {text : Text} {tags : List (Nat × Tag)}
    {opens : List OpenDirective} (h : problems room text tags opens = []) {offset : Nat}
    (hTag : (offset, Tag.opening) ∈ tags) : conditionProblem room text offset = none := by
  induction tags generalizing opens with
  | nil => cases hTag
  | cons first rest ih =>
    obtain ⟨o, tag⟩ := first
    rw [problems_cons, List.append_eq_nil_iff, List.map_eq_nil_iff, List.append_eq_nil_iff] at h
    rcases List.mem_cons.mp hTag with hFirst | hRest
    · cases hFirst
      simpa using h.1.1
    · exact ih h.2 hRest

/-- A condition has the problem that compiling it has. -/
theorem conditionProblem_opening {condition : Text} (h : ¬Tag.close <:+: condition)
    (front tail : Text) :
    conditionProblem room (front ++ (Tag.opening.text ++ (condition ++ (Tag.close ++ tail))))
      front.length =
      match Condition.compile condition (room - 1) with
      | .ok _ => none
      | .error cause => some (.invalidCondition condition cause) := by
  simp only [conditionProblem, conditionProblemWith, findFrom?_close_opening, find?_close h,
    Option.map_some, slice_condition, bind, pure]
  rfl

/-- A condition without a problem can be compiled. -/
theorem isOk_compile_of_conditionProblem {front condition tail : Text}
    (hClose : ¬Tag.close <:+: condition)
    (h : conditionProblem room (front ++ (Tag.opening.text ++ (condition ++ (Tag.close ++ tail))))
      front.length = none) : (Condition.compile condition (room - 1)).isOk := by
  rw [conditionProblem_opening hClose] at h
  cases hCompile : Condition.compile condition (room - 1) with
  | ok c => rfl
  | error e =>
    rw [hCompile] at h
    cases h

/-- A tag without a problem has a condition that ends and can be compiled. -/
theorem exists_condition {front rest : Text}
    (h : conditionProblem room (front ++ (Tag.opening.text ++ rest)) front.length = none) :
    ∃ condition tail, rest = condition ++ (Tag.close ++ tail) ∧ ¬Tag.close <:+: condition ∧
      (Condition.compile condition (room - 1)).isOk := by
  cases hClose : Text.find? rest Tag.close with
  | none =>
    simp only [conditionProblem, conditionProblemWith, findFrom?_close_opening, hClose,
      Option.map_none] at h
    cases h
  | some m =>
    obtain ⟨condition, tail, rfl, -, hInfix⟩ :=
      Text.exists_append_of_find? Tag.close_ne_nil hClose
    exact ⟨condition, tail, rfl, hInfix, isOk_compile_of_conditionProblem hInfix h⟩

/-- Two texts that reach up to the first end of a condition are the same. -/
theorem eq_of_append_close {a b t u : Text} (h : a ++ (Tag.close ++ t) = b ++ (Tag.close ++ u))
    (ha : ¬Tag.close <:+: a) (hb : ¬Tag.close <:+: b) : a = b := by
  have hFind := find?_close ha t
  rw [h, find?_close hb, Option.some.injEq] at hFind
  exact (List.append_inj h hFind.symm).1

/-- Without problems, no tag begins inside a condition. -/
theorem notMem_condition (front : Text) {condition tail : Text}
    (hTags : BracesAreTags (condition ++ (Tag.close ++ tail)))
    (hProblems : ∀ offset, (offset, Tag.opening) ∈
      occurrencesFrom front.length (condition ++ (Tag.close ++ tail)) →
      conditionProblem room (front ++ (condition ++ (Tag.close ++ tail))) offset = none)
    (hClose : ¬Tag.close <:+: condition)
    (hCompile : (Condition.compile condition (room - 1)).isOk) : '{' ∉ condition := by
  intro hBrace
  obtain ⟨before, after, rfl, hBefore⟩ := List.eq_append_cons_of_mem hBrace
  rw [List.append_assoc, List.cons_append] at hTags hProblems
  have hAfter : ¬Tag.close <:+: after := fun hc =>
    hClose (hc.trans ⟨before ++ ['{'], [], by simp⟩)
  obtain ⟨tag, x, hx⟩ := hTags _ (List.suffix_append _ _)
  rw [Tag.text_eq, List.cons_append, List.cons.injEq] at hx
  replace hx := hx.2
  have unfinished (text : Text) (hTag : text ++ Tag.close = tag.body) (h : ¬Tag.close <:+: text) :
      False := by
    rw [← hTag, List.append_assoc] at hx
    rw [eq_of_append_close hx.symm hAfter h] at hCompile
    exact Condition.not_compiles_of_unfinished hTag hCompile
  cases tag with
  | alternative => exact unfinished ['%', ' ', 'e', 'l', 's', 'e', ' '] rfl (by decide)
  | closing => exact unfinished ['%', ' ', 'e', 'n', 'd', 'i', 'f', ' '] rfl (by decide)
  | opening =>
    rw [← hx, ← List.cons_append, ← Tag.text_eq] at hProblems
    have hInner : (front.length + before.length, Tag.opening) ∈
        occurrencesFrom front.length (before ++ (Tag.opening.text ++ x)) := by
      rw [occurrencesFrom_append_of_notMem hBefore, occurrencesFrom_tag_append]
      exact List.mem_cons_self
    have hNone := hProblems _ hInner
    rw [← List.append_assoc, ← List.length_append] at hNone
    obtain ⟨inner, rest, rfl, hInnerClose, hInnerCompile⟩ := exists_condition hNone
    rw [← List.append_assoc] at hx
    have hOpening : ¬Tag.close <:+: Tag.opening.body ++ inner := by
      simpa [Tag.close, Tag.body, Tag.text, List.infix_cons_iff] using hInnerClose
    rw [eq_of_append_close hx.symm hAfter hOpening] at hCompile
    exact Condition.not_compiles_both hCompile hInnerCompile

/-! ### Printed trees -/

/-- Whether all conditions of a tree can be compiled where there is some room. -/
def Tree.Compiles (room : Nat) : Tree → Prop
  | done => True
  | literal _ rest => rest.Compiles room
  | whenHolds condition valid rest =>
    (Condition.compile condition room).isOk ∧ valid.Compiles room ∧ rest.Compiles room
  | choose condition valid invalid rest =>
    (Condition.compile condition room).isOk ∧ valid.Compiles room ∧ invalid.Compiles room ∧
      rest.Compiles room

/-- Whether a piece of a text, behind another one, has no problems and takes the open directives
from one list to the other. -/
def Passes (room : Nat) (text front piece : Text) (opens opens' : List OpenDirective) : Prop :=
  ∀ rest, text = front ++ (piece ++ rest) →
    problems room text (occurrencesFrom front.length (piece ++ rest)) opens =
      problems room text (occurrencesFrom (front ++ piece).length rest) opens'

namespace Passes

variable {text front a b piece condition : Text} {opens opens' opens'' : List OpenDirective}

theorem append (ha : Passes room text front a opens opens')
    (hb : Passes room text (front ++ a) b opens' opens'') :
    Passes room text front (a ++ b) opens opens'' := by
  intro rest hText
  rw [List.append_assoc] at hText ⊢
  rw [ha _ hText, hb rest (by rw [hText, List.append_assoc]), List.append_assoc]

theorem nil : Passes room text front [] opens opens := by
  intro rest _
  rw [List.append_nil, List.nil_append]

theorem of_notMem (h : '{' ∉ piece) : Passes room text front piece opens opens := by
  intro rest _
  rw [occurrencesFrom_append_of_notMem h, List.length_append]

/-- A condition that can be compiled opens its directive. -/
theorem opening (hCondition : Tree.IsPlainCondition condition)
    (hCompile : (Condition.compile condition (room - 1)).isOk) :
    Passes room text front (Tag.opening.text ++ condition ++ Tag.close) opens
      (⟨front.length, false⟩ :: opens) := by
  intro rest hText
  simp only [List.append_assoc] at hText ⊢
  have hNone : conditionProblem room text front.length = none := by
    rw [hText, conditionProblem_opening hCondition.2]
    cases h : Condition.compile condition (room - 1) with
    | ok c => rfl
    | error e =>
      rw [h] at hCompile
      cases hCompile
  rw [occurrencesFrom_tag_append, problems_cons, occurrencesFrom_append_of_notMem hCondition.1,
    occurrencesFrom_close_append]
  simp only [hNone, nest, Option.toList_none, List.append_nil, List.map_nil, List.nil_append,
    List.length_append, Nat.add_assoc]

theorem alternative (offset : Nat) :
    Passes room text front Tag.alternative.text (⟨offset, false⟩ :: opens)
      (⟨offset, true⟩ :: opens) := by
  intro rest _
  rw [occurrencesFrom_tag_append, problems_cons, List.length_append]
  rfl

theorem closing (d : OpenDirective) :
    Passes room text front Tag.closing.text (d :: opens) opens := by
  intro rest _
  rw [occurrencesFrom_tag_append, problems_cons, List.length_append]
  rfl

/-- A printed tree leaves the directives around it as they are. -/
theorem print {tree : Tree} (h : tree.IsPlain) (hCompiles : tree.Compiles (room - 1)) :
    Passes room text front tree.print opens opens := by
  induction tree generalizing front opens with
  | done => exact nil
  | literal piece tree ih => exact (of_notMem h.1).append (ih h.2 hCompiles)
  | whenHolds condition valid tree ihValid ih =>
    obtain ⟨hCondition, hValid, hTree⟩ := h
    obtain ⟨hCompile, hValidCompiles, hTreeCompiles⟩ := hCompiles
    exact (((opening hCondition hCompile).append (ihValid hValid hValidCompiles)).append
      (closing _)).append (ih hTree hTreeCompiles)
  | choose condition valid invalid tree ihValid ihInvalid ih =>
    obtain ⟨hCondition, hValid, hInvalid, hTree⟩ := h
    obtain ⟨hCompile, hValidCompiles, hInvalidCompiles, hTreeCompiles⟩ := hCompiles
    exact (((((opening hCondition hCompile).append (ihValid hValid hValidCompiles)).append
      (alternative _)).append (ihInvalid hInvalid hInvalidCompiles)).append (closing _)).append
      (ih hTree hTreeCompiles)

end Passes

/-- A printed tree whose conditions can be compiled has no warnings. -/
theorem check_print {tree : Tree} (h : tree.IsPlain) (hCompiles : tree.Compiles (room - 1 - 1)) :
    check tree.print room = [] := by
  have hPasses : Passes (room - 1) tree.print [] tree.print [] [] := .print h hCompiles
  have hProblems := hPasses [] (by rw [List.append_nil, List.nil_append])
  rw [List.append_nil] at hProblems
  rw [check_eq_nil_iff]
  exact hProblems

/-! ### Building the tree -/

/-- What the open directives, the innermost first, ask of the text to come: each says whether its
`else` tag has been met, and there is one such tag at most. -/
inductive Finishes (room : Nat) : List Bool → Text → Prop where
  /-- Outside all directives the text is a printed tree. -/
  | done {tree : Tree} : tree.IsPlain → tree.Compiles room → Finishes room [] tree.print
  /-- The innermost directive is closed. -/
  | closing {seen : Bool} {opens : List Bool} {tree : Tree} {rest : Text} :
      tree.IsPlain → tree.Compiles room → Finishes room opens rest →
      Finishes room (seen :: opens) (tree.print ++ (Tag.closing.text ++ rest))
  /-- The innermost directive is divided. -/
  | alternative {opens : List Bool} {tree : Tree} {rest : Text} :
      tree.IsPlain → tree.Compiles room → Finishes room (true :: opens) rest →
      Finishes room (false :: opens) (tree.print ++ (Tag.alternative.text ++ rest))

namespace Finishes

/-- What can be put in front of a tree can be put in front of a text. -/
theorem prepend (front : Text)
    (hFront : ∀ tree : Tree, tree.IsPlain → tree.Compiles room →
      ∃ tree' : Tree, tree'.IsPlain ∧ tree'.Compiles room ∧ tree'.print = front ++ tree.print)
    {opens : List Bool} {text : Text} (h : Finishes room opens text) :
    Finishes room opens (front ++ text) := by
  cases h with
  | done hPlain hCompiles =>
    obtain ⟨tree', hPlain', hCompiles', hPrint⟩ := hFront _ hPlain hCompiles
    exact hPrint ▸ done hPlain' hCompiles'
  | closing hPlain hCompiles hRest =>
    obtain ⟨tree', hPlain', hCompiles', hPrint⟩ := hFront _ hPlain hCompiles
    rw [← List.append_assoc, ← hPrint]
    exact closing hPlain' hCompiles' hRest
  | alternative hPlain hCompiles hRest =>
    obtain ⟨tree', hPlain', hCompiles', hPrint⟩ := hFront _ hPlain hCompiles
    rw [← List.append_assoc, ← hPrint]
    exact alternative hPlain' hCompiles' hRest

theorem cons_of_ne {c : Char} (hc : c ≠ '{') {opens : List Bool} {text : Text}
    (h : Finishes room opens text) : Finishes room opens (c :: text) := by
  refine prepend [c] (fun tree hPlain hCompiles => ?_) h
  exact ⟨.literal [c] tree, ⟨by simpa using hc.symm, hPlain⟩, hCompiles, rfl⟩

/-- An opening tag and its condition make a directive of what follows. -/
theorem opening {condition : Text} (hCondition : Tree.IsPlainCondition condition)
    (hCompile : (Condition.compile condition room).isOk) {opens : List Bool} {text : Text}
    (h : Finishes room (false :: opens) text) :
    Finishes room opens (Tag.opening.text ++ (condition ++ (Tag.close ++ text))) := by
  cases h with
  | closing hPlain hCompiles hRest =>
    rename_i valid rest
    have := prepend (Tag.opening.text ++ (condition ++ (Tag.close ++ (valid.print ++
      Tag.closing.text)))) (fun tree hTree hTreeCompiles => ⟨.whenHolds condition valid tree,
        ⟨hCondition, hPlain, hTree⟩, ⟨hCompile, hCompiles, hTreeCompiles⟩, by
          simp only [Tree.print, List.append_assoc]⟩) hRest
    simpa only [List.append_assoc] using this
  | alternative hPlain hCompiles hOther =>
    rename_i valid rest
    cases hOther with
    | closing hInvalid hInvalidCompiles hRest =>
      rename_i invalid rest
      have := prepend (Tag.opening.text ++ (condition ++ (Tag.close ++ (valid.print ++
        (Tag.alternative.text ++ (invalid.print ++ Tag.closing.text))))))
        (fun tree hTree hTreeCompiles => ⟨.choose condition valid invalid tree,
          ⟨hCondition, hPlain, hInvalid, hTree⟩,
          ⟨hCompile, hCompiles, hInvalidCompiles, hTreeCompiles⟩, by
            simp only [Tree.print, List.append_assoc]⟩) hRest
      simpa only [List.append_assoc] using this

end Finishes

/-! ### Reading on without problems -/

/-- Whether a text behind another one has tags only and, with some directives open in front of it,
no problems. -/
structure Remains (room : Nat) (front rest : Text) (opens : List OpenDirective) : Prop where
  /-- Every brace begins a tag. -/
  tags : BracesAreTags rest
  /-- There are no problems. -/
  problems : problems room (front ++ rest) (occurrencesFrom front.length rest) opens = []

namespace Remains

variable {front rest tail : Text} {opens : List OpenDirective}

/-- At the end no directive is open. -/
theorem nil (h : Remains room front [] opens) : opens = [] := by
  have hProblems := h.problems
  rwa [occurrencesFrom, problems_nil, List.map_eq_nil_iff, List.reverse_eq_nil_iff] at hProblems

/-- A character outside tags is passed. -/
theorem cons {c : Char} (hc : c ≠ '{') (h : Remains room front (c :: rest) opens) :
    Remains room (front ++ [c]) rest opens := by
  refine ⟨@BracesAreTags.of_append [c] rest h.tags, ?_⟩
  have hProblems := h.problems
  rw [occurrencesFrom_cons_of_ne hc] at hProblems
  rwa [List.append_assoc, List.length_append]

/-- A tag is passed, as far as the open directives allow. -/
theorem tag {tag : Tag} (h : Remains room front (tag.text ++ tail) opens) :
    (nest front.length tag opens).1 = none ∧
      Remains room (front ++ tag.text) tail (nest front.length tag opens).2 := by
  have hProblems := h.problems
  rw [occurrencesFrom_tag_append, problems_cons, List.append_eq_nil_iff, List.map_eq_nil_iff,
    List.append_eq_nil_iff] at hProblems
  refine ⟨Option.toList_eq_nil_iff.mp hProblems.1.2, h.tags.of_append, ?_⟩
  rw [List.append_assoc, List.length_append]
  exact hProblems.2

/-- A closing tag closes the innermost directive. -/
theorem closing (h : Remains room front (Tag.closing.text ++ tail) opens) :
    ∃ d opens', opens = d :: opens' ∧ Remains room (front ++ Tag.closing.text) tail opens' := by
  obtain ⟨hNest, hTail⟩ := h.tag
  cases opens with
  | nil => cases hNest
  | cons d opens => exact ⟨d, opens, rfl, hTail⟩

/-- An `else` tag divides the innermost directive, which is not divided yet. -/
theorem alternative (h : Remains room front (Tag.alternative.text ++ tail) opens) :
    ∃ d opens', opens = d :: opens' ∧ d.elseSeen = false ∧
      Remains room (front ++ Tag.alternative.text) tail (⟨d.offset, true⟩ :: opens') := by
  obtain ⟨hNest, hTail⟩ := h.tag
  cases opens with
  | nil => cases hNest
  | cons d opens =>
    cases hSeen : d.elseSeen with
    | true =>
      rw [nest, if_pos hSeen] at hNest
      cases hNest
    | false =>
      rw [nest, if_neg (by rw [hSeen]; exact Bool.false_ne_true)] at hTail
      exact ⟨d, opens, rfl, hSeen, hTail⟩

/-- An opening tag has a condition that can be compiled, and opens a directive behind it. -/
theorem opening (h : Remains room front (Tag.opening.text ++ tail) opens) :
    ∃ condition rest, tail = condition ++ (Tag.close ++ rest) ∧
      Tree.IsPlainCondition condition ∧ (Condition.compile condition (room - 1)).isOk ∧
      Remains room (front ++ (Tag.opening.text ++ (condition ++ Tag.close))) rest
        (⟨front.length, false⟩ :: opens) := by
  have hFirst : (front.length, Tag.opening) ∈
      occurrencesFrom front.length (Tag.opening.text ++ tail) := by
    rw [occurrencesFrom_tag_append]
    exact List.mem_cons_self
  obtain ⟨condition, rest, rfl, hClose, hCompile⟩ :=
    exists_condition (conditionProblem_eq_none h.problems hFirst)
  have hTail := h.tag.2
  have hBrace : '{' ∉ condition :=
    notMem_condition _ hTail.tags
      (fun _ hOffset => conditionProblem_eq_none hTail.problems hOffset) hClose hCompile
  refine ⟨condition, rest, rfl, ⟨hBrace, hClose⟩, hCompile, hTail.tags.of_append.of_append, ?_⟩
  have hProblems := hTail.problems
  rw [occurrencesFrom_append_of_notMem hBrace, occurrencesFrom_close_append] at hProblems
  simp only [List.append_assoc, List.length_append, Nat.add_assoc] at hProblems ⊢
  exact hProblems

end Remains

/-- **A text without problems finishes what is open in front of it.** -/
theorem finishes_of_remains {front rest : Text} {opens : List OpenDirective}
    (h : Remains room front rest opens) : Finishes (room - 1) (opens.map (·.elseSeen)) rest := by
  induction hn : rest.length using Nat.strongRecOn generalizing front rest opens with
  | _ n ih =>
    subst hn
    cases rest with
    | nil =>
      rw [h.nil]
      show Finishes _ [] Tree.done.print
      exact .done trivial trivial
    | cons c rest =>
      by_cases hc : c = '{'
      · subst hc
        obtain ⟨tag, tail, hTail⟩ := h.tags rest List.suffix_rfl
        have hLength : tail.length < ('{' :: rest).length := by
          rw [← hTail, List.length_append, Tag.length_text]
          omega
        rw [← hTail] at h ⊢
        cases tag with
        | closing =>
          obtain ⟨d, opens, rfl, hRest⟩ := h.closing
          show Finishes _ _ (Tree.done.print ++ (Tag.closing.text ++ tail))
          exact .closing trivial trivial (ih _ hLength hRest rfl)
        | alternative =>
          obtain ⟨d, opens, rfl, hSeen, hRest⟩ := h.alternative
          rw [List.map_cons, hSeen]
          show Finishes _ _ (Tree.done.print ++ (Tag.alternative.text ++ tail))
          exact .alternative trivial trivial (ih _ hLength hRest rfl)
        | opening =>
          obtain ⟨condition, rest, rfl, hCondition, hCompile, hRest⟩ := h.opening
          simp only [List.length_append] at hLength
          exact .opening hCondition hCompile (ih _ (by omega) hRest rfl)
      · exact .cons_of_ne hc (ih _ (Nat.lt_succ_self _) (h.cons hc) rfl)

/-- **A template without warnings, all of whose braces begin tags, is a printed tree** in which no
tag can be mistaken and every condition can be compiled. -/
theorem exists_tree_of_check_eq_nil {text : Text} (hTags : BracesAreTags text)
    (h : check text room = []) :
    ∃ tree : Tree, tree.IsPlain ∧ tree.Compiles (room - 1 - 1) ∧ tree.print = text := by
  have hRemains : Remains (room - 1) [] text [] := ⟨hTags, (check_eq_nil_iff text).mp h⟩
  have hFinishes := finishes_of_remains hRemains
  generalize hOpens : List.map (fun d : OpenDirective => d.elseSeen) [] = opens at hFinishes
  cases hFinishes with
  | done hPlain hCompiles => exact ⟨_, hPlain, hCompiles, rfl⟩
  | closing => cases hOpens
  | alternative => cases hOpens

/-- **Among the texts all of whose braces begin tags, those without warnings are the printed trees**
in which no tag can be mistaken and every condition can be compiled. -/
theorem check_eq_nil_iff_exists_tree {text : Text} (hTags : BracesAreTags text) :
    check text room = [] ↔
      ∃ tree : Tree, tree.IsPlain ∧ tree.Compiles (room - 1 - 1) ∧ tree.print = text := by
  constructor
  · exact exists_tree_of_check_eq_nil hTags
  · rintro ⟨tree, hPlain, hCompiles, rfl⟩
    exact check_print hPlain hCompiles

/-- A directive with two empty branches is a tree, so it has no warnings. -/
theorem check_eq_nil_iff_exists_tree_choice :
    check (Tree.choose ['a'] .done .done .done).print Condition.usualRoom = [] := by
  have hPlain : (Tree.choose ['a'] .done .done .done).IsPlain :=
    ⟨⟨by decide, by decide⟩, trivial, trivial, trivial⟩
  have hCompile : (Condition.compile ['a'] (Condition.usualRoom - 1 - 1)).isOk := by
    rw [Condition.compile_name ⟨List.cons_ne_nil _ _, rfl⟩ rfl (by decide)]
    rfl
  exact (check_eq_nil_iff_exists_tree (IsPrinted.bracesAreTags ⟨_, hPlain, rfl⟩)).mpr
    ⟨_, hPlain, ⟨hCompile, trivial, trivial, trivial⟩, rfl⟩

end Template

end SqlTemplate
