import SqlTemplate.Proofs.Template.Conditions
import SqlTemplate.Proofs.Template.DocumentOrder
import SqlTemplate.Proofs.Template.Pieces

/-!
# What is listed of a printed tree

The text outside the opening tags is cut at these tags only, so a piece of it can go over several
literal runs and the `else` and `endif` tags between them. But no reference goes over a brace
(`references_append_brace`), and with a brace in the place of each opening tag the pieces make up an
outline of the tree. A piece of a text adds its own conditions to those that are listed, and its own
outline, whatever stands around it (`Lists`). So **the conditions of a printed tree are those of its
directives, however they are nested, and its parameters are the names of these conditions and the
references of its literal runs** (`lists_print`).
-/

namespace SqlTemplate

namespace Text

/-- A text from a place on is a slice and what follows it. -/
theorem slice_append_drop (text : Text) {start stop : Nat} (h : start ≤ stop) :
    slice text start stop ++ text.drop stop = text.drop start := by
  rw [slice]
  by_cases hStop : stop ≤ text.length
  · have hTake : start ≤ (text.take stop).length := by
      rw [List.length_take, Nat.min_eq_left hStop]
      exact h
    rw [← List.drop_append_of_le_length hTake, List.take_append_drop]
  · have hLength : text.length ≤ stop := Nat.le_of_not_le hStop
    rw [List.drop_eq_nil_of_le hLength, List.append_nil, List.take_of_length_le hLength]

/-- Neighbouring slices of a text. -/
theorem slice_append_slice (text : Text) {start middle stop : Nat} (hStart : start ≤ middle)
    (hStop : middle ≤ stop) :
    slice text start middle ++ slice text middle stop = slice text start stop := by
  have hSplit := slice_append_drop (text.take stop) hStart
  rwa [slice, List.take_take, Nat.min_eq_left hStop] at hSplit

end Text

namespace Template

variable {front rest : Text} {name : Text} {found later : List (Nat × Text)}

/-! ### References and braces -/

/-- **No reference goes over a brace.** -/
theorem references_append_brace (front rest : Text) :
    references (front ++ '{' :: rest) = references front ++ references rest := by
  have hBrace : ∀ c ∈ ('{' :: rest).head?, ¬Text.isIdentifierPart c := by
    intro c hc
    cases hc
    decide
  rw [references, pieces_append hBrace, List.filterMap_append]
  congr 1
  change references ('{' :: rest) = _
  rw [references_cons, if_neg fun h => absurd h.1 (by decide)]

theorem references_append_of_notMem (h : '$' ∉ front) (rest : Text) :
    references (front ++ rest) = references rest := by
  induction front with
  | nil => rfl
  | cons c front ih =>
    rw [List.mem_cons, not_or] at h
    rw [List.cons_append, references_cons, if_neg fun hc => h.1 hc.1.symm, ih h.2]

/-- A tag has no references and keeps those on its sides apart. -/
theorem references_append_tag (front : Text) (tag : Tag) (rest : Text) :
    references (front ++ (tag.text ++ rest)) = references front ++ references rest := by
  have hBody : '$' ∉ tag.body := by cases tag <;> decide
  rw [Tag.text_eq, List.cons_append, references_append_brace, references_append_of_notMem hBody]

/-! ### The outline of a text -/

/-- Pieces of a text with a brace behind each of them. -/
def outlined (parts : List Text) : Text := parts.flatMap (· ++ ['{'])

theorem references_outlined (parts : List Text) :
    references (outlined parts) = parts.flatMap references := by
  induction parts with
  | nil => exact references_of_notMem List.not_mem_nil
  | cons part parts ih =>
    rw [outlined, List.flatMap_cons, List.append_assoc, List.singleton_append,
      references_append_brace, List.flatMap_cons, ← ih]
    rfl

/-- The text outside the tags goes on up to the next tag. -/
theorem outlined_outsideFrom (text : Text) {last offset : Nat} (hLast : last ≤ offset)
    (hFound : ∀ condition ∈ found, offset ≤ condition.1) :
    outlined (outsideFrom text last found) =
      text.slice last offset ++ outlined (outsideFrom text offset found) := by
  cases found with
  | nil =>
    simp only [outsideFrom, outlined, List.flatMap_singleton]
    rw [← List.append_assoc, Text.slice_append_drop text hLast]
  | cons first found =>
    obtain ⟨begins, condition⟩ := first
    have hBegins : offset ≤ begins := hFound _ List.mem_cons_self
    rw [outsideFrom, outsideFrom, outlined, List.flatMap_cons, outlined, List.flatMap_cons,
      Nat.max_eq_right (by omega), Nat.max_eq_right (by omega), ← List.append_assoc,
      ← List.append_assoc, Text.slice_append_slice text hLast hBegins]

/-- What a piece behind a text adds to what is listed, whatever follows: its conditions, and what it
has outside their tags. -/
structure Lists (front piece : Text) (found : List (Nat × Text)) (outline : Text) : Prop where
  /-- The tags of its conditions stand in it. -/
  begins : ∀ condition ∈ found, front.length ≤ condition.1
  /-- Its conditions are found before those behind it. -/
  conditions : ∀ rest, (occurrencesFrom front.length (piece ++ rest)).filterMap
      (conditionAt? (front ++ (piece ++ rest))) =
    found ++ (occurrencesFrom (front ++ piece).length rest).filterMap
      (conditionAt? (front ++ (piece ++ rest)))
  /-- Its outline stands before that of what is behind it. -/
  outside : ∀ rest later, (∀ condition ∈ later, (front ++ piece).length ≤ condition.1) →
    outlined (outsideFrom (front ++ (piece ++ rest)) front.length (found ++ later)) =
      outline ++ outlined (outsideFrom (front ++ (piece ++ rest)) (front ++ piece).length later)

namespace Lists

variable {piece piece' outline outline' condition : Text} {found' : List (Nat × Text)}

theorem append (h : Lists front piece found outline)
    (h' : Lists (front ++ piece) piece' found' outline') :
    Lists front (piece ++ piece') (found ++ found') (outline ++ outline') := by
  have hLength : front.length ≤ (front ++ piece).length := by simp
  refine ⟨?_, fun rest => ?_, fun rest later hLater => ?_⟩
  · exact List.forall_mem_append.mpr
      ⟨h.begins, fun condition hc => hLength.trans (h'.begins condition hc)⟩
  · have hRest := h'.conditions rest
    rw [List.append_assoc] at hRest
    rw [List.append_assoc, h.conditions, hRest, List.append_assoc, List.append_assoc]
  · have hRest := h'.outside rest later (by rwa [List.append_assoc])
    have hBegins : ∀ condition ∈ found' ++ later, (front ++ piece).length ≤ condition.1 := by
      refine List.forall_mem_append.mpr ⟨h'.begins, fun condition hc => ?_⟩
      refine Nat.le_trans ?_ (hLater condition hc)
      simp
    rw [List.append_assoc front] at hRest
    rw [List.append_assoc, List.append_assoc, h.outside _ _ hBegins, hRest, List.append_assoc,
      List.append_assoc]

/-- What has no condition stands in the outline. -/
theorem of_occurrences
    (h : ∀ rest, (occurrencesFrom front.length (piece ++ rest)).filterMap
        (conditionAt? (front ++ (piece ++ rest))) =
      (occurrencesFrom (front ++ piece).length rest).filterMap
        (conditionAt? (front ++ (piece ++ rest)))) :
    Lists front piece [] piece := by
  refine ⟨List.forall_mem_nil _, h, fun rest later hLater => ?_⟩
  rw [List.nil_append, outlined_outsideFrom _ (by simp) hLater, ← List.append_assoc,
    Text.slice_append]

theorem of_notMem (h : '{' ∉ piece) : Lists front piece [] piece := by
  refine of_occurrences fun rest => ?_
  rw [occurrencesFrom_append_of_notMem h, List.length_append]

theorem alternative (front : Text) :
    Lists front Tag.alternative.text [] Tag.alternative.text := by
  refine of_occurrences fun rest => ?_
  rw [occurrencesFrom_tag_append, List.filterMap_cons, List.length_append]
  rfl

theorem closing (front : Text) : Lists front Tag.closing.text [] Tag.closing.text := by
  refine of_occurrences fun rest => ?_
  rw [occurrencesFrom_tag_append, List.filterMap_cons, List.length_append]
  rfl

/-- An opening tag adds its condition, and only a brace to the outline. -/
theorem opening (front : Text) (h : Tree.IsPlainCondition condition) :
    Lists front (Tag.opening.text ++ (condition ++ Tag.close)) [(front.length, condition)]
      ['{'] := by
  refine ⟨?_, fun rest => ?_, fun rest later hLater => ?_⟩
  · exact List.forall_mem_singleton.mpr (Nat.le_refl _)
  · have hFirst : conditionAt? (front ++ (Tag.opening.text ++ (condition ++ (Tag.close ++ rest))))
        (front.length, .opening) = some (front.length, condition) := by
      rw [conditionAt?_append, firstCondition?_opening, find?_close h.2, Option.map_some,
        List.take_left, Option.map_some]
    simp only [List.append_assoc]
    rw [occurrencesFrom_tag_append, List.filterMap_cons, hFirst,
      occurrencesFrom_append_of_notMem h.1, occurrencesFrom_close_append]
    simp only [List.length_append, Nat.add_assoc, List.singleton_append]
  · have hEnd : max front.length (front.length + Tag.opening.text.length + condition.length +
        Tag.close.length) = (front ++ (Tag.opening.text ++ (condition ++ Tag.close))).length := by
      simp only [List.length_append]
      omega
    rw [List.singleton_append, outsideFrom, hEnd, outlined, List.flatMap_cons, Text.slice,
      List.drop_take_self]
    rfl

end Lists

namespace Tree

/-- A tree as it is written, with only a brace for each opening tag and its condition. -/
def outline : Tree → Text
  | done => []
  | literal text rest => text ++ rest.outline
  | whenHolds _ valid rest => '{' :: (valid.outline ++ (Tag.closing.text ++ rest.outline))
  | choose _ valid invalid rest =>
    '{' :: (valid.outline ++ (Tag.alternative.text ++
      (invalid.outline ++ (Tag.closing.text ++ rest.outline))))

/-- **A printed tree adds the conditions of its directives, and its outline.** -/
theorem lists_print_from {tree : Tree} (h : tree.IsPlain) (front : Text) :
    Lists front tree.print (tree.conditionsFrom front.length) tree.outline := by
  induction tree generalizing front with
  | done => exact .of_notMem List.not_mem_nil
  | literal text tree ih =>
    have hTree := ih h.2 (front ++ text)
    rw [List.length_append] at hTree
    exact Lists.append (.of_notMem h.1) hTree
  | whenHolds condition valid tree ihValid ih =>
    obtain ⟨hCondition, hValid, hTree⟩ := h
    have hInside := (Lists.opening front hCondition).append (ihValid hValid _)
    have hAll := (hInside.append (.closing _)).append (ih hTree _)
    simpa [print, conditionsFrom, outline, Nat.add_assoc] using hAll
  | choose condition valid invalid tree ihValid ihInvalid ih =>
    obtain ⟨hCondition, hValid, hInvalid, hTree⟩ := h
    have hInside := (Lists.opening front hCondition).append (ihValid hValid _)
    have hOther := (hInside.append (.alternative _)).append (ihInvalid hInvalid _)
    have hAll := (hOther.append (.closing _)).append (ih hTree _)
    simpa [print, conditionsFrom, outline, Nat.add_assoc] using hAll

/-- The references of a tree's outline are those of its literal runs. -/
theorem references_outline (tree : Tree) (run : Text) :
    references (run ++ tree.outline) = (tree.runsFrom run).flatMap references := by
  induction tree generalizing run with
  | done => rw [outline, List.append_nil, runsFrom, List.flatMap_singleton]
  | literal text tree ih => rw [outline, ← List.append_assoc, ih, runsFrom]
  | whenHolds condition valid tree ihValid ih =>
    rw [outline, references_append_brace, references_append_tag, ← List.nil_append valid.outline,
      ihValid, ← List.nil_append tree.outline, ih, runsFrom]
    simp only [List.cons_append, List.flatMap_cons, List.flatMap_append]
  | choose condition valid invalid tree ihValid ihInvalid ih =>
    rw [outline, references_append_brace, references_append_tag, references_append_tag,
      ← List.nil_append valid.outline, ihValid, ← List.nil_append invalid.outline, ihInvalid,
      ← List.nil_append tree.outline, ih, runsFrom]
    simp only [List.cons_append, List.flatMap_cons, List.flatMap_append, List.append_assoc]

end Tree

/-! ### What is listed of a printed tree -/

theorem conditions_print {tree : Tree} (h : tree.IsPlain) :
    conditions tree.print = tree.conditionsFrom 0 := by
  have hFound := (Tree.lists_print_from h []).conditions []
  simpa [conditions_eq, occurrences, occurrencesFrom] using hFound

/-- The references outside the opening tags are those of the literal runs. -/
theorem references_outside_print {tree : Tree} (h : tree.IsPlain) :
    (outside tree.print).flatMap references = (tree.runsFrom []).flatMap references := by
  have hOutline : outlined (outsideFrom tree.print 0 (tree.conditionsFrom 0)) =
      tree.outline ++ ['{'] := by
    simpa [outlined, outsideFrom] using
      (Tree.lists_print_from h []).outside [] [] (List.forall_mem_nil _)
  rw [← references_outlined, outside, conditions_print h, hOutline, references_append_brace,
    references_of_notMem List.not_mem_nil, List.append_nil, ← tree.references_outline []]
  rfl

/-- **Of a printed tree the conditions are listed that its directives have, in order and with their
places, however they are nested; and its parameters are, in increasing order and each once, the
names of the conditions that can be compiled there and the references of its literal runs.** -/
theorem lists_print {tree : Tree} (h : tree.IsPlain) (room : Nat) :
    conditions tree.print = tree.conditionsFrom 0 ∧
    (parameters tree.print room).Pairwise (fun s t => Text.before s t) ∧
    ∀ name, name ∈ parameters tree.print room ↔
      (∃ found ∈ tree.conditionsFrom 0,
        ∃ c, Condition.compile found.2 (room - 1) = .ok c ∧ name ∈ c.names) ∨
      ∃ run ∈ tree.runsFrom [], RefersTo run name := by
  refine ⟨conditions_print h, ?_, fun name => ?_⟩
  · rw [parameters_eq]
    exact Text.pairwise_sorted _
  · rw [parameters_eq, Text.mem_sorted, conditions_print h, references_outside_print h,
      List.mem_append, List.mem_flatMap, List.mem_flatMap]
    simp only [Condition.mem_names_iff, mem_references, reference_mem_pieces_iff]

/-- A condition that cannot be compiled, and a dollar sign with a directive's end behind it. -/
def mixedTree : Tree :=
  .literal ['$', 'd'] (.choose ['$', 'c', ' ', '+']
    (.literal ['$', 'b'] (.whenHolds ['a'] (.literal ['$'] .done) (.literal ['e'] .done)))
    .done .done)

/-- Neither the name in that condition nor the letter behind that end is a parameter. -/
theorem lists_print_mixed :
    mixedTree.IsPlain ∧
    conditions mixedTree.print = [(2, ['$', 'c', ' ', '+']), (16, ['a'])] ∧
    ∀ name, name ∈ parameters mixedTree.print Condition.usualRoom ↔
      name = ['a'] ∨ name = ['d'] ∨ name = ['b'] := by
  have hPlain : mixedTree.IsPlain := by
    refine ⟨by decide, ⟨by decide, by decide⟩, ⟨by decide, ⟨by decide, by decide⟩, ?_⟩, ?_⟩
    · exact ⟨⟨by decide, trivial⟩, by decide, trivial⟩
    · exact ⟨trivial, trivial⟩
  obtain ⟨hConditions, -, hMem⟩ := lists_print hPlain Condition.usualRoom
  have hInvalid : Condition.names ['$', 'c', ' ', '+'] (Condition.usualRoom - 1) = [] := by
    decide +kernel
  have hName : Condition.names ['a'] (Condition.usualRoom - 1) = [['a']] :=
    Condition.names_name ⟨by decide, by decide⟩ rfl (by decide)
  have hRuns : (mixedTree.runsFrom []).flatMap references = [['d'], ['b']] := by
    simp [mixedTree, Tree.runsFrom, references_cons, references_of_notMem, Text.identifier,
      Text.isIdentifierStart]
  refine ⟨hPlain, hConditions, fun name => ?_⟩
  rw [hMem, show mixedTree.conditionsFrom 0 = [(2, ['$', 'c', ' ', '+']), (16, ['a'])] from rfl]
  simp only [← Condition.mem_names_iff, ← reference_mem_pieces_iff, ← mem_references]
  rw [← List.mem_flatMap, ← List.mem_flatMap, hRuns]
  simp [hInvalid, hName]

end Template

end SqlTemplate
