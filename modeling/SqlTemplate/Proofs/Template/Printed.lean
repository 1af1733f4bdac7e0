import SqlTemplate.Proofs.Template.Occurrences
import SqlTemplate.Template.Tree

/-!
# The first directive of a printed tree

A tree that is printed behind a text without braces begins, after its literal texts, with a
directive or ends. Either way `Block.extract?` finds what the tree says: **its first directive,
taken apart into its condition and its branches** (`extract?_whenHolds`, `extract?_choose`), or
nothing (`extract?_of_notMem`). What stands behind the directive does not matter.
-/

namespace SqlTemplate

namespace Template

namespace Tree

/-! ### Walking over a printed tree -/

/-- A walk through tags that goes one deeper at an opener and one up at a closer is behind a printed
tree at the depth at which it was before, if it passes the `else` tags that are not at depth 0. -/
theorem walk_print {α : Type} {walk : Nat → List (Nat × Tag) → α}
    (hOpening : ∀ depth offset tags,
      walk depth ((offset, .opening) :: tags) = walk (depth + 1) tags)
    (hAlternative : ∀ depth offset tags,
      walk (depth + 1) ((offset, .alternative) :: tags) = walk (depth + 1) tags)
    (hClosing : ∀ depth offset tags,
      walk (depth + 1) ((offset, .closing) :: tags) = walk depth tags)
    {tree : Tree} (h : tree.IsPlain) (depth offset : Nat) (rest : Text) :
    walk depth (occurrencesFrom offset (tree.print ++ rest)) =
      walk depth (occurrencesFrom (offset + tree.print.length) rest) := by
  induction tree generalizing depth offset rest with
  | done => rfl
  | literal text tree ih =>
    obtain ⟨hText, hTree⟩ := h
    simp only [print, List.append_assoc, List.length_append]
    rw [occurrencesFrom_append_of_notMem hText, ih hTree, Nat.add_assoc]
  | whenHolds condition valid tree ihValid ih =>
    obtain ⟨hCondition, hValid, hTree⟩ := h
    simp only [print, List.append_assoc, List.length_append]
    rw [occurrencesFrom_tag_append, hOpening, occurrencesFrom_append_of_notMem hCondition.1,
      occurrencesFrom_close_append, ihValid hValid, occurrencesFrom_tag_append, hClosing, ih hTree]
    simp only [Nat.add_assoc]
  | choose condition valid invalid tree ihValid ihInvalid ih =>
    obtain ⟨hCondition, hValid, hInvalid, hTree⟩ := h
    simp only [print, List.append_assoc, List.length_append]
    rw [occurrencesFrom_tag_append, hOpening, occurrencesFrom_append_of_notMem hCondition.1,
      occurrencesFrom_close_append, ihValid hValid, occurrencesFrom_tag_append, hAlternative,
      ihInvalid hInvalid, occurrencesFrom_tag_append, hClosing, ih hTree]
    simp only [Nat.add_assoc]

/-- A printed tree closes every directive that it opens. -/
theorem closerAmong_print {tree : Tree} (h : tree.IsPlain) (depth offset : Nat) (rest : Text) :
    closerAmong depth (occurrencesFrom offset (tree.print ++ rest)) =
      closerAmong depth (occurrencesFrom (offset + tree.print.length) rest) :=
  walk_print (fun _ _ _ => by rw [closerAmong]) (fun _ _ _ => by rw [closerAmong])
    (fun _ _ _ => by rw [closerAmong]) h depth offset rest

/-- No `else` tag of a printed tree divides anything outside it. -/
theorem dividerAmong_print {tree : Tree} (h : tree.IsPlain) (depth offset : Nat) (rest : Text) :
    dividerAmong depth (occurrencesFrom offset (tree.print ++ rest)) =
      dividerAmong depth (occurrencesFrom (offset + tree.print.length) rest) :=
  walk_print (fun _ _ _ => by rw [dividerAmong]) (fun _ _ _ => by rw [dividerAmong])
    (fun _ _ _ => by rw [dividerAmong, Nat.add_sub_cancel]) h depth offset rest

theorem findElse_print {tree : Tree} (h : tree.IsPlain) : findElse tree.print 0 = none := by
  have := dividerAmong_print h 0 0 []
  rw [List.append_nil] at this
  rw [findElse_eq, List.drop_zero, this]
  rfl

theorem findElse_print_alternative {valid : Tree} (h : valid.IsPlain) (rest : Text) :
    findElse (valid.print ++ (Tag.alternative.text ++ rest)) 0 = some valid.print.length := by
  rw [findElse_eq, List.drop_zero, dividerAmong_print h, occurrencesFrom_tag_append, dividerAmong,
    Nat.zero_add]

end Tree

/-! ### Finding a written directive -/

/-- The end of a condition is found where it stands. -/
theorem find?_close {condition : Text} (h : ¬Tag.close <:+: condition) (rest : Text) :
    Text.find? (condition ++ (Tag.close ++ rest)) Tag.close = some condition.length :=
  Text.find?_append_of_not_infix (by decide) h rest

/-- The end of a condition is not found in its opening tag, whose brace has been passed. -/
theorem find?_close_opening (rest : Text) :
    Text.find? (Tag.opening.body ++ rest) Tag.close =
      (Text.find? rest Tag.close).map (· + Tag.opening.body.length) := by
  simp [Tag.body, Tag.text, Tag.close, Text.find?, List.isPrefixOf, Function.comp_def]

/-- A directive as it is written, and the text behind it. -/
def directive (condition body rest : Text) : Text :=
  Tag.opening.text ++ (condition ++ (Tag.close ++ (body ++ (Tag.closing.text ++ rest))))

section

variable {front condition body rest : Text}

theorem findFrom?_opening (hFront : ¬Tag.opening.text <:+: front) :
    Text.findFrom? (front ++ (Tag.opening.text ++ rest)) Tag.opening.text 0 =
      some front.length := by
  rw [Text.findFrom?, if_neg (Nat.not_lt_zero _), List.drop_zero, find?_append_tag hFront]
  rfl

/-- The end of a condition is looked for behind its opening tag. -/
theorem findFrom?_close_opening :
    Text.findFrom? (front ++ (Tag.opening.text ++ rest)) Tag.close (front.length + 1) =
      (Text.find? rest Tag.close).map (· + (front ++ Tag.opening.text).length) := by
  rw [Text.findFrom?, Text.drop_append_tag, find?_close_opening, if_neg (by simp [Tag.text_eq]),
    Option.map_map]
  congr 1
  funext n
  simp only [Function.comp_apply, List.length_append, Tag.length_text]
  omega

theorem findFrom?_close_directive (hCondition : Tree.IsPlainCondition condition) :
    Text.findFrom? (front ++ directive condition body rest) Tag.close (front.length + 1) =
      some (front ++ Tag.opening.text ++ condition).length := by
  rw [directive, findFrom?_close_opening, find?_close hCondition.2, Option.map_some,
    Nat.add_comm, ← List.length_append]

/-- A condition is what stands between its opening tag and where its end is found. -/
theorem slice_condition :
    Text.slice (front ++ (Tag.opening.text ++ (condition ++ rest)))
      (front.length + Tag.opening.text.length)
      (condition.length + (front ++ Tag.opening.text).length) = condition := by
  have := Text.slice_append (front ++ Tag.opening.text) condition rest
  simp only [List.append_assoc, List.length_append] at this ⊢
  rwa [Nat.add_comm condition.length, Nat.add_assoc]

/-- The body of a directive is what stands between its condition and its closing tag. -/
theorem slice_body :
    Text.slice (front ++ directive condition body rest)
      (condition.length + (front ++ Tag.opening.text).length + Tag.close.length)
      ((front ++ Tag.opening.text).length + (condition ++ Tag.close ++ body).length) = body := by
  have hText : front ++ directive condition body rest =
      front ++ Tag.opening.text ++ condition ++ Tag.close ++ body ++
        (Tag.closing.text ++ rest) := by
    simp only [directive, List.append_assoc]
  have hSlice := Text.slice_append (front ++ Tag.opening.text ++ condition ++ Tag.close) body
    (Tag.closing.text ++ rest)
  rw [← hText] at hSlice
  simp only [List.length_append, Nat.add_assoc] at hSlice ⊢
  rwa [Nat.add_left_comm condition.length, Nat.add_left_comm condition.length]

/-- Behind the closing tag of a directive the rest follows. -/
theorem drop_directive :
    List.drop ((front ++ Tag.opening.text).length + (condition ++ Tag.close ++ body).length +
      Tag.closing.text.length) (front ++ directive condition body rest) = rest := by
  have hText : front ++ directive condition body rest =
      front ++ Tag.opening.text ++ (condition ++ Tag.close ++ body) ++
        Tag.closing.text ++ rest := by
    simp only [directive, List.append_assoc]
  rw [hText, ← List.length_append, ← List.length_append, List.drop_left]

/-- The directive is closed behind its body if the body closes what it opens. -/
theorem closer?_directive (hCondition : Tree.IsPlainCondition condition)
    (hBody : ∀ offset, closerAmong 0 (occurrencesFrom offset (body ++ (Tag.closing.text ++ rest))) =
      some (offset + body.length)) :
    closer? (front ++ directive condition body rest) (front.length + 1) =
      some (front ++ Tag.opening.text ++ condition ++ Tag.close ++ body).length := by
  rw [directive, closer?_eq, Text.drop_append_tag,
    occurrencesFrom_append_of_notMem Tag.opening.notMem_body,
    occurrencesFrom_append_of_notMem hCondition.1, occurrencesFrom_close_append, hBody]
  simp only [Tag.length_text, List.length_append, Option.some.injEq]
  omega

/-- A directive is lost if nothing behind its opening tag closes it. -/
theorem closer?_opening_eq_none
    (h : ∀ offset, closerAmong 0 (occurrencesFrom offset rest) = none) :
    closer? (front ++ (Tag.opening.text ++ rest)) (front.length + 1) = none := by
  rw [closer?_eq, Text.drop_append_tag, occurrencesFrom_append_of_notMem Tag.opening.notMem_body,
    h]

end

/-! ### Taking a text apart -/

namespace Block

theorem cutBefore_append (trim : Bool) (front rest : Text) :
    cutBefore trim (front ++ rest) front.length = if trim then front.dropLast else front := by
  cases trim
  · simp [cutBefore]
  · simp [cutBefore, List.take_append, List.dropLast_eq_take]

theorem branches_print {valid : Tree} (h : valid.IsPlain) (trim : Bool) :
    branches trim valid.print = (valid.print, []) := by
  simp only [branches, Tree.findElse_print h]

theorem branches_print_alternative {valid : Tree} (h : valid.IsPlain) (trim : Bool) (rest : Text) :
    branches trim (valid.print ++ (Tag.alternative.text ++ rest)) =
      (if trim then valid.print.dropLast else valid.print, rest) := by
  rw [branches, Tree.findElse_print_alternative h]
  simp only [cutBefore_append]
  rw [← List.append_assoc, ← List.length_append, List.drop_left]

/-- A text without a brace has no directive. -/
theorem extract?_of_notMem {text : Text} (h : '{' ∉ text) (trim : Bool) :
    extract? trim text = none := by
  have hfind : text.find? Tag.opening.text = none := by
    have := Text.find?_append_of_notMem h Tag.opening.body []
    rw [List.append_nil, ← Tag.text_eq] at this
    rw [this]
    rfl
  simp [extract?, findSpan, Text.findFrom?, hfind]

/-- A directive that nothing closes hides all that come behind it. -/
theorem extract?_opening_eq_none {front rest : Text} (hFront : '{' ∉ front)
    (h : ∀ offset, closerAmong 0 (occurrencesFrom offset rest) = none) (trim : Bool) :
    extract? trim (front ++ (Tag.opening.text ++ rest)) = none := by
  have hOpening : Text.findFrom? (front ++ (Tag.opening.text ++ rest)) Tag.opening.text 0 =
      some front.length := findFrom?_opening (Tag.not_infix_of_notMem hFront .opening)
  simp only [extract?, findSpan, hOpening, closer?_opening_eq_none h, Option.bind_eq_bind,
    Option.bind_some, Option.bind_none]

/-- The first directive is found where its parts have been put, if its closer is found behind its
body. -/
theorem extract?_of_closer? {front condition body rest : Text}
    (hFront : ¬Tag.opening.text <:+: front) (hCondition : ¬Tag.close <:+: condition)
    (hClosed : closer? (front ++ directive condition body rest) (front.length + 1) =
      some (front ++ Tag.opening.text ++ condition ++ Tag.close ++ body).length) (trim : Bool) :
    extract? trim (front ++ directive condition body rest) = some {
      before := if trim then front.dropLast else front
      condition := condition
      valid := (branches trim body).1
      invalid := (branches trim body).2
      after := rest } := by
  have hOpening : Text.findFrom? (front ++ directive condition body rest) Tag.opening.text 0 =
      some front.length := findFrom?_opening hFront
  have hClose : Text.findFrom? (front ++ directive condition body rest) Tag.close
      (front.length + 1) = some (condition.length + (front ++ Tag.opening.text).length) := by
    rw [directive, findFrom?_close_opening, find?_close hCondition, Option.map_some]
  have hLength : (front ++ Tag.opening.text ++ condition ++ Tag.close ++ body).length =
      (front ++ Tag.opening.text).length + (condition ++ Tag.close ++ body).length := by
    simp only [List.length_append, Nat.add_assoc]
  rw [hLength] at hClosed
  have hSlice : Text.slice (front ++ directive condition body rest)
      (front.length + Tag.opening.text.length)
      (condition.length + (front ++ Tag.opening.text).length) = condition := slice_condition
  -- The closing tag stands behind the condition, so the searches do not cross.
  have hFits : ¬(front ++ Tag.opening.text).length + (condition ++ Tag.close ++ body).length <
      condition.length + (front ++ Tag.opening.text).length + Tag.close.length := by
    simp only [List.length_append]
    omega
  simp only [extract?, findSpan, hOpening, hClosed, hClose, Option.bind_eq_bind, Option.bind_some,
    Option.pure_def, if_neg hFits, slice_body, hSlice, drop_directive, cutBefore_append]

/-- A directive whose body closes what it opens is taken apart where it stands. -/
theorem extract?_directive {front condition body rest : Text} (hFront : '{' ∉ front)
    (hCondition : Tree.IsPlainCondition condition)
    (hBody : ∀ offset, closerAmong 0 (occurrencesFrom offset (body ++ (Tag.closing.text ++ rest))) =
      some (offset + body.length)) (trim : Bool) :
    extract? trim (front ++ directive condition body rest) = some {
      before := if trim then front.dropLast else front
      condition := condition
      valid := (branches trim body).1
      invalid := (branches trim body).2
      after := rest } :=
  extract?_of_closer? (Tag.not_infix_of_notMem hFront .opening) hCondition.2
    (closer?_directive hCondition hBody) trim

/-- A directive without an `else` tag. -/
theorem extract?_whenHolds {front condition : Text} {valid : Tree} (hFront : '{' ∉ front)
    (hCondition : Tree.IsPlainCondition condition) (hValid : valid.IsPlain) (trim : Bool)
    (rest : Text) :
    extract? trim (front ++ directive condition valid.print rest) = some {
      before := if trim then front.dropLast else front
      condition := condition
      valid := valid.print
      invalid := []
      after := rest } := by
  have hBody (offset : Nat) :
      closerAmong 0 (occurrencesFrom offset (valid.print ++ (Tag.closing.text ++ rest))) =
        some (offset + valid.print.length) := by
    rw [Tree.closerAmong_print hValid, occurrencesFrom_tag_append, closerAmong]
  rw [extract?_directive hFront hCondition hBody, branches_print hValid]

/-- A directive with an `else` tag. -/
theorem extract?_choose {front condition : Text} {valid invalid : Tree} (hFront : '{' ∉ front)
    (hCondition : Tree.IsPlainCondition condition) (hValid : valid.IsPlain)
    (hInvalid : invalid.IsPlain) (trim : Bool) (rest : Text) :
    extract? trim (front ++
      directive condition (valid.print ++ (Tag.alternative.text ++ invalid.print)) rest) = some {
      before := if trim then front.dropLast else front
      condition := condition
      valid := if trim then valid.print.dropLast else valid.print
      invalid := invalid.print
      after := rest } := by
  have hBody (offset : Nat) :
      closerAmong 0 (occurrencesFrom offset
        (valid.print ++ (Tag.alternative.text ++ invalid.print) ++ (Tag.closing.text ++ rest))) =
        some (offset + (valid.print ++ (Tag.alternative.text ++ invalid.print)).length) := by
    rw [List.append_assoc, List.append_assoc, Tree.closerAmong_print hValid,
      occurrencesFrom_tag_append, closerAmong, Tree.closerAmong_print hInvalid,
      occurrencesFrom_tag_append, closerAmong]
    simp only [List.length_append, Nat.add_assoc]
  rw [extract?_directive hFront hCondition hBody, branches_print_alternative hValid]

end Block

namespace Tree

/-! ### Printed trees as written directives -/

theorem print_whenHolds (condition : Text) (valid rest : Tree) :
    (whenHolds condition valid rest).print = directive condition valid.print rest.print := by
  simp only [print, directive, List.append_assoc]

theorem print_choose (condition : Text) (valid invalid rest : Tree) :
    (choose condition valid invalid rest).print =
      directive condition (valid.print ++ (Tag.alternative.text ++ invalid.print)) rest.print := by
  simp only [print, directive, List.append_assoc]

end Tree

theorem directive_append (condition body rest tail : Text) :
    directive condition body rest ++ tail = directive condition body (rest ++ tail) := by
  simp only [directive, List.append_assoc]

end Template

end SqlTemplate
