import SqlTemplate.Proofs.Template.Clean
import SqlTemplate.Proofs.Template.Ownership

/-!
# Warnings and searches agree

`check` goes through the tags once with a stack; `matchEndif` and `findElse` start anew from each
opening tag. Both give the same tags to the same directives:

* **the openers reported as never closed and the closers reported as closing nothing are those that
  `matchEndif` finds no partner for** (`perm_warnedLines_closing`);
* **the `else` tags reported are those that divide no body** (`elseReported_iff_not_divides`), where
  conditions end and hold no brace and all directives are closed.
-/

namespace SqlTemplate

namespace Template

/-! ### Tags behind an opening tag -/

/-- The tags of a text behind the brace at an offset. -/
def tagsBehind (text : Text) (offset : Nat) : List (Nat × Tag) :=
  occurrencesFrom (offset + 1) (text.drop (offset + 1))

/-- Behind a tag of a text stand the tags behind its brace. -/
theorem cons_suffix_occurrencesFrom_iff {start offset : Nat} {tag : Tag} {rest : List (Nat × Tag)}
    {text : Text} :
    (offset, tag) :: rest <:+ occurrencesFrom start text ↔
      (offset, tag) ∈ occurrencesFrom start text ∧
        rest = occurrencesFrom (offset + 1) (text.drop (offset + 1 - start)) := by
  induction text generalizing start with
  | nil => simp [occurrencesFrom]
  | cons c text ih =>
    have hLater : (offset, tag) :: rest <:+ occurrencesFrom (start + 1) text ↔
        (offset, tag) ∈ occurrencesFrom (start + 1) text ∧
          rest = occurrencesFrom (offset + 1) ((c :: text).drop (offset + 1 - start)) := by
      rw [ih]
      refine and_congr_right fun hMem => ?_
      obtain ⟨front, _, _, hOffset⟩ := eq_append_of_mem_occurrencesFrom hMem
      rw [show offset + 1 - start = offset + 1 - (start + 1) + 1 by omega, List.drop_succ_cons]
    cases hc : Tag.ofText? (c :: text) with
    | none => rwa [occurrencesFrom_cons_of_none hc]
    | some first =>
      rw [occurrencesFrom_cons_of_some hc, List.suffix_cons_iff, List.mem_cons, or_and_right,
        List.cons.injEq, hLater]
      refine or_congr (and_congr_right fun hFirst => ?_) Iff.rfl
      cases hFirst
      rw [Nat.add_sub_cancel_left, List.drop_succ_cons, List.drop_zero]

theorem cons_suffix_occurrences_iff {offset : Nat} {tag : Tag} {rest : List (Nat × Tag)}
    {text : Text} :
    (offset, tag) :: rest <:+ occurrences text ↔
      (offset, tag) ∈ occurrences text ∧ rest = tagsBehind text offset :=
  cons_suffix_occurrencesFrom_iff

theorem pairwise_occurrences (text : Text) : (occurrences text).Pairwise (·.1 < ·.1) :=
  pairwise_occurrencesFrom 0 text

/-- What holds of a directive of a text holds of one of its opening tags. -/
theorem ofSome_occurrences_iff {P : Prospect} {text : Text} :
    OfSome P [] (occurrences text) ↔
      ∃ opened, (opened, .opening) ∈ occurrences text ∧
        P ⟨opened, false⟩ 0 (tagsBehind text opened) := by
  simp [OfSome, cons_suffix_occurrences_iff, and_assoc]

theorem matchEndif_eq (text : Text) (opened : Nat) :
    matchEndif text opened = closerAmong 0 (tagsBehind text opened) := by
  have hStart : text.resolveOffset ((opened : Int) + 1) = opened + 1 := by
    rw [Text.resolveOffset, if_neg (by omega)]
    omega
  rw [matchEndif, hStart, closer?_eq, tagsBehind]

/-! ### Warnings without lines -/

/-- The lines of the warnings of certain kinds. -/
def warnedLines (kinds : List String) (text : Text) (room : Nat) : List Nat :=
  ((check text room).filter fun w => w.problem.kind ∈ kinds).map (·.line)

variable {room : Nat}

theorem kind_of_conditionProblem {text : Text} {offset : Nat} {p : Problem}
    (h : conditionProblem room text offset = some p) : p.kind = "invalid_condition" := by
  rw [conditionProblem, conditionProblemWith] at h
  split at h
  · cases h
    rfl
  · simp only [bind] at h
    split at h
    · cases h
    · cases h
      rfl

/-- The problems but those of conditions are those of nesting. -/
theorem filter_problems {kinds : List String} (hKinds : "invalid_condition" ∉ kinds) (text : Text)
    (tags : List (Nat × Tag)) (opens : List OpenDirective) :
    (problems room text tags opens).filter (fun found => found.2.kind ∈ kinds) =
      (nestingProblems tags opens).filter (fun found => found.2.kind ∈ kinds) := by
  induction tags generalizing opens with
  | nil => rfl
  | cons first rest ih =>
    obtain ⟨offset, tag⟩ := first
    rw [problems_cons, nestingProblems, List.filter_append, List.filter_append, ih]
    congr 1
    cases tag with
    | alternative | closing => rfl
    | opening =>
      cases hProblem : conditionProblem room text offset with
      | none => rfl
      | some p => simp [kind_of_conditionProblem hProblem, hKinds, nest]

theorem mem_problems_iff {kinds : List String} (hKinds : "invalid_condition" ∉ kinds) {text : Text}
    {tags : List (Nat × Tag)} {opens : List OpenDirective} {offset : Nat} {p : Problem}
    (hp : p.kind ∈ kinds) :
    (offset, p) ∈ problems room text tags opens ↔ (offset, p) ∈ nestingProblems tags opens := by
  have hFilter := congrArg ((offset, p) ∈ ·) (@filter_problems room kinds hKinds text tags opens)
  simpa [hp] using hFilter

/-- Sorting by lines loses no problem and adds none. -/
theorem perm_check (text : Text) (room : Nat) :
    (check text room).Perm ((problems (room - 1) text (occurrences text) []).map fun found =>
      ⟨found.2, lineOf text found.1⟩) :=
  List.mergeSort_perm _ _

/-- The lines of warnings are those of the problems of nesting. -/
theorem perm_warnedLines {kinds : List String} (hKinds : "invalid_condition" ∉ kinds)
    (text : Text) (room : Nat) :
    (warnedLines kinds text room).Perm
      ((((nestingProblems (occurrences text) []).filter fun found =>
        found.2.kind ∈ kinds).map Prod.fst).map (lineOf text)) := by
  have hLines :=
    ((perm_check text room).filter fun w => decide (w.problem.kind ∈ kinds)).map Warning.line
  rw [List.filter_map, List.map_map] at hLines
  rwa [← filter_problems hKinds text, List.map_map]

/-- The lines of warnings are those of the tags that have the problems. -/
theorem perm_warnedLines_of_iff {kinds : List String} (hKinds : "invalid_condition" ∉ kinds)
    {text : Text} (tag : Tag) (Q : Nat → Prop) [DecidablePred Q]
    (h : ∀ offset, (∃ p, (offset, p) ∈ nestingProblems (occurrences text) [] ∧ p.kind ∈ kinds) ↔
      (offset, tag) ∈ occurrences text ∧ Q offset) :
    (warnedLines kinds text room).Perm
      (((occurrences text).filter fun found => found.2 = tag ∧ Q found.1).map fun found =>
        lineOf text found.1) := by
  let Tags := (occurrences text).filter fun found => found.2 = tag ∧ Q found.1
  have hTags := pairwise_occurrences text
  have hProblems : (((nestingProblems (occurrences text) []).filter fun found =>
      found.2.kind ∈ kinds).map Prod.fst).Nodup :=
    (nodup_nestingProblems hTags).sublist (List.filter_sublist.map Prod.fst)
  have hFound : (Tags.map Prod.fst).Nodup := nodup_offsets (hTags.sublist List.filter_sublist)
  have hPerm : (((nestingProblems (occurrences text) []).filter fun found =>
      found.2.kind ∈ kinds).map Prod.fst).Perm (Tags.map Prod.fst) := by
    rw [List.perm_ext_iff_of_nodup hProblems hFound]
    intro offset
    have hTag : offset ∈ Tags.map Prod.fst ↔ (offset, tag) ∈ occurrences text ∧ Q offset := by
      simp [Tags, and_left_comm]
    rw [hTag, ← h]
    simp
  have hLines := hPerm.map (lineOf text)
  rw [List.map_map (l := Tags)] at hLines
  exact (perm_warnedLines hKinds text room).trans hLines

/-! ### Closing tags -/

theorem kind_mem_unterminated_iff {p : Problem} :
    p.kind ∈ ["unterminated_if"] ↔ p = .unterminatedIf := by
  cases p <;> simp [Problem.kind]

theorem kind_mem_orphanEndif_iff {p : Problem} :
    p.kind ∈ ["orphan_endif"] ↔ p.strayTag? = some .closing := by
  cases p <;> simp [Problem.kind, Problem.strayTag?]

/-- The directives that stay open are those whose closing tag is not found. -/
theorem unterminated_iff {text : Text} {offset : Nat} :
    (offset, .unterminatedIf) ∈ nestingProblems (occurrences text) [] ↔
      (offset, .opening) ∈ occurrences text ∧ matchEndif text offset = none := by
  simp [mem_nestingProblems_unterminated, ofSome_occurrences_iff, StaysOpen, matchEndif_eq,
    and_left_comm]

/-- **`check` and `matchEndif` pair opening and closing tags alike**: the lines reported for
directives that are never closed are those of the opening tags without a match, and the lines
reported for closing tags without a directive are those of the closing tags that match nothing, each
as often as there are such tags. -/
theorem perm_warnedLines_closing (text : Text) (room : Nat) :
    (warnedLines ["unterminated_if"] text room).Perm
      (((occurrences text).filter fun found =>
        found.2 = .opening ∧ matchEndif text found.1 = none).map fun found =>
          lineOf text found.1) ∧
    (warnedLines ["orphan_endif"] text room).Perm
      (((occurrences text).filter fun found =>
        found.2 = .closing ∧ ∀ other ∈ occurrences text, other.2 = .opening →
          matchEndif text other.1 ≠ some found.1).map fun found => lineOf text found.1) := by
  constructor
  · refine perm_warnedLines_of_iff (by decide) .opening
      (fun offset => matchEndif text offset = none) fun offset => ?_
    simp only [kind_mem_unterminated_iff, exists_eq_right, unterminated_iff]
  · refine perm_warnedLines_of_iff (by decide) .closing (fun offset =>
      ∀ other ∈ occurrences text, other.2 = .opening → matchEndif text other.1 ≠ some offset)
      fun offset => ?_
    have hStray := @exists_stray_iff .closing (by decide) offset _ (pairwise_occurrences text) []
    simp only [kind_mem_orphanEndif_iff, hStray, ofSome_occurrences_iff, Owns, ownAmong_closing,
      ← matchEndif_eq]
    grind

/-! ### Dividing tags -/

/-- Offset of the `else` tag that divides the body of the directive at an offset, counted from where
the text begins. -/
def dividerOf? (text : Text) (opened : Nat) : Option Nat := do
  let stop ← text.findFrom? Tag.close (opened + 1)
  let closed ← matchEndif text opened
  let bodyStart := stop + Tag.close.length
  let divider ← findElse (text.slice bodyStart closed) 0
  return bodyStart + divider

/-- Whether every condition of a text ends, and holds no brace. -/
def HasPlainConditions (text : Text) : Prop :=
  ∀ opened, (opened, .opening) ∈ occurrences text →
    ∃ stop, text.findFrom? Tag.close (opened + 1) = some stop ∧
      '{' ∉ text.slice (opened + Tag.opening.text.length) stop

instance (text : Text) : Decidable (HasPlainConditions text) :=
  decidable_of_iff (∀ found ∈ occurrences text, found.2 = .opening →
    ∃ stop ∈ text.findFrom? Tag.close (found.1 + 1),
      '{' ∉ text.slice (found.1 + Tag.opening.text.length) stop)
    ⟨fun h opened hOpened => h (opened, .opening) hOpened rfl,
      fun h found hFound hTag => h found.1 (hTag ▸ hFound)⟩

/-- Offsets move with the offset of the text. -/
theorem occurrencesFrom_add (k start : Nat) (text : Text) :
    occurrencesFrom (k + start) text = (occurrencesFrom start text).map (Prod.map (k + ·) id) := by
  induction text generalizing start with
  | nil => rfl
  | cons c text ih =>
    cases hc : Tag.ofText? (c :: text) with
    | none =>
      rw [occurrencesFrom_cons_of_none hc, occurrencesFrom_cons_of_none hc, Nat.add_assoc, ih]
    | some tag =>
      rw [occurrencesFrom_cons_of_some hc, occurrencesFrom_cons_of_some hc, Nat.add_assoc, ih]
      rfl

theorem dividerAmong_map (f : Nat → Nat) (depth : Nat) (tags : List (Nat × Tag)) :
    dividerAmong depth (tags.map (Prod.map f id)) = (dividerAmong depth tags).map f := by
  fun_induction dividerAmong depth tags with
  | case1 | case4 => rfl
  | case2 _ _ _ ih | case3 _ _ _ ih | case5 _ _ _ ih => exact ih

/-- The tags of a text that ends where a tag begins. -/
theorem occurrencesFrom_append_tag (start : Nat) (text : Text) (tag : Tag) (rest : Text) :
    occurrencesFrom start (text ++ (tag.text ++ rest)) =
      occurrencesFrom start text ++ occurrencesFrom (start + text.length) (tag.text ++ rest) := by
  induction text generalizing start with
  | nil => rfl
  | cons c text ih =>
    have hText : Tag.ofText? (c :: (text ++ (tag.text ++ rest))) = Tag.ofText? (c :: text) := by
      ext first
      rw [Tag.ofText?_eq_some_iff, Tag.ofText?_eq_some_iff]
      exact ⟨prefix_of_prefix_append_tag, fun h => h.trans (List.prefix_append (c :: text) _)⟩
    rw [List.cons_append, List.length_cons, Nat.add_comm text.length, ← Nat.add_assoc]
    cases hc : Tag.ofText? (c :: text) with
    | none =>
      rw [occurrencesFrom_cons_of_none (hText.trans hc), occurrencesFrom_cons_of_none hc, ih]
    | some first =>
      rw [occurrencesFrom_cons_of_some (hText.trans hc), occurrencesFrom_cons_of_some hc, ih,
        List.cons_append]

/-- Behind an opening tag stand the tags behind its condition. -/
theorem tagsBehind_opening {condition : Text} (hCondition : '{' ∉ condition) (front rest : Text) :
    tagsBehind (front ++ (Tag.opening.text ++ (condition ++ (Tag.close ++ rest)))) front.length =
      occurrencesFrom (front ++ Tag.opening.text ++ condition ++ Tag.close).length rest := by
  rw [tagsBehind, Text.drop_append_tag, occurrencesFrom_append_of_notMem Tag.opening.notMem_body,
    occurrencesFrom_append_of_notMem hCondition, occurrencesFrom_close_append]
  simp only [List.length_append, Tag.length_text, Nat.add_assoc, Nat.add_comm 1]

/-- A directive that is closed and whose condition holds no tag is written as a directive. -/
theorem exists_directive_of_opening {text : Text} {opened closed : Nat}
    (hOpened : (opened, .opening) ∈ occurrences text) (hConditions : HasPlainConditions text)
    (hClosed : matchEndif text opened = some closed) :
    ∃ front condition body rest, text = front ++ directive condition body rest ∧
      opened = front.length ∧ Tree.IsPlainCondition condition ∧
      closed = (front ++ Tag.opening.text ++ condition ++ Tag.close ++ body).length := by
  obtain ⟨stop, hStop, hCondition⟩ := hConditions opened hOpened
  obtain ⟨front, rest, rfl, hFront⟩ := eq_append_of_mem_occurrencesFrom hOpened
  obtain rfl : opened = front.length := hFront.trans (Nat.zero_add _)
  rw [findFrom?_close_opening, Option.map_eq_some_iff] at hStop
  obtain ⟨_, hFind, rfl⟩ := hStop
  obtain ⟨condition, tail, rfl, rfl, hFirst⟩ := Text.exists_append_of_find? Tag.close_ne_nil hFind
  rw [slice_condition] at hCondition
  rw [matchEndif_eq, tagsBehind_opening hCondition] at hClosed
  obtain ⟨body, rest, rfl, rfl⟩ :=
    eq_append_of_mem_occurrencesFrom (reaches_of_closerAmong hClosed).mem
  exact ⟨front, condition, body, rest, rfl, rfl, ⟨hCondition, hFirst⟩, List.length_append.symm⟩

/-- **The `else` tag that divides the body of a directive is the one that the directive owns**, if
the condition holds no tag. -/
theorem dividerOf?_eq {text : Text} {opened : Nat} (hOpened : (opened, .opening) ∈ occurrences text)
    (hConditions : HasPlainConditions text) (hClosed : matchEndif text opened ≠ none) :
    dividerOf? text opened = ownAmong .alternative 0 (tagsBehind text opened) := by
  obtain ⟨closed, hClosed⟩ := Option.ne_none_iff_exists'.mp hClosed
  obtain ⟨front, condition, body, rest, rfl, rfl, hCondition, rfl⟩ :=
    exists_directive_of_opening hOpened hConditions hClosed
  generalize hStart : (front ++ Tag.opening.text ++ condition ++ Tag.close).length = start
  have hBehind : tagsBehind (front ++ directive condition body rest) front.length =
      occurrencesFrom start body ++ (start + body.length, .closing) ::
        occurrencesFrom (start + body.length + Tag.closing.text.length) rest := by
    rw [directive, tagsBehind_opening hCondition.1, hStart, occurrencesFrom_append_tag,
      occurrencesFrom_tag_append]
  have hSlice : Text.slice (front ++ directive condition body rest) start
      (front ++ Tag.opening.text ++ condition ++ Tag.close ++ body).length = body := by
    rw [← hStart]
    simpa only [directive, List.append_assoc] using
      Text.slice_append (front ++ Tag.opening.text ++ condition ++ Tag.close) body
        (Tag.closing.text ++ rest)
  have hDivider : dividerOf? (front ++ directive condition body rest) front.length =
      (findElse body 0).map (start + ·) := by
    simp only [dividerOf?, findFrom?_close_directive hCondition, hClosed, Option.bind_eq_bind,
      Option.bind_some, ← List.length_append, hStart, hSlice]
    exact Option.map_eq_bind.symm
  have hSorted : (tagsBehind (front ++ directive condition body rest) front.length).Pairwise
      (·.1 < ·.1) := pairwise_occurrencesFrom _ _
  rw [matchEndif_eq, List.length_append, hStart] at hClosed
  rw [hBehind] at hSorted hClosed ⊢
  rw [hDivider, ownAmong_alternative hSorted hClosed, findElse_eq, List.drop_zero,
    ← dividerAmong_map, ← occurrencesFrom_add, Nat.add_zero]

theorem kind_mem_strayElse_iff {p : Problem} :
    p.kind ∈ ["orphan_else", "duplicate_else"] ↔ p.strayTag? = some .alternative := by
  cases p <;> simp [Problem.kind, Problem.strayTag?]

/-- Without a warning of a directive that is never closed, every directive has a match. -/
theorem matchEndif_ne_none {text : Text}
    (hClosed : ∀ w ∈ check text room, w.problem.kind ≠ "unterminated_if") {opened : Nat}
    (hOpened : (opened, .opening) ∈ occurrences text) : matchEndif text opened ≠ none := by
  intro hNone
  have hNesting := unterminated_iff.mpr ⟨hOpened, hNone⟩
  have hProblem : (opened, .unterminatedIf) ∈ problems (room - 1) text (occurrences text) [] :=
    (@mem_problems_iff _ ["unterminated_if"] (by decide) _ _ _ _ _ (by decide)).mpr hNesting
  exact hClosed _ ((perm_check text room).mem_iff.mpr (List.mem_map_of_mem hProblem)) rfl

/-- The `else` tags that are out of place are those that divide no body. -/
theorem exists_strayElse_iff {text : Text}
    (hClosed : ∀ w ∈ check text room, w.problem.kind ≠ "unterminated_if")
    (hConditions : HasPlainConditions text) (offset : Nat) :
    (∃ p, (offset, p) ∈ nestingProblems (occurrences text) [] ∧
        p.kind ∈ ["orphan_else", "duplicate_else"]) ↔
      (offset, .alternative) ∈ occurrences text ∧
        ¬∃ opened, (opened, .opening) ∈ occurrences text ∧ dividerOf? text opened = some offset := by
  have hDivider (opened : Nat) (hOpened : (opened, .opening) ∈ occurrences text) :
      ownAmong .alternative 0 (tagsBehind text opened) = dividerOf? text opened :=
    (dividerOf?_eq hOpened hConditions (matchEndif_ne_none hClosed hOpened)).symm
  simp only [kind_mem_strayElse_iff, ofSome_occurrences_iff, Owns, implies_true, true_and,
    @exists_stray_iff .alternative (by decide) offset _ (pairwise_occurrences text) []]
  refine and_congr_right fun _ => not_congr (exists_congr fun opened => and_congr_right ?_)
  intro hOpened
  rw [hDivider opened hOpened]

/-- No `else` tag divides two bodies. -/
theorem eq_of_dividerOf? {text : Text}
    (hClosed : ∀ w ∈ check text room, w.problem.kind ≠ "unterminated_if")
    (hConditions : HasPlainConditions text) {opened opened' offset : Nat}
    (hOpened : (opened, .opening) ∈ occurrences text)
    (hOpened' : (opened', .opening) ∈ occurrences text)
    (h : dividerOf? text opened = some offset) (h' : dividerOf? text opened' = some offset) :
    opened = opened' := by
  rw [dividerOf?_eq hOpened hConditions (matchEndif_ne_none hClosed hOpened)] at h
  rw [dividerOf?_eq hOpened' hConditions (matchEndif_ne_none hClosed hOpened')] at h'
  exact eq_of_ownAmong (pairwise_occurrences text) (cons_suffix_occurrences_iff.mpr ⟨hOpened, rfl⟩)
    (cons_suffix_occurrences_iff.mpr ⟨hOpened', rfl⟩) h h'

/-- **`check` and `findElse` give `else` tags to the same directives**, where conditions end and
hold no brace and no directive is reported as never closed: an `else` tag is reported just when it
divides the body of no directive, it divides that of one directive at most, and the lines that are
reported are those of the tags that divide none, each as often as there are such tags. -/
theorem elseReported_iff_not_divides {text : Text}
    (hClosed : ∀ w ∈ check text room, w.problem.kind ≠ "unterminated_if")
    (hConditions : HasPlainConditions text) :
    (∀ offset, (offset, .alternative) ∈ occurrences text →
      ((∃ p, (offset, p) ∈ problems (room - 1) text (occurrences text) [] ∧
          p.kind ∈ ["orphan_else", "duplicate_else"]) ↔
        ¬∃ opened, (opened, .opening) ∈ occurrences text ∧
          dividerOf? text opened = some offset)) ∧
    (∀ offset opened opened', (opened, .opening) ∈ occurrences text →
      (opened', .opening) ∈ occurrences text → dividerOf? text opened = some offset →
      dividerOf? text opened' = some offset → opened = opened') ∧
    (warnedLines ["orphan_else", "duplicate_else"] text room).Perm
      (((occurrences text).filter fun found =>
        found.2 = .alternative ∧ ∀ other ∈ occurrences text, other.2 = .opening →
          dividerOf? text other.1 ≠ some found.1).map fun found => lineOf text found.1) := by
  have hStray := exists_strayElse_iff hClosed hConditions
  refine ⟨fun offset hOffset => ?_, fun _ _ _ => eq_of_dividerOf? hClosed hConditions, ?_⟩
  · have hProblems (p : Problem) (hp : p.kind ∈ ["orphan_else", "duplicate_else"]) :=
      @mem_problems_iff (room - 1) _ (by decide) text (occurrences text) [] offset p hp
    grind
  · refine perm_warnedLines_of_iff (by decide) .alternative (fun offset =>
      ∀ other ∈ occurrences text, other.2 = .opening → dividerOf? text other.1 ≠ some offset)
      fun offset => ?_
    rw [hStray]
    grind

/-- A directive inside another, each with an `else` tag, and an `else` tag too many inside and
behind. -/
def scatteredText : Text :=
  directive ['a']
    (directive ['b'] (['x'] ++ Tag.alternative.text ++ ['y'])
      (Tag.alternative.text ++ ['z', '\n'] ++ Tag.alternative.text ++ ['w']))
    (['\n'] ++ Tag.alternative.text)

/-- The two tags too many are the ones reported, on lines 2 and 3. -/
theorem elseReported_iff_not_divides_scattered :
    (∀ w ∈ check scatteredText Condition.usualRoom, w.problem.kind ≠ "unterminated_if") ∧
    HasPlainConditions scatteredText ∧
    dividerOf? scatteredText 0 = some 41 ∧ dividerOf? scatteredText 9 = some 19 ∧
    (∃ p,
      (53, p) ∈ problems (Condition.usualRoom - 1) scatteredText (occurrences scatteredText) [] ∧
      p.kind ∈ ["orphan_else", "duplicate_else"]) ∧
    (warnedLines ["orphan_else", "duplicate_else"] scatteredText Condition.usualRoom).Perm
      [2, 3] := by
  have hNesting : ∀ found ∈ nestingProblems (occurrences scatteredText) [],
      found.2.kind ∉ ["unterminated_if"] := by decide +kernel
  have hClosed : ∀ w ∈ check scatteredText Condition.usualRoom,
      w.problem.kind ≠ "unterminated_if" := by
    intro w hw hKind
    obtain ⟨found, hFound, rfl⟩ := List.mem_map.mp ((perm_check scatteredText _).mem_iff.mp hw)
    have hMem := List.mem_singleton.mpr hKind
    exact hNesting found ((mem_problems_iff (by decide) hMem).mp hFound) hMem
  have hConditions : HasPlainConditions scatteredText := by decide +kernel
  have hOthers : ∀ found ∈ occurrences scatteredText, found.2 = .opening →
      dividerOf? scatteredText found.1 ≠ some 53 := by decide +kernel
  have hNone : ¬∃ opened, (opened, .opening) ∈ occurrences scatteredText ∧
      dividerOf? scatteredText opened = some 53 := by
    rintro ⟨opened, hOpened, hDivider⟩
    exact hOthers _ hOpened rfl hDivider
  obtain ⟨hReported, -, hLines⟩ := elseReported_iff_not_divides hClosed hConditions
  exact ⟨hClosed, hConditions, by decide +kernel, by decide +kernel,
    (hReported 53 (by decide +kernel)).mpr hNone, hLines.trans (.of_eq (by decide +kernel))⟩

end Template

end SqlTemplate
