import SqlTemplate.Proofs.Template.Printed

/-!
# The first directive of any text

`Block.extract?` takes a text apart by offsets. For every text in which it finds a directive,
complete or not, the parts stand in the text as they would be written (`Block.exists_splits`): text
without an opening tag, the opening tag, a condition up to the first `Tag.close`, a body, the
closing tag that ends the directive, and the rest. **The branches come from the body**, of which the
first `else` tag at depth 0 is a part (`Block.branches_cases`).
-/

namespace SqlTemplate

namespace Template

/-- An occurrence stands in the text. -/
theorem eq_append_of_mem_occurrencesFrom {start offset : Nat} {tag : Tag} {text : Text}
    (h : (offset, tag) ∈ occurrencesFrom start text) :
    ∃ front rest, text = front ++ (tag.text ++ rest) ∧ offset = start + front.length := by
  induction text generalizing start with
  | nil => cases h
  | cons c text ih =>
    have hLater (h : (offset, tag) ∈ occurrencesFrom (start + 1) text) :
        ∃ front rest, c :: text = front ++ (tag.text ++ rest) ∧ offset = start + front.length := by
      obtain ⟨front, rest, rfl, rfl⟩ := ih h
      exact ⟨c :: front, rest, rfl, by rw [List.length_cons, Nat.add_assoc, Nat.add_comm 1]⟩
    cases hc : Tag.ofText? (c :: text) with
    | none =>
      rw [occurrencesFrom_cons_of_none hc] at h
      exact hLater h
    | some first =>
      rw [occurrencesFrom_cons_of_some hc] at h
      rcases List.mem_cons.mp h with hFirst | hRest
      · cases hFirst
        obtain ⟨rest, hRest⟩ := Tag.prefix_of_ofText? hc
        exact ⟨[], rest, hRest.symm, rfl⟩
      · exact hLater hRest

/-- Whether a search that goes through tags in order, one deeper at an opener and at most one up at
a closer, ends at depth 0 at the offset of a certain tag. -/
inductive Reaches (sought : Tag) : Nat → List (Nat × Tag) → Nat → Prop where
  /-- The search ends. -/
  | found (offset : Nat) (rest : List (Nat × Tag)) :
    Reaches sought 0 ((offset, sought) :: rest) offset
  /-- An opener is entered. -/
  | opening {depth offset reached : Nat} {rest : List (Nat × Tag)} :
    Reaches sought (depth + 1) rest reached →
    Reaches sought depth ((offset, .opening) :: rest) reached
  /-- A closer is passed. -/
  | closing {depth offset reached : Nat} {rest : List (Nat × Tag)} :
    Reaches sought (depth - 1) rest reached →
    Reaches sought depth ((offset, .closing) :: rest) reached
  /-- An `else` tag is passed. -/
  | alternative {depth offset reached : Nat} {rest : List (Nat × Tag)} :
    Reaches sought depth rest reached →
    Reaches sought depth ((offset, .alternative) :: rest) reached

theorem reaches_of_closerAmong {depth closed : Nat} {tags : List (Nat × Tag)}
    (h : closerAmong depth tags = some closed) : Reaches .closing depth tags closed := by
  fun_induction closerAmong depth tags with
  | case1 => cases h
  | case2 _ _ _ ih => exact .opening (ih h)
  | case3 =>
    cases h
    exact .found _ _
  | case4 _ _ _ ih => exact .closing (ih h)
  | case5 _ _ _ ih => exact .alternative (ih h)

theorem reaches_of_dividerAmong {depth divider : Nat} {tags : List (Nat × Tag)}
    (h : dividerAmong depth tags = some divider) : Reaches .alternative depth tags divider := by
  fun_induction dividerAmong depth tags with
  | case1 => cases h
  | case2 _ _ _ ih => exact .opening (ih h)
  | case3 _ _ _ ih => exact .closing (ih h)
  | case4 =>
    cases h
    exact .found _ _
  | case5 _ _ _ ih => exact .alternative (ih h)

namespace Reaches

variable {sought : Tag} {depth reached : Nat} {tags : List (Nat × Tag)}

/-- The tag that is reached is one of the tags. -/
theorem mem (h : Reaches sought depth tags reached) : (reached, sought) ∈ tags := by
  induction h with
  | found => exact List.mem_cons_self
  | opening _ ih | closing _ ih | alternative _ ih => exact List.mem_cons_of_mem _ ih

/-- A search that has passed a piece of a text goes on behind it, at some depth. -/
theorem of_append {start : Nat} {front rest : Text}
    (h : Reaches sought depth (occurrencesFrom start (front ++ rest)) reached)
    (hle : start + front.length ≤ reached) :
    ∃ depth', Reaches sought depth' (occurrencesFrom (start + front.length) rest) reached := by
  induction front generalizing depth start with
  | nil => exact ⟨depth, h⟩
  | cons c front ih =>
    rw [List.length_cons, ← Nat.add_assoc, Nat.add_right_comm] at hle ⊢
    rw [List.cons_append] at h
    cases hc : Tag.ofText? (c :: (front ++ rest)) with
    | none => exact ih (occurrencesFrom_cons_of_none hc start ▸ h) hle
    | some tag =>
      rw [occurrencesFrom_cons_of_some hc] at h
      cases h with
      | found => omega
      | opening h | closing h | alternative h => exact ih h hle

/-- A search that begins inside a directive passes a closer. -/
theorem exists_closing (hTags : tags.Pairwise (·.1 < ·.1))
    (h : Reaches sought (depth + 1) tags reached) :
    ∃ inner < reached, (inner, .closing) ∈ tags := by
  induction tags generalizing depth with
  | nil => cases h
  | cons first tags ih =>
    obtain ⟨hFirst, hRest⟩ := List.pairwise_cons.mp hTags
    cases h with
    | closing h => exact ⟨_, hFirst _ h.mem, List.mem_cons_self⟩
    | opening h | alternative h =>
      obtain ⟨inner, hlt, hInner⟩ := ih hRest h
      exact ⟨inner, hlt, List.mem_cons_of_mem _ hInner⟩

end Reaches

/-- The span that is found begins at the first opening tag and ends at the tag that closes it. -/
theorem exists_of_findSpan {text : Text} {opened closed : Nat}
    (h : findSpan text 0 = some ⟨opened, closed⟩) :
    ∃ front rest, text = front ++ (Tag.opening.text ++ rest) ∧ front.length = opened ∧
      ¬Tag.opening.text <:+: front ∧
      closerAmong 0 (occurrencesFrom (front ++ Tag.opening.text).length rest) = some closed := by
  simp only [findSpan, Option.bind_eq_bind, Option.bind_eq_some_iff, Option.pure_def,
    Option.some.injEq, Span.mk.injEq] at h
  obtain ⟨_, hOpened, _, hClosed, rfl, rfl⟩ := h
  rw [Text.findFrom?, if_neg (Nat.not_lt_zero _), List.drop_zero, Option.map_eq_some_iff] at hOpened
  obtain ⟨_, hFind, rfl⟩ := hOpened
  obtain ⟨front, rest, rfl, rfl, hFirst⟩ :=
    Text.exists_append_of_find? Tag.opening.text_ne_nil hFind
  refine ⟨front, rest, rfl, rfl, hFirst, ?_⟩
  rw [Nat.add_zero, closer?_eq, Text.drop_append_tag,
    occurrencesFrom_append_of_notMem Tag.opening.notMem_body] at hClosed
  rwa [List.length_append, Tag.length_text, Nat.add_comm _ 1, ← Nat.add_assoc]

namespace Block

/-- The branches of a body without a dividing tag, and of one with it. -/
theorem branches_cases (trim : Bool) (body : Text) :
    (dividerAmong 0 (occurrencesFrom 0 body) = none ∧ branches trim body = (body, [])) ∨
    ∃ valid invalid, body = valid ++ (Tag.alternative.text ++ invalid) ∧
      dividerAmong 0 (occurrencesFrom 0 body) = some valid.length ∧
      branches trim body = (if trim then valid.dropLast else valid, invalid) := by
  have hElse : findElse body 0 = dividerAmong 0 (occurrencesFrom 0 body) := by
    rw [findElse_eq, List.drop_zero]
  cases hDivider : dividerAmong 0 (occurrencesFrom 0 body) with
  | none => exact .inl ⟨rfl, by rw [branches, hElse, hDivider]⟩
  | some divider =>
    obtain ⟨valid, invalid, rfl, hLength⟩ :=
      eq_append_of_mem_occurrencesFrom (reaches_of_dividerAmong hDivider).mem
    rw [Nat.zero_add] at hLength
    refine .inr ⟨valid, invalid, rfl, by rw [hLength], ?_⟩
    rw [branches, hElse, hDivider, hLength]
    simp only [cutBefore_append]
    rw [← List.append_assoc, ← List.length_append, List.drop_left]

/-- How a block is taken from a text: what stands before its directive, and the directive's body. -/
structure Splits (trim : Bool) (text front body : Text) (block : Block) : Prop where
  /-- The text is written so. -/
  text_eq : text = front ++ directive block.condition body block.after
  /-- The directive is the first one. -/
  first : ¬Tag.opening.text <:+: front
  /-- The condition goes up to the first `Tag.close`. -/
  condition : ¬Tag.close <:+: block.condition
  /-- The directive is closed behind its body, counted from behind its opening tag. -/
  closed : ∃ start, closerAmong 0 (occurrencesFrom start
    (block.condition ++ (Tag.close ++ (body ++ (Tag.closing.text ++ block.after))))) =
      some (start + (block.condition ++ Tag.close ++ body).length)
  /-- When trimming, the character before the directive is dropped. -/
  before : block.before = if trim then front.dropLast else front
  /-- The branches are those of the body. -/
  branches : Block.branches trim body = (block.valid, block.invalid)

/-- **What is taken from a text stands in it.** -/
theorem exists_splits {trim : Bool} {text : Text} {block : Block}
    (h : extract? trim text = some block) : ∃ front body, block.Splits trim text front body := by
  simp only [extract?, Option.bind_eq_bind, Option.bind_eq_some_iff, Option.pure_def] at h
  obtain ⟨⟨opened, closed⟩, hSpan, stop, hStop, h⟩ := h
  obtain ⟨front, rest, rfl, rfl, hFirst, hClosed⟩ := exists_of_findSpan hSpan
  rw [findFrom?_close_opening, Option.map_eq_some_iff] at hStop
  obtain ⟨_, hFind, rfl⟩ := hStop
  obtain ⟨condition, tail, rfl, rfl, hCondition⟩ :=
    Text.exists_append_of_find? Tag.close_ne_nil hFind
  obtain ⟨before, after, hBefore, rfl⟩ :=
    eq_append_of_mem_occurrencesFrom (reaches_of_closerAmong hClosed).mem
  rw [Option.ite_none_left_eq_some] at h
  obtain ⟨hBody, h⟩ := h
  -- The closing tag stands behind the condition, so what is between them is the body.
  obtain ⟨body, rfl⟩ : condition ++ Tag.close <+: before := by
    have hLeft : condition ++ Tag.close <+: condition ++ (Tag.close ++ tail) :=
      ⟨tail, List.append_assoc ..⟩
    have hRight : before <+: condition ++ (Tag.close ++ tail) := ⟨_, hBefore.symm⟩
    refine List.prefix_of_prefix_length_le hLeft hRight ?_
    simp only [List.length_append] at hBody ⊢
    omega
  obtain rfl : tail = body ++ (Tag.closing.text ++ after) := by
    simpa only [List.append_assoc, List.append_cancel_left_eq] using hBefore
  have hText : front ++ (Tag.opening.text ++ (condition ++ (Tag.close ++
      (body ++ (Tag.closing.text ++ after))))) = front ++ directive condition body after := rfl
  rw [slice_condition, hText, cutBefore_append, slice_body, drop_directive] at h
  cases h
  exact ⟨front, body, rfl, hFirst, hCondition, ⟨_, hClosed⟩, rfl, rfl⟩

end Block

/-! ### What a branch closes -/

/-- A tag that is found in a text in front of another tag stands in the text. -/
theorem infix_of_mem_occurrencesFrom {start offset : Nat} {tag tag' : Tag} {text rest : Text}
    (h : (offset, tag) ∈ occurrencesFrom start (text ++ (tag'.text ++ rest)))
    (hlt : offset < start + text.length) : tag.text <:+: text := by
  obtain ⟨front, behind, hText, rfl⟩ := eq_append_of_mem_occurrencesFrom h
  obtain ⟨x, rfl⟩ : front <+: text := by
    refine List.prefix_of_prefix_length_le ⟨_, hText.symm⟩ (List.prefix_append _ _) (by omega)
  rw [List.append_assoc, List.append_cancel_left_eq] at hText
  cases x with
  | nil =>
    rw [List.append_nil] at hlt
    exact absurd hlt (Nat.lt_irrefl _)
  | cons c x =>
    exact (prefix_of_prefix_append_tag ⟨behind, hText.symm⟩).isInfix.trans
      (List.suffix_append _ _).isInfix

/-- Tags are found in order. -/
theorem pairwise_occurrencesFrom (start : Nat) (text : Text) :
    (occurrencesFrom start text).Pairwise (·.1 < ·.1) := by
  induction text generalizing start with
  | nil => exact .nil
  | cons c text ih =>
    rw [occurrencesFrom]
    split
    · refine .cons (fun found hFound => ?_) (ih _)
      obtain ⟨front, rest, -, hOffset⟩ := eq_append_of_mem_occurrencesFrom hFound
      rw [hOffset]
      omega
    · exact ih _

/-- A search passes the closer of every directive that it enters. -/
theorem Reaches.infix_closing {sought tag : Tag} {depth start : Nat} {front text rest : Text}
    (h : Reaches sought depth
      (occurrencesFrom start (front ++ (Tag.opening.text ++ (text ++ (tag.text ++ rest)))))
      (start + (front ++ (Tag.opening.text ++ text)).length)) :
    Tag.closing.text <:+: text := by
  generalize hReached : start + (front ++ (Tag.opening.text ++ text)).length = reached at h
  simp only [List.length_append, ← Nat.add_assoc] at hReached
  obtain ⟨depth, h⟩ := h.of_append (by omega)
  rw [occurrencesFrom_tag_append] at h
  cases h with
  | found =>
    rw [Tag.length_text] at hReached
    omega
  | opening h =>
    obtain ⟨inner, hlt, hInner⟩ := h.exists_closing (pairwise_occurrencesFrom _ _)
    exact infix_of_mem_occurrencesFrom hInner (hReached ▸ hlt)

/-- Whether behind every opening tag of a text a condition can end within the text. -/
def ClosesConditions (text : Text) : Prop :=
  ∀ rest, Tag.opening.text ++ rest <:+ text → Tag.close <:+: rest

/-- Every closer ends what could be a condition. -/
theorem close_infix_of_closing_infix {text : Text} (h : Tag.closing.text <:+: text) :
    Tag.close <:+: text :=
  List.IsInfix.trans (by decide) h

namespace Block

variable {trim : Bool} {text front body : Text} {block : Block}

/-- The body of a directive closes what it opens. -/
theorem Splits.closesConditions_body (h : Splits trim text front body block) :
    ClosesConditions body := by
  rintro rest ⟨before, rfl⟩
  obtain ⟨start, hClosed⟩ := h.closed
  have hReaches : Reaches .closing 0
      (occurrencesFrom start (block.condition ++ Tag.close ++ before ++
        (Tag.opening.text ++ (rest ++ (Tag.closing.text ++ block.after)))))
      (start + (block.condition ++ Tag.close ++ before ++ (Tag.opening.text ++ rest)).length) := by
    simpa only [List.append_assoc] using reaches_of_closerAmong hClosed
  exact close_infix_of_closing_infix hReaches.infix_closing

/-- A branch in front of a dividing tag closes what it opens. -/
theorem closesConditions_of_divider {valid invalid : Text}
    (h : dividerAmong 0 (occurrencesFrom 0 (valid ++ (Tag.alternative.text ++ invalid))) =
      some valid.length) : ClosesConditions valid := by
  rintro rest ⟨before, rfl⟩
  have hReaches : Reaches .alternative 0
      (occurrencesFrom 0 (before ++
        (Tag.opening.text ++ (rest ++ (Tag.alternative.text ++ invalid)))))
      (0 + (before ++ (Tag.opening.text ++ rest)).length) := by
    simpa only [List.append_assoc, Nat.zero_add] using reaches_of_dividerAmong h
  exact close_infix_of_closing_infix hReaches.infix_closing

/-- **Without trimming, the branch that is chosen stands in the body**, in front of a tag, and every
condition in it can end in it. -/
theorem Splits.exists_branch (h : Splits false text front body block) (holds : Bool) :
    ∃ branch before tag behind, block.resolve holds = front ++ (branch ++ block.after) ∧
      text = front ++ (Tag.opening.text ++ (block.condition ++ (Tag.close ++ (before ++ (branch ++
        (Tag.text tag ++ (behind ++ block.after))))))) ∧
      ClosesConditions branch := by
  suffices hBranch : ∃ before tag behind,
      body ++ Tag.closing.text =
        before ++ ((if holds then block.valid else block.invalid) ++ (Tag.text tag ++ behind)) ∧
      ClosesConditions (if holds then block.valid else block.invalid) by
    obtain ⟨before, tag, behind, hText, hClose⟩ := hBranch
    refine ⟨_, before, tag, behind, ?_, ?_, hClose⟩
    · rw [resolve, h.before, if_neg Bool.false_ne_true, List.append_assoc]
    · rw [h.text_eq, directive, ← List.append_assoc body, hText]
      simp only [List.append_assoc]
  have hBody := h.closesConditions_body
  have hBranches := h.branches
  rcases branches_cases false body with ⟨-, hNone⟩ | ⟨valid, invalid, rfl, hDivider, hSome⟩
  · rw [hNone, Prod.mk.injEq] at hBranches
    rw [← hBranches.1, ← hBranches.2]
    cases holds with
    | true => exact ⟨[], .closing, [], rfl, hBody⟩
    | false =>
      refine ⟨body, .closing, [], rfl, fun rest hRest => ?_⟩
      cases List.suffix_nil.mp hRest
  · rw [hSome, Prod.mk.injEq, if_neg Bool.false_ne_true] at hBranches
    rw [← hBranches.1, ← hBranches.2]
    cases holds with
    | true =>
      refine ⟨[], .alternative, invalid ++ Tag.closing.text, ?_,
        closesConditions_of_divider hDivider⟩
      simp only [List.append_assoc]
      rfl
    | false =>
      refine ⟨valid ++ Tag.alternative.text, .closing, [], ?_, fun rest hRest => ?_⟩
      · simp only [List.append_assoc, List.append_nil]
        rfl
      · exact hBody rest (hRest.trans ((List.suffix_append _ _).trans (List.suffix_append _ _)))

end Block

end Template

end SqlTemplate
