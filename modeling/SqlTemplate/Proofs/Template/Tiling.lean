import SqlTemplate.Proofs.Template.Attribution

/-!
# What a block leaves of its text

`Block.extract?` takes five pieces out of a text by offsets that are looked for one by one: the
first opening tag, the end of its condition, the closing tag that ends it and the `else` tag that
divides its body. **The pieces and the tags between them tile the text** (`extract?_iff_tiles`):
nothing is lost and nothing is taken twice, also in a text that is malformed. Trimming takes the
same pieces, of which the two that end in front of a tag lose their last character.

The pieces of a tiling are determined by what stands in the text, so a tiling is found where there
is one (`Tiles.extract?_eq`), and what is found is a tiling (`exists_tiles`).
-/

namespace SqlTemplate

namespace Template

/-! ### Searches in a text that is put together -/

theorem closerAmong_map (f : Nat → Nat) (depth : Nat) (tags : List (Nat × Tag)) :
    closerAmong depth (tags.map (Prod.map f id)) = (closerAmong depth tags).map f := by
  fun_induction closerAmong depth tags with
  | case1 | case3 => rfl
  | case2 _ _ _ ih | case4 _ _ _ ih | case5 _ _ _ ih => exact ih

/-- The closer that is found moves with the offset of the text. -/
theorem closerAmong_occurrencesFrom_add (k start : Nat) (text : Text) :
    closerAmong 0 (occurrencesFrom (k + start) text) =
      (closerAmong 0 (occurrencesFrom start text)).map (k + ·) := by
  rw [occurrencesFrom_add, closerAmong_map]

/-- The match of an opening tag is the closer among the tags behind it. -/
theorem matchEndif_opening (front rest : Text) :
    matchEndif (front ++ (Tag.opening.text ++ rest)) front.length =
      (closerAmong 0 (occurrencesFrom 0 rest)).map ((front ++ Tag.opening.text).length + ·) := by
  have hLength : front.length + 1 + Tag.opening.body.length =
      (front ++ Tag.opening.text).length := by
    rw [List.length_append, Tag.length_text]
    omega
  rw [matchEndif_eq, tagsBehind, Text.drop_append_tag,
    occurrencesFrom_append_of_notMem Tag.opening.notMem_body, hLength,
    ← closerAmong_occurrencesFrom_add, Nat.add_zero]

namespace Block

/-- The first directive is found where its parts have been put, if the closing tag behind its body
matches its opening tag. -/
theorem extract?_of_closed {front condition body rest : Text}
    (hFront : ¬Tag.opening.text <:+: front) (hCondition : ¬Tag.close <:+: condition)
    (hClosed : matchEndif (front ++ directive condition body rest) front.length =
      some (front ++ Tag.opening.text ++ condition ++ Tag.close ++ body).length) (trim : Bool) :
    extract? trim (front ++ directive condition body rest) = some {
      before := if trim then front.dropLast else front
      condition := condition
      valid := (branches trim body).1
      invalid := (branches trim body).2
      after := rest } := by
  rw [matchEndif_eq, tagsBehind, ← closer?_eq] at hClosed
  exact extract?_of_closer? hFront hCondition hClosed trim

/-! ### Tilings -/

/-- What stands between the branch for a condition that holds and the closing tag: the `else` tag
and the other branch, or nothing. -/
def otherwise (divided : Bool) (block : Block) : Text :=
  if divided then Tag.alternative.text ++ block.invalid else []

/-- How the pieces of a block lie in a text: one after another, with the tags between them. -/
structure Tiles (divided : Bool) (text : Text) (block : Block) : Prop where
  /-- The pieces and the tags make up the text. -/
  text_eq : text = block.before ++ Tag.opening.text ++ block.condition ++ Tag.close ++
    block.valid ++ block.otherwise divided ++ Tag.closing.text ++ block.after
  /-- The directive is the first one. -/
  before : ¬Tag.opening.text <:+: block.before
  /-- The condition goes up to the first `Tag.close`. -/
  condition : ¬Tag.close <:+: block.condition
  /-- The `else` tag is the one at the outermost level of the body, if the body has one. -/
  divider : findElse (block.valid ++ block.otherwise divided) 0 =
    if divided then some block.valid.length else none
  /-- Without it there is no other branch. -/
  invalid : divided = false → block.invalid = []
  /-- The closing tag is the one that matches the opening tag. -/
  closed : matchEndif text block.before.length =
    some (block.before ++ Tag.opening.text ++ block.condition ++ Tag.close ++ block.valid ++
      block.otherwise divided).length

/-- A block without the characters that trimming drops: the one before the opening tag and the one
before the `else` tag. -/
def cut (trim divided : Bool) (block : Block) : Block :=
  { block with
    before := if trim then block.before.dropLast else block.before
    valid := if trim && divided then block.valid.dropLast else block.valid }

variable {trim divided : Bool} {text : Text} {block : Block}

theorem Tiles.text_eq_directive (h : block.Tiles divided text) :
    text = block.before ++
      directive block.condition (block.valid ++ block.otherwise divided) block.after := by
  rw [h.text_eq, directive]
  simp only [List.append_assoc]

theorem Tiles.branches_eq (h : block.Tiles divided text) (trim : Bool) :
    branches trim (block.valid ++ block.otherwise divided) =
      ((block.cut trim divided).valid, block.invalid) := by
  have hDivider := h.divider
  cases divided with
  | false =>
    rw [branches, hDivider, h.invalid rfl, otherwise, cut, Bool.and_false]
    simp
  | true =>
    rw [branches, hDivider, otherwise, if_pos rfl, cut, Bool.and_true]
    simp only [if_true, cutBefore_append]
    rw [← List.append_assoc, ← List.length_append, List.drop_left]

/-- A tiling is found. -/
theorem Tiles.extract?_eq (h : block.Tiles divided text) (trim : Bool) :
    extract? trim text = some (block.cut trim divided) := by
  have hClosed := h.closed
  have hText := h.text_eq_directive
  rw [List.append_assoc _ block.valid] at hClosed
  rw [hText] at hClosed ⊢
  rw [extract?_of_closed h.before h.condition hClosed, h.branches_eq]
  rfl

/-- The branches of a body make it up, with the `else` tag between them if there is one. -/
theorem exists_branches (trim : Bool) (body : Text) :
    ∃ divided valid invalid,
      body = valid ++ (if divided then Tag.alternative.text ++ invalid else []) ∧
      (findElse body 0 = if divided then some valid.length else none) ∧
      (divided = false → invalid = []) ∧
      branches trim body = (if trim && divided then valid.dropLast else valid, invalid) := by
  have hElse : findElse body 0 = dividerAmong 0 (occurrencesFrom 0 body) := by
    rw [findElse_eq, List.drop_zero]
  rw [hElse]
  obtain ⟨hNone, hBranches⟩ | ⟨valid, invalid, hBody, hSome, hBranches⟩ :=
    branches_cases trim body
  · refine ⟨false, body, [], ?_, hNone, fun _ => rfl, ?_⟩
    · simp
    · simpa using hBranches
  · refine ⟨true, valid, invalid, hBody, hSome, nofun, ?_⟩
    simpa using hBranches

/-- What is found is a tiling, trimmed or not. -/
theorem exists_tiles (h : extract? trim text = some block) :
    ∃ exact divided, Tiles divided text exact ∧ block = exact.cut trim divided := by
  obtain ⟨front, body, hSplits⟩ := exists_splits h
  obtain ⟨start, hClosed⟩ := hSplits.closed
  have hMatch : matchEndif text front.length = some ((front ++ Tag.opening.text).length +
      (block.condition ++ Tag.close ++ body).length) := by
    rw [← Nat.add_zero start, closerAmong_occurrencesFrom_add, Option.map_eq_some_iff] at hClosed
    obtain ⟨size, hSize, hEq⟩ := hClosed
    rw [hSplits.text_eq, directive, matchEndif_opening, hSize, Option.map_some]
    congr 1
    omega
  obtain ⟨divided, valid, invalid, rfl, hElse, hInvalid, hBranches⟩ := exists_branches trim body
  obtain ⟨hValid, rfl⟩ := Prod.mk.inj (hSplits.branches.symm.trans hBranches)
  refine ⟨⟨front, block.condition, valid, block.invalid, block.after⟩, divided, ?_, ?_⟩
  · refine ⟨?_, hSplits.first, hSplits.condition, hElse, hInvalid, ?_⟩
    · rw [hSplits.text_eq, directive, otherwise]
      simp only [List.append_assoc]
    · rw [hMatch, otherwise]
      simp only [List.length_append, Nat.add_assoc]
  · rw [cut, ← hSplits.before, ← hValid]

/-- **Taking a text apart loses nothing.** A block is taken from a text without trimming exactly
when one is taken with trimming. Without trimming, a block is what is taken from a text exactly when
its pieces, with the tags between them, tile the text; with trimming it is then the same block, of
which the text before the directive, and the branch before an `else` tag, have lost their last
character. -/
theorem extract?_iff_tiles (text : Text) :
    (extract? false text).isSome = (extract? true text).isSome ∧
    (∀ block, extract? false text = some block ↔ ∃ divided, Tiles divided text block) ∧
    (∀ block, extract? true text = some block ↔
      ∃ exact divided, extract? false text = some exact ∧ Tiles divided text exact ∧ block =
        { exact with
          before := exact.before.dropLast
          valid := if divided then exact.valid.dropLast else exact.valid }) := by
  have hExact {exact : Block} {divided : Bool} (h : Tiles divided text exact) :
      extract? false text = some exact := h.extract?_eq false
  refine ⟨?_, fun block => ⟨fun h => ?_, ?_⟩, fun block => ⟨fun h => ?_, ?_⟩⟩
  · rw [Bool.eq_iff_iff, Option.isSome_iff_exists, Option.isSome_iff_exists]
    constructor
    · rintro ⟨_, h⟩
      obtain ⟨exact, divided, hTiles, -⟩ := exists_tiles h
      exact ⟨_, hTiles.extract?_eq true⟩
    · rintro ⟨_, h⟩
      obtain ⟨exact, divided, hTiles, -⟩ := exists_tiles h
      exact ⟨_, hTiles.extract?_eq false⟩
  · obtain ⟨exact, divided, hTiles, rfl⟩ := exists_tiles h
    exact ⟨divided, hTiles⟩
  · rintro ⟨divided, hTiles⟩
    exact hExact hTiles
  · obtain ⟨exact, divided, hTiles, rfl⟩ := exists_tiles h
    refine ⟨exact, divided, hExact hTiles, hTiles, ?_⟩
    rw [cut, if_pos rfl, Bool.true_and]
  · rintro ⟨exact, divided, -, hTiles, rfl⟩
    rw [hTiles.extract?_eq true, cut, if_pos rfl, Bool.true_and]

end Block

end Template

end SqlTemplate
