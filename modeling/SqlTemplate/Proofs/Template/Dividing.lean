import SqlTemplate.Proofs.Template.Matching

/-!
# The `else` tag that divides a body

`findElse` never counts how deep it is: it compares the next `else` tag with the next opening tag
and jumps from a nested directive to its closing tag. What it finds is found by **one pass over the
tags from the start on, in order, with a depth** that an opening tag raises and a closing tag
lowers, though not below zero (`findElse_eq_dividerAmong_occurrences`): stray closing tags,
directives that are never closed and `else` tags on either side included.

The depth can be told without the pass, by counting: it is zero where no stretch of the text that
ends there has more opening than closing tags. So **the dividing tag is the first `else` tag in
front of which no stretch has more opening than closing tags** (`isLeast_findElse`).
-/

namespace SqlTemplate

namespace Template

variable {text : Text}

/-! ### The tags from an offset on -/

/-- Tags in order are determined by which tags they are. -/
theorem eq_of_pairwise_of_mem_iff {tags tags' : List (Nat × Tag)}
    (h : tags.Pairwise (·.1 < ·.1)) (h' : tags'.Pairwise (·.1 < ·.1))
    (hMem : ∀ found, found ∈ tags ↔ found ∈ tags') : tags = tags' := by
  have hNodup {tags : List (Nat × Tag)} (h : tags.Pairwise (·.1 < ·.1)) : tags.Nodup :=
    (nodup_offsets h).of_map
  refine List.Perm.eq_of_pairwise (fun a b _ _ hlt hgt => ?_) h h' ?_
  · exact absurd hlt (Nat.lt_asymm hgt)
  · exact (List.perm_ext_iff_of_nodup (hNodup h) (hNodup h')).mpr hMem

/-- The tags of a text are those that stand in it. -/
theorem mem_occurrences_iff {tag : Tag} {offset : Nat} :
    (offset, tag) ∈ occurrences text ↔ tag.StandsAt text offset := by
  have hFound : (offset, tag) ∈ occurrencesFrom 0 (text.drop 0) ↔
      0 ≤ offset ∧ tag.StandsAt text offset := mem_occurrencesFrom_drop_iff
  simpa [occurrences] using hFound

/-- The tags that are found from an offset on are those of the whole text that stand there. -/
theorem occurrencesFrom_drop_eq_filter (text : Text) (start : Nat) :
    occurrencesFrom start (text.drop start) =
      (occurrences text).filter fun found => start ≤ found.1 := by
  refine eq_of_pairwise_of_mem_iff (pairwise_occurrencesFrom _ _)
    ((pairwise_occurrencesFrom 0 text).filter _) fun ⟨offset, tag⟩ => ?_
  simp [mem_occurrencesFrom_drop_iff, mem_occurrences_iff, and_comm]

/-- **The `else` tag that divides a body is the answer of one pass over the tags**: the tags of the
body from the start on, each where it stands and in order; an opening tag goes one deeper, a closing
tag comes one up unless the depth is zero, and the first `else` tag at depth zero is the answer. -/
theorem findElse_eq_dividerAmong_occurrences (region : Text) (start : Nat) :
    findElse region start =
      dividerAmong 0 ((occurrences region).filter fun found => start ≤ found.1) ∧
    (∀ offset tag, (offset, tag) ∈ occurrences region ↔ tag.StandsAt region offset) ∧
    (occurrences region).Pairwise (·.1 < ·.1) := by
  refine ⟨?_, fun offset tag => mem_occurrences_iff, pairwise_occurrencesFrom 0 region⟩
  rw [findElse_eq, occurrencesFrom_drop_eq_filter]

/-! ### The depth, by counting -/

/-- Whether an `else` tag stands at `last` that is reached at depth zero from `first`, where the
depth is `depth`: up to it the closing tags make up for the opening ones and the depth, and from no
offset on do the opening tags outnumber the closing ones. -/
structure Outermost (text : Text) (depth first last : Nat) : Prop where
  /-- The tag stands at or behind the first offset. -/
  le : first ≤ last
  /-- It is an `else` tag. -/
  stands : Tag.alternative.StandsAt text last
  /-- The depth at the first offset is made up for. -/
  depth_le : depth + countTags .opening text first last ≤ countTags .closing text first last
  /-- Every directive that opens in between is closed. -/
  closed : ∀ k, first ≤ k → k ≤ last →
    countTags .opening text k last ≤ countTags .closing text k last

theorem outermost_self_iff {depth first : Nat} :
    Outermost text depth first first ↔ Tag.alternative.StandsAt text first ∧ depth = 0 := by
  have hNone {tag : Tag} (hStands : Tag.alternative.StandsAt text first)
      (hTag : tag ≠ .alternative) : countTags tag text first first = 0 := by
    have hOther : ¬tag.StandsAt text first := fun h => hTag (h.unique hStands)
    rw [countTags_eq_add (Nat.le_refl first), if_neg hOther,
      countTags_of_lt (Nat.lt_succ_self first)]
  constructor
  · intro h
    have hDepth := h.depth_le
    rw [hNone h.stands Tag.noConfusion, hNone h.stands Tag.noConfusion] at hDepth
    exact ⟨h.stands, by omega⟩
  · rintro ⟨hStands, rfl⟩
    refine ⟨Nat.le_refl first, hStands, ?_, fun k hFirst hk => ?_⟩
    · simp [hNone hStands]
    · obtain rfl : k = first := by omega
      simp [hNone hStands]

/-- A tag at the first offset changes the depth from which the tags behind it are counted. -/
theorem outermost_iff_succ {depth depth' first : Nat} (hSelf : ¬Outermost text depth first first)
    (hDepth : depth' = depth + (if Tag.opening.StandsAt text first then 1 else 0) -
      (if Tag.closing.StandsAt text first then 1 else 0)) (last : Nat) :
    Outermost text depth first last ↔ Outermost text depth' (first + 1) last := by
  rcases Nat.lt_trichotomy first last with hlt | rfl | hgt
  · have hCount (tag : Tag) : countTags tag text first last =
        (if tag.StandsAt text first then 1 else 0) + countTags tag text (first + 1) last :=
      countTags_eq_add (Nat.le_of_lt hlt)
    have hOpening := hCount .opening
    have hClosing := hCount .closing
    constructor
    · intro h
      have hFirst := h.depth_le
      have hNext := h.closed (first + 1) (Nat.le_succ first) hlt
      refine ⟨hlt, h.stands, by omega, fun k hk => h.closed k (Nat.le_of_succ_le hk)⟩
    · intro h
      have hNext := h.depth_le
      refine ⟨Nat.le_of_lt hlt, h.stands, by omega, fun k hk hLast => ?_⟩
      rcases Nat.eq_or_lt_of_le hk with rfl | hk
      · omega
      · exact h.closed k hk hLast
  · refine iff_of_false hSelf fun h => ?_
    exact Nat.not_succ_le_self first h.le
  · refine iff_of_false (fun h => ?_) fun h => ?_
    · exact Nat.not_le_of_gt hgt h.le
    · exact Nat.not_le_of_gt hgt (Nat.le_of_succ_le h.le)

/-- The pass at an offset: a tag there decides how it goes on. -/
theorem dividerAmong_drop (text : Text) (depth first : Nat) :
    dividerAmong depth (occurrencesFrom first (text.drop first)) =
      if Tag.alternative.StandsAt text first ∧ depth = 0 then some first
      else dividerAmong (depth + (if Tag.opening.StandsAt text first then 1 else 0) -
          (if Tag.closing.StandsAt text first then 1 else 0))
        (occurrencesFrom (first + 1) (text.drop (first + 1))) := by
  have hBehind : text.drop (first + 1) = (text.drop first).tail := by
    rw [List.tail_drop]
  simp only [Tag.standsAt_iff, hBehind]
  cases hRest : text.drop first with
  | nil => simp [occurrencesFrom, dividerAmong, Tag.ofText?, Tag.text]
  | cons c rest =>
    rw [List.tail_cons]
    cases hc : Tag.ofText? (c :: rest) with
    | none => simp [occurrencesFrom, hc]
    | some tag => cases tag <;> cases depth <;> simp [occurrencesFrom, dividerAmong, hc]

/-- The pass finds the first `else` tag at depth zero, if there is one. -/
theorem isLeast_of_dividerAmong (text : Text) (depth first : Nat) :
    (∀ last, dividerAmong depth (occurrencesFrom first (text.drop first)) = some last →
      IsLeast {offset | Outermost text depth first offset} last) ∧
    (dividerAmong depth (occurrencesFrom first (text.drop first)) = none →
      ∀ last, ¬Outermost text depth first last) := by
  induction hLength : text.length - first generalizing depth first with
  | zero =>
    have hBeyond : text.length ≤ first := by omega
    rw [List.drop_eq_nil_of_le hBeyond]
    refine ⟨fun last h => ?_, fun _ last h => ?_⟩
    · cases h
    · have hlt := h.stands.lt_length
      have hle := h.le
      omega
  | succ length ih =>
    rw [dividerAmong_drop]
    by_cases hFound : Tag.alternative.StandsAt text first ∧ depth = 0
    · rw [if_pos hFound]
      refine ⟨fun last h => ?_, fun h => by cases h⟩
      obtain rfl : first = last := Option.some.inj h
      exact ⟨outermost_self_iff.mpr hFound, fun offset hOffset => hOffset.le⟩
    · rw [if_neg hFound]
      simp only [outermost_iff_succ (mt outermost_self_iff.mp hFound) rfl]
      exact ih _ (first + 1) (by omega)

/-- **The dividing tag is the first `else` tag that no directive encloses**: in front of it, from no
offset on, are there more opening than closing tags. Where there is no such tag none is found. -/
theorem isLeast_findElse (region : Text) (start : Nat) :
    (∀ divider, findElse region start = some divider ↔
      IsLeast {offset | start ≤ offset ∧ Tag.alternative.StandsAt region offset ∧
        ∀ k, start ≤ k → k ≤ offset →
          countTags .opening region k offset ≤ countTags .closing region k offset} divider) ∧
    (findElse region start = none ↔
      ∀ offset, start ≤ offset → Tag.alternative.StandsAt region offset →
        ∃ k, start ≤ k ∧ k ≤ offset ∧
          countTags .closing region k offset < countTags .opening region k offset) := by
  obtain ⟨hSome, hNone⟩ := isLeast_of_dividerAmong region 0 start
  rw [← findElse_eq] at hNone
  simp only [← findElse_eq] at hSome
  have hOutermost (offset : Nat) : Outermost region 0 start offset ↔
      start ≤ offset ∧ Tag.alternative.StandsAt region offset ∧
        ∀ k, start ≤ k → k ≤ offset →
          countTags .opening region k offset ≤ countTags .closing region k offset := by
    constructor
    · intro h
      exact ⟨h.le, h.stands, h.closed⟩
    · rintro ⟨hle, hStands, hClosed⟩
      refine ⟨hle, hStands, ?_, hClosed⟩
      rw [Nat.zero_add]
      exact hClosed start (Nat.le_refl start) hle
  simp only [hOutermost] at hSome hNone
  refine ⟨fun divider => ⟨hSome divider, fun hLeast => ?_⟩, fun h offset hle hStands => ?_,
    fun h => ?_⟩
  · cases h : findElse region start with
    | none => exact absurd hLeast.1 (hNone h divider)
    | some found => rw [(hSome found h).unique hLeast]
  · by_contra hEnclosed
    push Not at hEnclosed
    exact hNone h offset ⟨hle, hStands, hEnclosed⟩
  · cases hFound : findElse region start with
    | none => rfl
    | some found =>
      obtain ⟨hle, hStands, hClosed⟩ := (hSome found hFound).1
      obtain ⟨k, hStart, hk, hlt⟩ := h found hle hStands
      exact absurd (hClosed k hStart hk) (Nat.not_le_of_gt hlt)

end Template

end SqlTemplate
