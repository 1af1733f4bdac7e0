import Mathlib.Order.Bounds.Defs
import Mathlib.Order.Interval.Finset.Nat
import SqlTemplate.Proofs.Template.Attribution
import SqlTemplate.Proofs.Template.Conditions

/-!
# The match of an opening tag

`matchEndif` goes through a text once, with a depth. What it finds can be said without a depth, by
counting the tags between two offsets: **it is the first closing tag with which the closing tags
behind the opening tag outnumber the other opening tags** (`isLeast_matchEndif`). A search that
starts anew behind every tag, looking for the next opener and the next closer, ends and finds the
same (`seekCloser_eq`).

A directive that opens inside another is closed inside it, so **the spans of two directives are
apart or one lies in the other** (`spans_nested`).
-/

namespace SqlTemplate

/-! ### Tags at offsets -/

namespace Tag

/-- Whether a tag stands in a text at an offset. -/
def StandsAt (tag : Tag) (text : Text) (offset : Nat) : Prop := tag.text <+: text.drop offset

variable {tag tag' : Tag} {text : Text} {offset : Nat}

theorem standsAt_iff : tag.StandsAt text offset ↔ ofText? (text.drop offset) = some tag :=
  ofText?_eq_some_iff.symm

instance (tag : Tag) (text : Text) : DecidablePred (tag.StandsAt text) := fun _ =>
  decidable_of_iff _ standsAt_iff.symm

/-- Only one tag stands at an offset. -/
theorem StandsAt.unique (h : tag.StandsAt text offset) (h' : tag'.StandsAt text offset) :
    tag = tag' := by
  rw [standsAt_iff] at h h'
  exact Option.some.inj (h.symm.trans h')

theorem StandsAt.lt_length (h : tag.StandsAt text offset) : offset < text.length := by
  by_contra hLong
  rw [StandsAt, List.drop_eq_nil_of_le (Nat.le_of_not_lt hLong), List.prefix_nil] at h
  exact tag.text_ne_nil h

/-- A tag ends before the next one begins. -/
theorem StandsAt.add_length_le {offset' : Nat} (h : tag.StandsAt text offset)
    (h' : tag'.StandsAt text offset') (hlt : offset < offset') :
    offset + tag.text.length ≤ offset' := by
  by_contra hInside
  obtain ⟨k, rfl⟩ := Nat.exists_eq_add_of_lt hlt
  have hBrace : text[offset + k + 1]? = some '{' := by
    obtain ⟨rest, hRest⟩ := h'
    rw [← List.head?_drop, ← hRest, text_eq]
    rfl
  have hBody : text[offset + k + 1]? = tag.body[k]? := by
    obtain ⟨rest, hRest⟩ := h
    rw [text_eq, List.cons_append] at hRest
    rw [length_text] at hInside
    rw [Nat.add_assoc, ← List.getElem?_drop, ← hRest, List.getElem?_cons_succ,
      List.getElem?_append_left (by omega)]
  rw [hBody] at hBrace
  exact tag.notMem_body (List.mem_of_getElem? hBrace)

/-- A search for a tag finds the first one from an offset on. -/
theorem standsAt_of_findFrom? {start : Nat}
    (h : text.findFrom? tag.text start = some offset) :
    start ≤ offset ∧ tag.StandsAt text offset ∧
      ∀ k, start ≤ k → k < offset → ¬tag.StandsAt text k :=
  Text.findFrom?_eq_some h

theorem not_standsAt_of_findFrom? {start : Nat} (h : text.findFrom? tag.text start = none)
    (hStart : start ≤ offset) : ¬tag.StandsAt text offset :=
  Text.findFrom?_eq_none h tag.text_ne_nil hStart

end Tag

namespace Template

variable {text : Text}

/-- The tags found from an offset on are those that stand there. -/
theorem mem_occurrencesFrom_drop_iff {tag : Tag} {start offset : Nat} :
    (offset, tag) ∈ occurrencesFrom start (text.drop start) ↔
      start ≤ offset ∧ tag.StandsAt text offset := by
  constructor
  · intro h
    obtain ⟨front, rest, hText, rfl⟩ := eq_append_of_mem_occurrencesFrom h
    refine ⟨Nat.le_add_right start _, ?_⟩
    rw [Tag.StandsAt, ← List.drop_drop, hText, List.drop_left]
    exact List.prefix_append _ _
  · rintro ⟨hStart, hStands⟩
    have hLength : ((text.drop start).take (offset - start)).length = offset - start := by
      have hlt := hStands.lt_length
      simp only [List.length_take, List.length_drop]
      omega
    obtain ⟨rest, hRest⟩ := hStands
    have hText := List.take_append_drop (offset - start) (text.drop start)
    rw [List.drop_drop, Nat.add_sub_cancel' hStart, ← hRest] at hText
    have hFound := mem_occurrencesFrom tag start ((text.drop start).take (offset - start)) rest
    rwa [hText, hLength, Nat.add_sub_cancel' hStart] at hFound

/-! ### Counting tags -/

/-- How many tags of a kind stand at the offsets from `first` to `last`. -/
def countTags (tag : Tag) (text : Text) (first last : Nat) : Nat :=
  ((Finset.Icc first last).filter (tag.StandsAt text)).card

theorem countTags_of_lt {tag : Tag} {first last : Nat} (h : last < first) :
    countTags tag text first last = 0 := by
  simp [countTags, Finset.Icc_eq_empty_of_lt h]

/-- The tag at the first offset is counted by itself. -/
theorem countTags_eq_add {tag : Tag} {first last : Nat} (h : first ≤ last) :
    countTags tag text first last =
      (if tag.StandsAt text first then 1 else 0) + countTags tag text (first + 1) last := by
  have hInterval : Finset.Icc first last = insert first (Finset.Icc (first + 1) last) := by
    ext offset
    simp only [Finset.mem_insert, Finset.mem_Icc]
    omega
  have hFirst : first ∉ (Finset.Icc (first + 1) last).filter (tag.StandsAt text) := by
    simp
  rw [countTags, countTags, hInterval, Finset.filter_insert]
  split
  · rw [Finset.card_insert_of_notMem hFirst, Nat.add_comm]
  · rw [Nat.zero_add]

/-- Whether a closing tag stands at `last` with which the closing tags from `first` on outnumber the
opening ones by more than `depth`. -/
def Surplus (text : Text) (depth first last : Nat) : Prop :=
  first ≤ last ∧ Tag.closing.StandsAt text last ∧
    countTags .opening text first last + depth < countTags .closing text first last

/-- A surplus behind the first offset takes the tag there into account. -/
theorem surplus_iff_of_lt {depth first last : Nat} (h : first < last) :
    Surplus text depth first last ↔ Tag.closing.StandsAt text last ∧
      (if Tag.opening.StandsAt text first then 1 else 0) +
          countTags .opening text (first + 1) last + depth <
        (if Tag.closing.StandsAt text first then 1 else 0) +
          countTags .closing text (first + 1) last := by
  rw [Surplus, countTags_eq_add (Nat.le_of_lt h), countTags_eq_add (Nat.le_of_lt h),
    and_iff_right (Nat.le_of_lt h)]

theorem surplus_self_iff {depth first : Nat} :
    Surplus text depth first first ↔ Tag.closing.StandsAt text first ∧ depth = 0 := by
  have hEmpty (tag : Tag) : countTags tag text (first + 1) first = 0 :=
    countTags_of_lt (Nat.lt_succ_self first)
  rw [Surplus, countTags_eq_add (Nat.le_refl first), countTags_eq_add (Nat.le_refl first), hEmpty,
    hEmpty, and_iff_right (Nat.le_refl first)]
  refine and_congr_right fun hClosing => ?_
  have hOpening : ¬Tag.opening.StandsAt text first := fun h => by cases h.unique hClosing
  rw [if_pos hClosing, if_neg hOpening]
  omega

/-- A tag at the first offset changes the depth from which the tags behind it are counted. -/
theorem surplus_iff_succ {depth depth' first : Nat} (hSelf : ¬Surplus text depth first first)
    (hDepth : (if Tag.opening.StandsAt text first then 1 else 0) + depth =
      (if Tag.closing.StandsAt text first then 1 else 0) + depth') (last : Nat) :
    Surplus text depth first last ↔ Surplus text depth' (first + 1) last := by
  rcases Nat.lt_trichotomy first last with hlt | rfl | hgt
  · rw [surplus_iff_of_lt hlt, Surplus, and_iff_right (Nat.succ_le_of_lt hlt)]
    refine and_congr_right fun _ => ?_
    omega
  · refine iff_of_false hSelf fun h => ?_
    exact Nat.not_succ_le_self first h.1
  · refine iff_of_false (fun h => ?_) fun h => ?_
    · exact Nat.not_le_of_gt hgt h.1
    · exact Nat.not_le_of_gt hgt (Nat.le_of_succ_le h.1)

/-! ### Going through a text with a depth -/

/-- The search for a closer at an offset: a tag there decides how it goes on. -/
theorem closerFrom?_drop (text : Text) (depth first : Nat) :
    closerFrom? depth first (text.drop first) =
      if Tag.opening.StandsAt text first then
        closerFrom? (depth + 1) (first + 1) (text.drop (first + 1))
      else if Tag.closing.StandsAt text first then
        match depth with
        | 0 => some first
        | depth + 1 => closerFrom? depth (first + 1) (text.drop (first + 1))
      else closerFrom? depth (first + 1) (text.drop (first + 1)) := by
  have hBehind : text.drop (first + 1) = (text.drop first).tail := by
    rw [List.tail_drop]
  simp only [Tag.standsAt_iff, hBehind]
  cases hRest : text.drop first with
  | nil => rfl
  | cons c rest =>
    rw [List.tail_cons]
    cases hc : Tag.ofText? (c :: rest) with
    | none => simp [closerFrom?, hc]
    | some tag => cases tag <;> cases depth <;> simp [closerFrom?, hc]

/-- **The search finds the first surplus of closing tags**, if there is one. -/
theorem isLeast_of_closerFrom? (text : Text) (depth first : Nat) :
    (∀ last, closerFrom? depth first (text.drop first) = some last →
      IsLeast {offset | Surplus text depth first offset} last) ∧
    (closerFrom? depth first (text.drop first) = none → ∀ last, ¬Surplus text depth first last) := by
  induction hRest : text.drop first generalizing depth first with
  | nil =>
    refine ⟨fun last h => ?_, fun _ last hSurplus => ?_⟩
    · cases h
    · have hlt := hSurplus.2.1.lt_length
      have hLength := List.drop_eq_nil_iff.mp hRest
      have hle := hSurplus.1
      omega
  | cons c rest ih =>
    have hBehind : text.drop (first + 1) = rest := by
      rw [← List.tail_drop, hRest, List.tail_cons]
    have hSearch := closerFrom?_drop text depth first
    rw [hRest, hBehind] at hSearch
    -- The search goes on behind the first offset, from the depth that the tag there leaves.
    have hStep {depth' : Nat} (hSelf : ¬Surplus text depth first first)
        (hDepth : (if Tag.opening.StandsAt text first then 1 else 0) + depth =
          (if Tag.closing.StandsAt text first then 1 else 0) + depth') :
        (∀ last, closerFrom? depth' (first + 1) rest = some last →
          IsLeast {offset | Surplus text depth first offset} last) ∧
        (closerFrom? depth' (first + 1) rest = none → ∀ last, ¬Surplus text depth first last) := by
      simp only [surplus_iff_succ hSelf hDepth]
      exact ih depth' (first + 1) hBehind
    rw [hSearch]
    by_cases hOpening : Tag.opening.StandsAt text first
    · have hClosing : ¬Tag.closing.StandsAt text first := fun h => by cases h.unique hOpening
      rw [if_pos hOpening]
      refine hStep ?_ ?_
      · simp [surplus_self_iff, hClosing]
      · simp [hOpening, hClosing, Nat.add_comm]
    rw [if_neg hOpening]
    by_cases hClosing : Tag.closing.StandsAt text first
    · rw [if_pos hClosing]
      cases depth with
      | zero =>
        have hSelf : Surplus text 0 first first := surplus_self_iff.mpr ⟨hClosing, rfl⟩
        refine ⟨fun last h => ?_, fun h => by cases h⟩
        obtain rfl : first = last := Option.some.inj h
        exact ⟨hSelf, fun offset hOffset => hOffset.1⟩
      | succ depth =>
        refine hStep ?_ ?_
        · simp [surplus_self_iff]
        · simp [hOpening, hClosing, Nat.add_comm]
    · rw [if_neg hClosing]
      refine hStep ?_ ?_
      · simp [surplus_self_iff, hClosing]
      · simp [hOpening, hClosing]

/-! ### Going from tag to tag -/

/-- The closer of a directive entered `depth` openers ago, looked for from `start` on by a search
that starts anew behind every tag: an opener in front of the next closer goes one deeper; else the
closer comes one up, and at depth 0 it is the answer. -/
def seekCloser (text : Text) (depth start : Nat) : Option Nat :=
  match closes : text.findFrom? Tag.closing.text start with
  | none => none
  | some closer =>
    match opens : (text.findFrom? Tag.opening.text start).filter (· < closer) with
    | some opener =>
      have openedAfter := Text.findFrom?_bounds (Option.filter_eq_some_iff.mp opens).1
      seekCloser text (depth + 1) (opener + 1)
    | none =>
      match depth with
      | 0 => some closer
      | depth + 1 =>
        have closedAfter := Text.findFrom?_bounds closes
        seekCloser text depth (closer + 1)
termination_by text.length + 1 - start
decreasing_by
  all_goals simp only [Tag.text, List.length_cons, List.length_nil] at *; omega

/-- Where no tag opens or closes a directive, the search that goes through the text goes on. -/
theorem closerFrom?_drop_of_le {depth first last : Nat} (hle : first ≤ last)
    (hNone : ∀ k, first ≤ k → k < last →
      ¬Tag.opening.StandsAt text k ∧ ¬Tag.closing.StandsAt text k) :
    closerFrom? depth first (text.drop first) = closerFrom? depth last (text.drop last) := by
  induction last, hle using Nat.le_induction with
  | base => rfl
  | succ last hle ih =>
    obtain ⟨hOpening, hClosing⟩ := hNone last hle (Nat.lt_succ_self last)
    rw [ih fun k hFirst hk => hNone k hFirst (Nat.lt_succ_of_lt hk), closerFrom?_drop,
      if_neg hOpening, if_neg hClosing]

/-- Without a closer from some offset on the search finds nothing. -/
theorem closerFrom?_drop_eq_none {depth first : Nat}
    (hNone : ∀ k, first ≤ k → ¬Tag.closing.StandsAt text k) :
    closerFrom? depth first (text.drop first) = none := by
  cases hSearch : closerFrom? depth first (text.drop first) with
  | none => rfl
  | some last =>
    obtain ⟨hFirst, hClosing, -⟩ := ((isLeast_of_closerFrom? text depth first).1 last hSearch).1
    exact absurd hClosing (hNone last hFirst)

/-- **Going from tag to tag finds what going through the text finds.** -/
theorem seekCloser_eq (text : Text) (depth start : Nat) :
    seekCloser text depth start = closerFrom? depth start (text.drop start) := by
  -- Up to the next closer, with no opener before it, the search goes on.
  have hCloser (depth : Nat) {start closer : Nat}
      (hCloses : text.findFrom? Tag.closing.text start = some closer)
      (hOpens : (text.findFrom? Tag.opening.text start).filter (· < closer) = none) :
      closerFrom? depth start (text.drop start) = closerFrom? depth closer (text.drop closer) ∧
        Tag.closing.StandsAt text closer := by
    obtain ⟨hStart, hStands, hFirst⟩ := Tag.standsAt_of_findFrom? hCloses
    refine ⟨closerFrom?_drop_of_le hStart fun k hk hlt => ⟨?_, hFirst k hk hlt⟩, hStands⟩
    cases hOpener : text.findFrom? Tag.opening.text start with
    | none => exact Tag.not_standsAt_of_findFrom? hOpener hk
    | some opener =>
      obtain ⟨-, -, hFirst⟩ := Tag.standsAt_of_findFrom? hOpener
      have hBehind : closer ≤ opener := by simpa [hOpener] using hOpens
      exact hFirst k hk (by omega)
  fun_induction seekCloser text depth start with
  | case1 depth start hNone =>
    exact (closerFrom?_drop_eq_none fun k hk => Tag.not_standsAt_of_findFrom? hNone hk).symm
  | case2 depth start closer hCloses opener hOpens _ ih =>
    obtain ⟨hOpener, hBefore⟩ := Option.filter_eq_some_iff.mp hOpens
    obtain ⟨hStart, hStands, hFirst⟩ := Tag.standsAt_of_findFrom? hOpener
    obtain ⟨-, -, hFirstCloser⟩ := Tag.standsAt_of_findFrom? hCloses
    have hBefore := of_decide_eq_true hBefore
    rw [ih, closerFrom?_drop_of_le hStart fun k hk hlt =>
      ⟨hFirst k hk hlt, hFirstCloser k hk (Nat.lt_trans hlt hBefore)⟩]
    rw [closerFrom?_drop text depth opener, if_pos hStands]
  | case3 start closer hCloses hOpens =>
    obtain ⟨hSearch, hStands⟩ := hCloser 0 hCloses hOpens
    have hOpening : ¬Tag.opening.StandsAt text closer := fun h => by cases h.unique hStands
    rw [hSearch, closerFrom?_drop, if_neg hOpening, if_pos hStands]
  | case4 start closer hCloses hOpens depth _ ih =>
    obtain ⟨hSearch, hStands⟩ := hCloser (depth + 1) hCloses hOpens
    have hOpening : ¬Tag.opening.StandsAt text closer := fun h => by cases h.unique hStands
    rw [ih, hSearch, closerFrom?_drop text (depth + 1), if_neg hOpening, if_pos hStands]

/-! ### The match of an opening tag -/

/-- Whether a closing tag stands at `closed` with which the closing tags behind `opened` outnumber
the opening tags in between. -/
def Returns (text : Text) (opened closed : Nat) : Prop :=
  Tag.closing.StandsAt text closed ∧ opened < closed ∧
    ((Finset.Ioo opened closed).filter (Tag.opening.StandsAt text)).card <
      ((Finset.Ioc opened closed).filter (Tag.closing.StandsAt text)).card

theorem surplus_iff_returns {opened closed : Nat} :
    Surplus text 0 (opened + 1) closed ↔ Returns text opened closed := by
  have hClosed : Finset.Icc (opened + 1) closed = Finset.Ioc opened closed := by
    ext offset
    simp only [Finset.mem_Icc, Finset.mem_Ioc]
    omega
  rw [Surplus, Returns, countTags, countTags, hClosed, and_left_comm]
  refine and_congr_right fun hStands => and_congr_right fun _ => ?_
  -- At the closing tag itself no opening tag stands.
  have hOpened : (Finset.Ioc opened closed).filter (Tag.opening.StandsAt text) =
      (Finset.Ioo opened closed).filter (Tag.opening.StandsAt text) := by
    ext offset
    simp only [Finset.mem_filter, Finset.mem_Ioc, Finset.mem_Ioo]
    refine and_congr_left fun hOpening => ?_
    have hne : offset ≠ closed := by
      rintro rfl
      cases hOpening.unique hStands
    omega
  rw [hOpened, Nat.add_zero]

/-- **The match of an opening tag is the first closing tag with which the closing tags behind it
outnumber the opening tags in between**, and there is none if there is no such tag. The search that
starts anew behind every tag, with nothing open, ends and finds it. -/
theorem isLeast_matchEndif (text : Text) (opened : Nat) :
    (∀ closed, matchEndif text opened = some closed ↔
      IsLeast {offset | Returns text opened offset} closed) ∧
    (matchEndif text opened = none ↔ ∀ closed, ¬Returns text opened closed) ∧
    seekCloser text 0 (opened + 1) = matchEndif text opened := by
  have hMatch : matchEndif text opened =
      closerFrom? 0 (opened + 1) (text.drop (opened + 1)) := by
    rw [matchEndif_eq, closerFrom?_eq, tagsBehind]
  obtain ⟨hSome, hNone⟩ := isLeast_of_closerFrom? text 0 (opened + 1)
  simp only [← hMatch, surplus_iff_returns] at hSome hNone
  refine ⟨fun closed => ⟨hSome closed, fun hLeast => ?_⟩, ⟨hNone, fun hNever => ?_⟩,
    (seekCloser_eq text 0 (opened + 1)).trans hMatch.symm⟩
  · cases h : matchEndif text opened with
    | none => exact absurd hLeast.1 (hNone h closed)
    | some found => rw [(hSome found h).unique hLeast]
  · cases h : matchEndif text opened with
    | none => rfl
    | some found => exact absurd (hSome found h).1 (hNever found)

/-! ### Directives inside one another -/

/-- From fewer openers ago a closer is found earlier. -/
theorem exists_lt_of_closerAmong {depth depth' closed : Nat} {tags : List (Nat × Tag)}
    (hTags : tags.Pairwise (·.1 < ·.1)) (hDepth : depth < depth')
    (h : closerAmong depth' tags = some closed) :
    ∃ c, closerAmong depth tags = some c ∧ c < closed := by
  induction tags generalizing depth depth' with
  | nil => cases h
  | cons first rest ih =>
    obtain ⟨offset, tag⟩ := first
    obtain ⟨hBehind, hRest⟩ := List.pairwise_cons.mp hTags
    have ih {d d' : Nat} := @ih d d' hRest
    cases tag with
    | opening => exact ih (Nat.succ_lt_succ hDepth) h
    | alternative =>
      rw [closerAmong] at h ⊢
      exact ih hDepth h
    | closing =>
      cases depth' with
      | zero => exact absurd hDepth (Nat.not_lt_zero depth)
      | succ depth' =>
        rw [closerAmong] at h
        cases depth with
        | zero =>
          rw [← ownAmong_closing] at h
          exact ⟨offset, rfl, hBehind _ (mem_of_ownAmong h)⟩
        | succ depth => exact ih (Nat.lt_of_succ_lt_succ hDepth) h

theorem mem_of_matchEndif {opened closed : Nat} (h : matchEndif text opened = some closed) :
    opened < closed ∧ Tag.closing.StandsAt text closed := by
  rw [matchEndif_eq, ← ownAmong_closing] at h
  exact mem_occurrencesFrom_drop_iff.mp (mem_of_ownAmong h)

theorem pairwise_tagsBehind (text : Text) (opened : Nat) :
    (tagsBehind text opened).Pairwise (·.1 < ·.1) :=
  pairwise_occurrencesFrom _ _

/-- **A directive that opens before the match of another is closed before it.** -/
theorem exists_matchEndif_lt {outer inner closed : Nat} (hInner : Tag.opening.StandsAt text inner)
    (hOuter : outer < inner) (hClosed : matchEndif text outer = some closed)
    (hBefore : inner < closed) :
    ∃ c, matchEndif text inner = some c ∧ inner < c ∧ c < closed := by
  have hClosing := (mem_of_matchEndif hClosed).2
  rw [matchEndif_eq, ← ownAmong_closing] at hClosed
  have hSuffix : (inner, .opening) :: tagsBehind text inner <:+ tagsBehind text outer := by
    rw [tagsBehind, tagsBehind, cons_suffix_occurrencesFrom_iff, mem_occurrencesFrom_drop_iff]
    refine ⟨⟨hOuter, hInner⟩, ?_⟩
    rw [List.drop_drop, Nat.add_sub_cancel' (by omega)]
  have hMem : (closed, .closing) ∈ (inner, .opening) :: tagsBehind text inner :=
    List.mem_cons_of_mem _ (mem_occurrencesFrom_drop_iff.mpr ⟨hBefore, hClosing⟩)
  obtain ⟨depth, hDepth⟩ :=
    exists_ownAmong_of_suffix (pairwise_tagsBehind text outer) hSuffix hMem hClosed
  rw [ownAmong, ownAmong_closing] at hDepth
  obtain ⟨c, hc, hlt⟩ :=
    exists_lt_of_closerAmong (pairwise_tagsBehind text inner) (Nat.succ_pos depth) hDepth
  rw [← matchEndif_eq] at hc
  exact ⟨c, hc, (mem_of_matchEndif hc).1, hlt⟩

/-- Of two directives the one that opens first is closed before the other opens, or the other one is
closed inside it. -/
theorem nested_of_lt {outer inner closed : Nat} (hInner : Tag.opening.StandsAt text inner)
    (hOuter : outer < inner) (hClosed : matchEndif text outer = some closed) :
    closed < inner ∨
      (inner < closed ∧ ∃ c, matchEndif text inner = some c ∧ inner < c ∧ c < closed) := by
  have hne : closed ≠ inner := by
    rintro rfl
    cases hInner.unique (mem_of_matchEndif hClosed).2
  rcases Nat.lt_or_gt_of_ne hne with hApart | hInside
  · exact .inl hApart
  · exact .inr ⟨hInside, exists_matchEndif_lt hInner hOuter hClosed hInside⟩

/-- **The spans of directives are well nested.** Let a directive open at `opened` and be closed at
`closed`. A directive that opens behind it opens behind its closing tag, or it is closed inside;
no other directive has its closing tag; and from its opening tag to the end of its closing tag stand
both tags of another directive or none, so that cutting this span out takes no tag from its
partner. -/
theorem spans_nested {opened closed : Nat} (hOpened : Tag.opening.StandsAt text opened)
    (hClosed : matchEndif text opened = some closed) :
    (∀ inner, Tag.opening.StandsAt text inner → opened < inner →
      closed < inner ∨
        (inner < closed ∧ ∃ c, matchEndif text inner = some c ∧ inner < c ∧ c < closed)) ∧
    (∀ other, Tag.opening.StandsAt text other → matchEndif text other = some closed →
      other = opened) ∧
    (∀ other c, Tag.opening.StandsAt text other → matchEndif text other = some c →
      (other ∈ Set.Ico opened (closed + Tag.closing.text.length) ↔
        c ∈ Set.Ico opened (closed + Tag.closing.text.length))) := by
  obtain ⟨hSpan, hClosing⟩ := mem_of_matchEndif hClosed
  refine ⟨fun inner hInner hlt => nested_of_lt hInner hlt hClosed, ?_, ?_⟩
  · intro other hOther hc
    rcases Nat.lt_trichotomy other opened with hlt | rfl | hgt
    · rcases nested_of_lt hOpened hlt hc with hApart | ⟨-, c, hInside, -, hBefore⟩
      · omega
      · cases hClosed.symm.trans hInside
        exact absurd hBefore (Nat.lt_irrefl _)
    · rfl
    · rcases nested_of_lt hOther hgt hClosed with hApart | ⟨-, c, hInside, -, hBefore⟩
      · exact absurd (mem_of_matchEndif hc).1 (Nat.not_lt_of_gt hApart)
      · cases hc.symm.trans hInside
        exact absurd hBefore (Nat.lt_irrefl _)
  · intro other c hOther hc
    have hBehind {tag : Tag} {k : Nat} (hTag : tag.StandsAt text k) (hlt : closed < k) :=
      hClosing.add_length_le hTag hlt
    obtain ⟨hOtherSpan, hOtherClosing⟩ := mem_of_matchEndif hc
    simp only [Set.mem_Ico]
    rcases Nat.lt_trichotomy other opened with hlt | rfl | hgt
    · rcases nested_of_lt hOpened hlt hc with hApart | ⟨-, c', hInside, -, hBefore⟩
      · omega
      · cases hClosed.symm.trans hInside
        have hEnd := hBehind hOtherClosing hBefore
        omega
    · cases hClosed.symm.trans hc
      simp [Tag.text]
      omega
    · rcases nested_of_lt hOther hgt hClosed with hApart | ⟨hInner, c', hInside, -, hBefore⟩
      · have hEnd := hBehind hOther hApart
        omega
      · cases hc.symm.trans hInside
        omega

/-- A directive with another one inside, a third one behind it, and a closing tag too many. -/
def neighbouringText : Text :=
  directive ['a'] (directive ['b'] ['x'] []) (directive ['c'] ['y'] Tag.closing.text)

/-- The first directive is closed behind the second one and before the third one opens. -/
theorem spans_nested_neighbouring :
    matchEndif neighbouringText (0 : Nat) = some 30 ∧
    matchEndif neighbouringText (9 : Nat) = some 19 ∧
    matchEndif neighbouringText (41 : Nat) = some 51 ∧
    (30 < 9 ∨ (9 < 30 ∧ ∃ c, matchEndif neighbouringText (9 : Nat) = some c ∧ 9 < c ∧ c < 30)) ∧
    (30 < 41 ∨
      (41 < 30 ∧ ∃ c, matchEndif neighbouringText (41 : Nat) = some c ∧ 41 < c ∧ c < 30)) ∧
    (9 ∈ Set.Ico 0 (30 + Tag.closing.text.length) ↔
      19 ∈ Set.Ico 0 (30 + Tag.closing.text.length)) := by
  have hOpened : Tag.opening.StandsAt neighbouringText 0 := by decide +kernel
  have hInner : Tag.opening.StandsAt neighbouringText 9 := by decide +kernel
  have hLater : Tag.opening.StandsAt neighbouringText 41 := by decide +kernel
  have hClosed : matchEndif neighbouringText (0 : Nat) = some 30 := by decide +kernel
  have hInside : matchEndif neighbouringText (9 : Nat) = some 19 := by decide +kernel
  obtain ⟨hNested, -, hSpan⟩ := spans_nested hOpened hClosed
  exact ⟨hClosed, hInside, by decide +kernel, hNested 9 hInner (by decide),
    hNested 41 hLater (by decide), hSpan 9 19 hInner hInside⟩

end Template

end SqlTemplate
