import SqlTemplate.Template.Block

/-!
# Searching for tags, seen from the tags alone

The closer of a directive and the `else` tag that divides a body are looked for in a text. Both
depend only on the tags of the text and their offsets: `closerAmong` and `dividerAmong` find them
in one pass over the occurrences, with a depth that an opener raises and a closer lowers.

**What `closerFrom?` and `findElse` find is what these passes find** (`closerFrom?_eq`,
`findElse_eq`), for every text, complete or not.
-/

namespace SqlTemplate

namespace Text

/-- A piece is not found in front of the first character that it can begin with. -/
theorem find?_append_of_notMem {c : Char} {front : Text} (h : c ∉ front) (piece rest : Text) :
    find? (front ++ rest) (c :: piece) = (find? rest (c :: piece)).map (· + front.length) := by
  induction front with
  | nil => simp
  | cons a front ih =>
    simp only [List.mem_cons, not_or] at h
    have hca : (c == a) = false := by simpa using h.1
    simp only [List.cons_append, find?, List.isPrefixOf, hca, Bool.false_and, Bool.false_eq_true,
      if_false, ih h.2, Option.map_map, List.length_cons]
    rfl

theorem find?_append_self (piece rest : Text) : find? (piece ++ rest) piece = some 0 := by
  cases piece with
  | nil => exact find?_nil_piece _
  | cons c piece =>
    have h : List.isPrefixOf (c :: piece) (c :: piece ++ rest) := by
      simp [List.isPrefixOf_iff_prefix]
    simp only [List.cons_append] at h ⊢
    simp only [find?, h, if_true]

/-- A piece does not reach into a text that begins with a character which the piece has only at its
own beginning. -/
theorem prefix_of_prefix_append {c d : Char} {piece text rest : Text} (hd : d ∉ piece.tail)
    (h : piece <+: c :: text ++ d :: rest) : piece <+: c :: text := by
  rcases List.prefix_or_prefix_of_prefix h (List.prefix_append (c :: text) _) with hPiece | ⟨x, hx⟩
  · exact hPiece
  cases x with
  | nil =>
    rw [List.append_nil] at hx
    exact hx ▸ List.prefix_rfl
  | cons b x =>
    rw [← hx, List.prefix_append_right_inj, List.cons_prefix_cons] at h
    rw [← hx, List.cons_append, List.tail_cons, h.1] at hd
    exact absurd (List.mem_append_right text List.mem_cons_self) hd

/-- What begins with a character stands behind a text without it. -/
theorem cons_suffix_of_notMem {c : Char} {front rest tail : Text} (hc : c ∉ front)
    (h : c :: tail <:+ front ++ rest) : c :: tail <:+ rest := by
  induction front with
  | nil => exact h
  | cons d front ih =>
    rw [List.mem_cons, not_or] at hc
    rcases List.suffix_cons_iff.mp h with hFirst | hLater
    · exact absurd (List.cons.inj hFirst).1 hc.1
    · exact ih hc.2 hLater

/-- A piece whose first character does not come again in it is found where it stands first. -/
theorem find?_append_of_not_infix {c : Char} {piece front : Text} (hc : c ∉ piece)
    (h : ¬c :: piece <:+: front) (rest : Text) :
    find? (front ++ (c :: piece ++ rest)) (c :: piece) = some front.length := by
  induction front with
  | nil => rw [List.nil_append, find?_append_self, List.length_nil]
  | cons d front ih =>
    rw [List.infix_cons_iff, not_or] at h
    have hFirst : ¬List.isPrefixOf (c :: piece) (d :: (front ++ (c :: piece ++ rest))) := by
      rw [List.isPrefixOf_iff_prefix]
      intro hPrefix
      exact h.1 (prefix_of_prefix_append hc hPrefix)
    rw [List.cons_append, find?, if_neg hFirst, ih h.2]
    rfl

theorem slice_append (front middle rest : Text) :
    slice (front ++ middle ++ rest) front.length (front ++ middle).length = middle := by
  rw [slice, List.take_left, List.drop_left]

end Text

namespace Tag

/-- Only a brace begins a tag. -/
theorem ofText?_cons_of_ne {c : Char} (h : c ≠ '{') (rest : Text) :
    ofText? (c :: rest) = none := by
  have h' : ('{' == c) = false := by simpa using Ne.symm h
  simp [ofText?, text, List.isPrefixOf, h']

/-- A tag is recognized where it stands. -/
theorem ofText?_append (tag : Tag) (rest : Text) : ofText? (tag.text ++ rest) = some tag := by
  cases tag <;> simp [ofText?, text, List.isPrefixOf]

theorem prefix_of_ofText? {tag : Tag} {t : Text} (h : ofText? t = some tag) : tag.text <+: t := by
  simp only [ofText?] at h
  split at h
  · cases h
    exact List.isPrefixOf_iff_prefix.mp ‹_›
  · split at h
    · cases h
      exact List.isPrefixOf_iff_prefix.mp ‹_›
    · split at h
      · cases h
        exact List.isPrefixOf_iff_prefix.mp ‹_›
      · cases h

theorem ofText?_eq_some_iff {tag : Tag} {t : Text} : ofText? t = some tag ↔ tag.text <+: t := by
  constructor
  · exact prefix_of_ofText?
  · rintro ⟨rest, rfl⟩
    exact ofText?_append tag rest

/-- A tag without its brace. -/
def body (tag : Tag) : Text := tag.text.tail

theorem text_eq (tag : Tag) : tag.text = '{' :: tag.body := by cases tag <;> rfl

theorem notMem_body (tag : Tag) : '{' ∉ tag.body := by cases tag <;> decide

theorem not_infix_of_notMem {front : Text} (h : '{' ∉ front) (tag : Tag) :
    ¬tag.text <:+: front := by
  rw [text_eq]
  exact fun hInfix => h (hInfix.subset List.mem_cons_self)

theorem text_ne_nil (tag : Tag) : tag.text ≠ [] := by cases tag <;> exact List.cons_ne_nil _ _

theorem close_ne_nil : close ≠ [] := List.cons_ne_nil _ _

theorem length_text (tag : Tag) : tag.text.length = tag.body.length + 1 := by
  rw [text_eq, List.length_cons]

end Tag

/-- Passing the brace of a tag. -/
theorem Text.drop_append_tag (front : Text) (tag : Tag) (rest : Text) :
    List.drop (front.length + 1) (front ++ (tag.text ++ rest)) = tag.body ++ rest := by
  rw [Tag.text_eq, List.drop_append]
  simp

namespace Template

/-! ### Occurrences -/

theorem occurrencesFrom_cons_of_ne {c : Char} (h : c ≠ '{') (offset : Nat) (rest : Text) :
    occurrencesFrom offset (c :: rest) = occurrencesFrom (offset + 1) rest := by
  simp only [occurrencesFrom, Tag.ofText?_cons_of_ne h]

theorem occurrencesFrom_cons_of_none {c : Char} {rest : Text} (h : Tag.ofText? (c :: rest) = none)
    (offset : Nat) : occurrencesFrom offset (c :: rest) = occurrencesFrom (offset + 1) rest := by
  simp only [occurrencesFrom, h]

theorem occurrencesFrom_cons_of_some {c : Char} {rest : Text} {tag : Tag}
    (h : Tag.ofText? (c :: rest) = some tag) (offset : Nat) :
    occurrencesFrom offset (c :: rest) = (offset, tag) :: occurrencesFrom (offset + 1) rest := by
  simp only [occurrencesFrom, h]

/-- A text without a brace has no tags. -/
theorem occurrencesFrom_append_of_notMem {front : Text} (h : '{' ∉ front) (offset : Nat)
    (rest : Text) :
    occurrencesFrom offset (front ++ rest) = occurrencesFrom (offset + front.length) rest := by
  induction front generalizing offset with
  | nil => rfl
  | cons c front ih =>
    simp only [List.mem_cons, not_or] at h
    rw [List.cons_append, occurrencesFrom_cons_of_ne (Ne.symm h.1), ih h.2, List.length_cons,
      Nat.add_assoc, Nat.add_comm 1]

/-- A tag is an occurrence, and there is none inside it. -/
theorem occurrencesFrom_tag_append (tag : Tag) (offset : Nat) (rest : Text) :
    occurrencesFrom offset (tag.text ++ rest) =
      (offset, tag) :: occurrencesFrom (offset + tag.text.length) rest := by
  have h := Tag.ofText?_append tag rest
  rw [Tag.text_eq, List.cons_append] at h ⊢
  rw [occurrencesFrom_cons_of_some h, occurrencesFrom_append_of_notMem tag.notMem_body,
    List.length_cons, Nat.add_assoc, Nat.add_comm 1]

theorem occurrencesFrom_close_append (offset : Nat) (rest : Text) :
    occurrencesFrom offset (Tag.close ++ rest) =
      occurrencesFrom (offset + Tag.close.length) rest :=
  occurrencesFrom_append_of_notMem (by decide) offset rest

/-- A tag in front of another tag does not reach into it. -/
theorem prefix_of_prefix_append_tag {tag tag' : Tag} {c : Char} {text rest : Text}
    (h : tag.text <+: c :: text ++ (tag'.text ++ rest)) : tag.text <+: c :: text := by
  rw [Tag.text_eq tag'] at h
  exact Text.prefix_of_prefix_append tag.notMem_body h

/-- A tag is found where it stands first. -/
theorem find?_append_tag {tag : Tag} {front : Text} (h : ¬tag.text <:+: front) (rest : Text) :
    Text.find? (front ++ (tag.text ++ rest)) tag.text = some front.length := by
  rw [Tag.text_eq] at h ⊢
  exact Text.find?_append_of_not_infix tag.notMem_body h rest

/-- A tag is found at the first character where it is recognized. -/
theorem find?_cons_tag (tag : Tag) (c : Char) (rest : Text) :
    Text.find? (c :: rest) tag.text =
      if Tag.ofText? (c :: rest) = some tag then some 0
      else (Text.find? rest tag.text).map (· + 1) := by
  simp only [Text.find?, Tag.ofText?_eq_some_iff, List.isPrefixOf_iff_prefix]

/-! ### The closer of a directive -/

/-- The closer among tags in order: an opener goes one deeper, a closer comes one up, and the
closer at depth 0 is the answer. -/
def closerAmong : Nat → List (Nat × Tag) → Option Nat
  | _, [] => none
  | depth, (_, .opening) :: rest => closerAmong (depth + 1) rest
  | 0, (offset, .closing) :: _ => some offset
  | depth + 1, (_, .closing) :: rest => closerAmong depth rest
  | depth, (_, .alternative) :: rest => closerAmong depth rest

/-- **The closer of a directive depends on the tags alone.** -/
theorem closerFrom?_eq (depth offset : Nat) (text : Text) :
    closerFrom? depth offset text = closerAmong depth (occurrencesFrom offset text) := by
  induction text generalizing depth offset with
  | nil => rfl
  | cons c rest ih =>
    cases h : Tag.ofText? (c :: rest) with
    | none => simp only [closerFrom?, h, occurrencesFrom_cons_of_none h, ih]
    | some tag =>
      rw [occurrencesFrom_cons_of_some h]
      cases tag with
      | opening => simp only [closerFrom?, h, closerAmong, ih]
      | alternative => simp only [closerFrom?, h, closerAmong, ih]
      | closing =>
        cases depth with
        | zero => simp only [closerFrom?, h, closerAmong]
        | succ depth => simp only [closerFrom?, h, closerAmong, ih]

theorem closer?_eq (text : Text) (start : Nat) :
    closer? text start = closerAmong 0 (occurrencesFrom start (text.drop start)) :=
  closerFrom?_eq 0 start _

/-! ### The `else` tag that divides a body -/

/-- The dividing tag among tags in order: an opener goes one deeper, a closer comes one up unless
the depth is 0 already, and the first `else` tag at depth 0 is the answer. -/
def dividerAmong : Nat → List (Nat × Tag) → Option Nat
  | _, [] => none
  | depth, (_, .opening) :: rest => dividerAmong (depth + 1) rest
  | depth, (_, .closing) :: rest => dividerAmong (depth - 1) rest
  | 0, (offset, .alternative) :: _ => some offset
  | depth + 1, (_, .alternative) :: rest => dividerAmong (depth + 1) rest

/-- Without an `else` tag nothing divides. -/
theorem dividerAmong_of_find?_none {text : Text}
    (h : text.find? Tag.alternative.text = none) (depth offset : Nat) :
    dividerAmong depth (occurrencesFrom offset text) = none := by
  induction text generalizing depth offset with
  | nil => rfl
  | cons c rest ih =>
    rw [find?_cons_tag] at h
    split at h
    · cases h
    · have ih := ih (Option.map_eq_none_iff.mp h)
      cases hc : Tag.ofText? (c :: rest) with
      | none => rw [occurrencesFrom_cons_of_none hc, ih]
      | some tag =>
        rw [occurrencesFrom_cons_of_some hc]
        cases tag with
        | opening => rw [dividerAmong, ih]
        | closing => rw [dividerAmong, ih]
        | alternative => exact absurd hc ‹_›

/-- The first `else` tag divides if no opener stands before it. -/
theorem dividerAmong_zero_of_before {text : Text} {found : Nat}
    (h : text.find? Tag.alternative.text = some found)
    (hopen : ∀ n, text.find? Tag.opening.text = some n → found < n) (offset : Nat) :
    dividerAmong 0 (occurrencesFrom offset text) = some (found + offset) := by
  induction text generalizing found offset with
  | nil => simp [Text.find?, Tag.text] at h
  | cons c rest ih =>
    rw [find?_cons_tag] at h hopen
    cases hc : Tag.ofText? (c :: rest) with
    | none =>
      simp only [hc, reduceCtorEq, if_false, Option.map_eq_some_iff] at h hopen
      obtain ⟨found, h, rfl⟩ := h
      rw [occurrencesFrom_cons_of_none hc, ih h fun n hn => ?_]
      · congr 1; omega
      · have := hopen (n + 1) ⟨n, hn, rfl⟩
        omega
    | some tag =>
      rw [occurrencesFrom_cons_of_some hc]
      cases tag with
      | opening => exact absurd (hopen 0 (by rw [if_pos hc])) (Nat.not_lt_zero _)
      | alternative =>
        rw [if_pos hc, Option.some.injEq] at h
        rw [dividerAmong, ← h, Nat.zero_add]
      | closing =>
        simp only [hc, Option.some.injEq, reduceCtorEq, if_false, Option.map_eq_some_iff] at h hopen
        obtain ⟨found, h, rfl⟩ := h
        rw [dividerAmong, ih h fun n hn => ?_]
        · congr 1; omega
        · have := hopen (n + 1) ⟨n, hn, rfl⟩
          omega

/-- An opener before the first `else` tag is entered. -/
theorem dividerAmong_zero_of_after {text : Text} {found nested : Nat}
    (h : text.find? Tag.alternative.text = some found)
    (hopen : text.find? Tag.opening.text = some nested) (hlt : nested < found) (offset : Nat) :
    dividerAmong 0 (occurrencesFrom offset text) =
      dividerAmong 1 (occurrencesFrom (offset + nested + 1) (text.drop (nested + 1))) := by
  induction text generalizing found nested offset with
  | nil => simp [Text.find?, Tag.text] at h
  | cons c rest ih =>
    rw [find?_cons_tag] at h hopen
    cases hc : Tag.ofText? (c :: rest) with
    | none =>
      simp only [hc, reduceCtorEq, if_false, Option.map_eq_some_iff] at h hopen
      obtain ⟨found, h, rfl⟩ := h
      obtain ⟨nested, hopen, rfl⟩ := hopen
      rw [occurrencesFrom_cons_of_none hc, ih h hopen (by omega), List.drop_succ_cons]
      congr 2; omega
    | some tag =>
      rw [occurrencesFrom_cons_of_some hc]
      cases tag with
      | opening =>
        rw [if_pos hc, Option.some.injEq] at hopen
        rw [dividerAmong, ← hopen, Nat.zero_add, Nat.add_zero, List.drop_succ_cons, List.drop_zero]
      | alternative =>
        rw [if_pos hc, Option.some.injEq] at h
        omega
      | closing =>
        simp only [hc, Option.some.injEq, reduceCtorEq, if_false, Option.map_eq_some_iff] at h hopen
        obtain ⟨found, h, rfl⟩ := h
        obtain ⟨nested, hopen, rfl⟩ := hopen
        rw [dividerAmong, ih h hopen (by omega), List.drop_succ_cons]
        congr 2; omega

/-- A directive that is never closed hides every `else` tag behind its opener. -/
theorem dividerAmong_succ_of_closerAmong_none {depth : Nat} {tags : List (Nat × Tag)}
    (h : closerAmong depth tags = none) : dividerAmong (depth + 1) tags = none := by
  fun_induction closerAmong depth tags with
  | case1 => rfl
  | case2 _ _ _ ih => exact ih h
  | case3 => cases h
  | case4 _ _ _ ih => exact ih h
  | case5 _ _ _ ih => exact ih h

/-- A directive that is closed is passed over as a whole. -/
theorem dividerAmong_succ_of_closerAmong_some {depth offset closed : Nat} {text : Text}
    (h : closerAmong depth (occurrencesFrom offset text) = some closed) :
    dividerAmong (depth + 1) (occurrencesFrom offset text) =
      dividerAmong 0 (occurrencesFrom (closed + 1) (text.drop (closed + 1 - offset))) := by
  induction text generalizing depth offset with
  | nil => cases h
  | cons c rest ih =>
    have hle : offset ≤ closed := (closerFrom?_bounds ((closerFrom?_eq ..).trans h)).1
    have hdrop : offset + 1 ≤ closed →
        (c :: rest).drop (closed + 1 - offset) = rest.drop (closed + 1 - (offset + 1)) := by
      intro hlt
      rw [show closed + 1 - offset = closed + 1 - (offset + 1) + 1 by omega, List.drop_succ_cons]
    have hlt {d : Nat} (h : closerAmong d (occurrencesFrom (offset + 1) rest) = some closed) :
        offset + 1 ≤ closed := (closerFrom?_bounds ((closerFrom?_eq ..).trans h)).1
    cases hc : Tag.ofText? (c :: rest) with
    | none =>
      rw [occurrencesFrom_cons_of_none hc] at h ⊢
      rw [ih h, hdrop (hlt h)]
    | some tag =>
      rw [occurrencesFrom_cons_of_some hc] at h ⊢
      cases tag with
      | opening =>
        rw [closerAmong] at h
        rw [dividerAmong, ih h, hdrop (hlt h)]
      | alternative =>
        rw [closerAmong] at h
        rw [dividerAmong, ih h, hdrop (hlt h)]
      | closing =>
        cases depth with
        | zero =>
          simp only [closerAmong, Option.some.injEq] at h
          subst h
          simp [dividerAmong]
        | succ depth =>
          rw [closerAmong] at h
          rw [dividerAmong, Nat.add_sub_cancel, ih h, hdrop (hlt h)]

/-- **The `else` tag that divides a body is found in one pass over the tags**, although the
search jumps from a nested directive to its closer. -/
theorem findElse_eq (region : Text) (start : Nat) :
    findElse region start = dividerAmong 0 (occurrencesFrom start (region.drop start)) := by
  by_cases hstart : region.length < start
  · have hnone (piece : Text) : region.findFrom? piece start = none := if_pos hstart
    rw [findElse, hnone, List.drop_eq_nil_of_le (Nat.le_of_lt hstart)]
    rfl
  have hfind (piece : Text) :
      region.findFrom? piece start = (Text.find? (region.drop start) piece).map (· + start) :=
    if_neg hstart
  rw [findElse]
  split
  next h =>
    rw [hfind, Option.map_eq_none_iff] at h
    exact (dividerAmong_of_find?_none h 0 start).symm
  next elseOffset h =>
    rw [hfind, Option.map_eq_some_iff] at h
    obtain ⟨found, hElse, rfl⟩ := h
    split
    next h =>
      rw [hfind, Option.map_eq_none_iff] at h
      rw [dividerAmong_zero_of_before hElse (by simp [h])]
    next nested h =>
      rw [hfind, Option.map_eq_some_iff] at h
      obtain ⟨opened, hOpen, rfl⟩ := h
      by_cases hlt : found + start < opened + start
      · rw [if_pos hlt, dividerAmong_zero_of_before hElse]
        intro n hn
        rw [hOpen, Option.some.injEq] at hn
        omega
      · have hne : opened ≠ found := by
          rintro rfl
          have h₁ := Text.prefix_drop_of_find? hElse
          have h₂ := Text.prefix_drop_of_find? hOpen
          rw [← Tag.ofText?_eq_some_iff] at h₁ h₂
          cases h₁.symm.trans h₂
        rw [if_neg hlt, dividerAmong_zero_of_after hElse hOpen (by omega), List.drop_drop,
          show start + opened + 1 = opened + start + 1 by omega,
          show start + (opened + 1) = opened + start + 1 by omega]
        split
        next h =>
          rw [closer?_eq] at h
          exact (dividerAmong_succ_of_closerAmong_none h).symm
        next closed h =>
          obtain ⟨hclosed, hlen⟩ := closer?_bounds h
          have hdec : region.length - (closed + 1) < region.length - start := by omega
          rw [closer?_eq] at h
          rw [findElse_eq region (closed + 1), dividerAmong_succ_of_closerAmong_some h,
            List.drop_drop, Nat.add_sub_cancel' (by omega)]
termination_by region.length - start

end Template

end SqlTemplate
