import SqlTemplate.Proofs.Template.Extraction
import SqlTemplate.Template.Warning

/-!
# Which directive a tag belongs to

A tag can be given to a directive in two ways. Seen from the directive, `ownAmong` goes through the
tags behind its opener and counts how deep it is; seen from the tag, `nest` gives it to the innermost
of the directives that are open. A directive with `depth` others open inside it is at place `depth`
of these, so both go on in step (`FollowsNesting.ofSome_cons`). By induction on the tags,

* **a directive that stays open is one for which no closing tag is found**
  (`mem_nestingProblems_unterminated`);
* **a tag that is out of place is one that is found for no directive** (`exists_stray_iff`);
* **no tag is found for two directives** (`eq_of_ownAmong`).
-/

namespace SqlTemplate

namespace Template

/-! ### Seen from the directive -/

/-- The first tag of a kind that belongs to a directive entered `depth` openers ago. The closer at
depth 0 is the last tag that can. -/
def ownAmong (sought : Tag) : Nat → List (Nat × Tag) → Option Nat
  | _, [] => none
  | depth, (_, .opening) :: rest => ownAmong sought (depth + 1) rest
  | 0, (offset, .closing) :: _ => if sought = .closing then some offset else none
  | depth + 1, (_, .closing) :: rest => ownAmong sought depth rest
  | 0, (offset, .alternative) :: rest =>
    if sought = .alternative then some offset else ownAmong sought 0 rest
  | depth + 1, (_, .alternative) :: rest => ownAmong sought (depth + 1) rest

theorem ownAmong_closing (depth : Nat) (tags : List (Nat × Tag)) :
    ownAmong .closing depth tags = closerAmong depth tags := by
  fun_induction closerAmong depth tags with
  | case1 => rfl
  | case2 _ _ _ ih | case4 _ _ _ ih => rw [ownAmong, ih]
  | case3 => rfl
  | case5 depth _ _ ih => cases depth <;> simp [ownAmong, ih]

theorem mem_of_ownAmong {sought : Tag} {depth found : Nat} {tags : List (Nat × Tag)}
    (h : ownAmong sought depth tags = some found) : (found, sought) ∈ tags := by
  fun_induction ownAmong sought depth tags with
  | case1 => cases h
  | case3 offset rest hSought =>
    cases h
    exact hSought ▸ List.mem_cons_self
  | case4 => cases h
  | case6 offset rest hSought =>
    cases h
    exact hSought ▸ List.mem_cons_self
  | case2 _ _ _ ih | case5 _ _ _ ih | case7 _ _ _ ih | case8 _ _ _ ih =>
    exact List.mem_cons_of_mem _ (ih h)

/-- Tags behind a tag are not found at its offset. -/
theorem ownAmong_ne {sought tag : Tag} {depth offset : Nat} {rest : List (Nat × Tag)}
    (hTags : ((offset, tag) :: rest).Pairwise (·.1 < ·.1)) :
    ownAmong sought depth rest ≠ some offset := by
  intro h
  have hlt := (List.pairwise_cons.mp hTags).1 _ (mem_of_ownAmong h)
  exact Nat.lt_irrefl offset hlt

/-- A tag that is found is found at one depth. -/
theorem depth_eq_of_ownAmong {sought : Tag} {i j found : Nat} {tags : List (Nat × Tag)}
    (hTags : tags.Pairwise (·.1 < ·.1)) (hi : ownAmong sought i tags = some found)
    (hj : ownAmong sought j tags = some found) : i = j := by
  induction tags generalizing i j with
  | nil => cases hi
  | cons first rest ih =>
    obtain ⟨offset, tag⟩ := first
    have hne (depth : Nat) : ownAmong sought depth rest ≠ some offset := ownAmong_ne hTags
    have ih {i j : Nat} := @ih i j (List.pairwise_cons.mp hTags).2
    cases tag with
    | opening => exact Nat.succ.inj (ih hi hj)
    | closing => cases i <;> cases j <;> grind [ownAmong]
    | alternative => cases i <;> cases j <;> grind [ownAmong]

/-- Up to its closer, a directive owns the `else` tag that divides its body. -/
theorem ownAmong_alternative {depth closed : Nat} {body rest : List (Nat × Tag)}
    (hTags : (body ++ (closed, .closing) :: rest).Pairwise (·.1 < ·.1))
    (h : closerAmong depth (body ++ (closed, .closing) :: rest) = some closed) :
    ownAmong .alternative depth (body ++ (closed, .closing) :: rest) = dividerAmong depth body := by
  induction body generalizing depth with
  | nil =>
    cases depth with
    | zero => rfl
    | succ depth =>
      rw [List.nil_append, closerAmong, ← ownAmong_closing] at h
      exact absurd h (ownAmong_ne hTags)
  | cons first body ih =>
    obtain ⟨offset, tag⟩ := first
    obtain ⟨hBehind, hTags⟩ := List.pairwise_cons.mp hTags
    have hne : offset ≠ closed := Nat.ne_of_lt (hBehind (closed, .closing) (by simp))
    have ih {depth : Nat} := @ih depth hTags
    cases tag <;> cases depth <;> simp_all [ownAmong, closerAmong, dividerAmong]

/-- A search that finds a tag far on goes on, at some depth, in the tags up to there. -/
theorem exists_ownAmong_of_suffix {sought : Tag} {depth found : Nat} {tail tags : List (Nat × Tag)}
    (hTags : tags.Pairwise (·.1 < ·.1)) (hSuffix : tail <:+ tags) (hMem : (found, sought) ∈ tail)
    (h : ownAmong sought depth tags = some found) :
    ∃ depth', ownAmong sought depth' tail = some found := by
  induction tags generalizing depth with
  | nil => cases h
  | cons first rest ih =>
    rcases List.suffix_cons_iff.mp hSuffix with rfl | hRest
    · exact ⟨depth, h⟩
    · obtain ⟨offset, tag⟩ := first
      obtain ⟨hBehind, hTags⟩ := List.pairwise_cons.mp hTags
      have hne : offset ≠ found := Nat.ne_of_lt (hBehind _ (hRest.subset hMem))
      have ih {depth : Nat} := @ih depth hTags hRest
      cases tag <;> cases depth <;> grind [ownAmong]

/-- A directive does not own a tag of a directive inside it. -/
theorem ownAmong_ne_of_suffix {sought : Tag} {inner found : Nat} {rest tags : List (Nat × Tag)}
    (hTags : tags.Pairwise (·.1 < ·.1)) (hSuffix : (inner, .opening) :: rest <:+ tags)
    (hInner : ownAmong sought 0 rest = some found) : ownAmong sought 0 tags ≠ some found := by
  intro hOuter
  have hMem : (found, sought) ∈ (inner, .opening) :: rest :=
    List.mem_cons_of_mem _ (mem_of_ownAmong hInner)
  obtain ⟨depth, hDepth⟩ := exists_ownAmong_of_suffix hTags hSuffix hMem hOuter
  rw [ownAmong] at hDepth
  have hRest := (List.pairwise_cons.mp (hTags.sublist hSuffix.sublist)).2
  exact Nat.succ_ne_zero depth (depth_eq_of_ownAmong hRest hDepth hInner)

/-- **No tag is owned by two directives.** -/
theorem eq_of_ownAmong {sought : Tag} {o o' found : Nat} {rest rest' tags : List (Nat × Tag)}
    (hTags : tags.Pairwise (·.1 < ·.1)) (hSuffix : (o, .opening) :: rest <:+ tags)
    (hSuffix' : (o', .opening) :: rest' <:+ tags) (h : ownAmong sought 0 rest = some found)
    (h' : ownAmong sought 0 rest' = some found) : o = o' := by
  have hRest := (List.pairwise_cons.mp (hTags.sublist hSuffix.sublist)).2
  have hRest' := (List.pairwise_cons.mp (hTags.sublist hSuffix'.sublist)).2
  rcases List.suffix_or_suffix_of_suffix hSuffix hSuffix' with hInner | hInner
  · rcases List.suffix_cons_iff.mp hInner with hSame | hInner
    · exact congrArg Prod.fst (List.cons.inj hSame).1
    · exact absurd h' (ownAmong_ne_of_suffix hRest' hInner h)
  · rcases List.suffix_cons_iff.mp hInner with hSame | hInner
    · exact (congrArg Prod.fst (List.cons.inj hSame).1).symm
    · exact absurd h (ownAmong_ne_of_suffix hRest hInner h')

/-! ### Seen from the open directives -/

/-- What can be said of a directive in front of tags, so many others being open inside it. -/
abbrev Prospect := OpenDirective → Nat → List (Nat × Tag) → Prop

/-- Whether something holds of a directive that is open in front of tags, or of one that they
open. -/
def OfSome (P : Prospect) (opens : List OpenDirective) (tags : List (Nat × Tag)) : Prop :=
  (∃ depth d, opens[depth]? = some d ∧ P d depth tags) ∨
    ∃ offset rest, (offset, .opening) :: rest <:+ tags ∧ P ⟨offset, false⟩ 0 rest

/-- Whether what is said of a directive goes through tags as the directives are nested: it hangs on
tags outside all others inside the directive, which it may take for its own. -/
structure FollowsNesting (P : Prospect) (Takes : OpenDirective → Nat → Tag → Prop) : Prop where
  /-- An opener puts a directive inside. -/
  opening (d : OpenDirective) (depth offset : Nat) (rest : List (Nat × Tag)) :
    P d depth ((offset, .opening) :: rest) ↔ P d (depth + 1) rest
  /-- A closer ends the innermost directive inside. -/
  closing (d : OpenDirective) (depth offset : Nat) (rest : List (Nat × Tag)) :
    P d (depth + 1) ((offset, .closing) :: rest) ↔ P d depth rest
  /-- An `else` tag belongs to a directive inside. -/
  alternative (d : OpenDirective) (depth offset : Nat) (rest : List (Nat × Tag)) :
    P d (depth + 1) ((offset, .alternative) :: rest) ↔ P d (depth + 1) rest
  /-- With nothing inside, a closer ends the directive. -/
  ended (d : OpenDirective) (offset : Nat) (rest : List (Nat × Tag)) :
    P d 0 ((offset, .closing) :: rest) ↔ Takes d offset .closing
  /-- With nothing inside, an `else` tag divides the directive if it is not divided yet. -/
  divided (d : OpenDirective) (offset : Nat) (rest : List (Nat × Tag)) :
    P d 0 ((offset, .alternative) :: rest) ↔
      Takes d offset .alternative ∨ P ⟨d.offset, true⟩ 0 rest
  /-- An opener belongs to no directive around it. -/
  not_opening (d : OpenDirective) (offset : Nat) : ¬Takes d offset .opening

theorem exists_getElem?_cons {α : Type} {a : α} {l : List α} {Q : Nat → α → Prop} :
    (∃ i x, (a :: l)[i]? = some x ∧ Q i x) ↔ Q 0 a ∨ ∃ i x, l[i]? = some x ∧ Q (i + 1) x := by
  constructor
  · rintro ⟨i, x, hx, hQ⟩
    cases i with
    | zero => exact .inl (Option.some.inj hx ▸ hQ)
    | succ i => exact .inr ⟨i, x, hx, hQ⟩
  · rintro (hQ | ⟨i, x, hx, hQ⟩)
    · exact ⟨0, a, rfl, hQ⟩
    · exact ⟨i + 1, x, hx, hQ⟩

/-- The directives that tags open are those of the first tag and those of the others. -/
theorem exists_suffix_cons {Q : Nat → List (Nat × Tag) → Prop} {offset : Nat} {tag : Tag}
    {rest : List (Nat × Tag)} :
    (∃ o tail, (o, .opening) :: tail <:+ (offset, tag) :: rest ∧ Q o tail) ↔
      (tag = .opening ∧ Q offset rest) ∨ ∃ o tail, (o, .opening) :: tail <:+ rest ∧ Q o tail := by
  simp only [List.suffix_cons_iff, List.cons.injEq, Prod.mk.injEq]
  grind

namespace FollowsNesting

variable {P : Prospect} {Takes : OpenDirective → Nat → Tag → Prop}

/-- **A tag is taken by the innermost directive that is open, or nothing has happened but what
`nest` does to the open directives.** -/
theorem ofSome_cons (h : FollowsNesting P Takes) (offset : Nat) (tag : Tag)
    (rest : List (Nat × Tag)) (opens : List OpenDirective) :
    OfSome P opens ((offset, tag) :: rest) ↔
      (∃ d ∈ opens.head?, Takes d offset tag) ∨ OfSome P (nest offset tag opens).2 rest := by
  cases tag with
  | opening =>
    simp only [OfSome, nest, exists_suffix_cons, exists_getElem?_cons, h.opening, h.not_opening]
    grind
  | closing =>
    cases opens with
    | nil => simp [OfSome, nest, exists_suffix_cons]
    | cons d opens =>
      simp [OfSome, nest, exists_suffix_cons, exists_getElem?_cons, h.closing, h.ended, or_assoc]
  | alternative =>
    cases opens with
    | nil => simp [OfSome, nest, exists_suffix_cons]
    | cons d opens =>
      obtain ⟨o, seen⟩ := d
      cases seen <;>
        simp [OfSome, nest, exists_suffix_cons, exists_getElem?_cons, h.alternative, h.divided,
          or_assoc]

end FollowsNesting

/-- A directive stays open if nothing closes it. -/
def StaysOpen (offset : Nat) : Prospect := fun d depth tags =>
  d.offset = offset ∧ closerAmong depth tags = none

/-- A directive owns the tag that is found for it; an `else` tag only if it is the first one. -/
def Owns (sought : Tag) (found : Nat) : Prospect := fun d depth tags =>
  (sought = .alternative → d.elseSeen = false) ∧ ownAmong sought depth tags = some found

theorem followsNesting_staysOpen (offset : Nat) :
    FollowsNesting (StaysOpen offset) fun _ _ _ => False where
  opening _ _ _ _ := Iff.rfl
  closing _ _ _ _ := Iff.rfl
  alternative _ _ _ _ := Iff.rfl
  ended _ _ _ := by simp [StaysOpen, closerAmong]
  divided _ _ _ := by simp [StaysOpen, closerAmong]
  not_opening _ _ := id

theorem followsNesting_owns {sought : Tag} (hSought : sought ≠ .opening) (found : Nat) :
    FollowsNesting (Owns sought found) fun d offset tag =>
      tag = sought ∧ offset = found ∧ (sought = .alternative → d.elseSeen = false) where
  opening _ _ _ _ := Iff.rfl
  closing _ _ _ _ := Iff.rfl
  alternative _ _ _ _ := Iff.rfl
  ended _ _ _ := by
    cases sought <;> simp_all [Owns, ownAmong]
  divided _ _ _ := by
    cases sought <;> simp_all [Owns, ownAmong, and_comm]
  not_opening _ _ h := hSought h.1.symm

theorem mem_of_ofSome_owns {sought : Tag} {found : Nat} {opens : List OpenDirective}
    {tags : List (Nat × Tag)} (h : OfSome (Owns sought found) opens tags) :
    (found, sought) ∈ tags := by
  obtain ⟨_, _, _, _, hFound⟩ | ⟨_, _, hSuffix, _, hFound⟩ := h
  · exact mem_of_ownAmong hFound
  · exact hSuffix.subset (List.mem_cons_of_mem _ (mem_of_ownAmong hFound))

/-! ### Problems of nesting -/

/-- The problems of tags in order, without those of the conditions. -/
def nestingProblems : List (Nat × Tag) → List OpenDirective → List (Nat × Problem)
  | [], opens => opens.reverse.map fun d => (d.offset, .unterminatedIf)
  | (offset, tag) :: rest, opens =>
    (nest offset tag opens).1.toList.map (offset, ·) ++
      nestingProblems rest (nest offset tag opens).2

/-- The tag that a problem says is out of place. -/
def Problem.strayTag? : Problem → Option Tag
  | orphanElse | duplicateElse => some .alternative
  | orphanEndif => some .closing
  | _ => none

/-- A tag is out of place just when no directive takes it. -/
theorem strayTag?_nest {sought tag : Tag} (hSought : sought ≠ .opening) (offset found : Nat)
    (opens : List OpenDirective) :
    (∃ p, (nest offset tag opens).1 = some p ∧ offset = found ∧ p.strayTag? = some sought) ↔
      tag = sought ∧ offset = found ∧
        ¬∃ d ∈ opens.head?, tag = sought ∧ offset = found ∧
          (sought = .alternative → d.elseSeen = false) := by
  cases tag with
  | opening => simp [nest, hSought.symm]
  | closing => cases opens <;> cases sought <;> simp_all [nest, Problem.strayTag?]
  | alternative =>
    cases opens with
    | nil => cases sought <;> simp_all [nest, Problem.strayTag?]
    | cons d opens =>
      obtain ⟨o, seen⟩ := d
      cases seen <;> cases sought <;> simp_all [nest, Problem.strayTag?]

theorem mem_nestingProblems_cons {offset found : Nat} {tag : Tag} {rest : List (Nat × Tag)}
    {opens : List OpenDirective} {p : Problem} :
    (found, p) ∈ nestingProblems ((offset, tag) :: rest) opens ↔
      ((nest offset tag opens).1 = some p ∧ offset = found) ∨
        (found, p) ∈ nestingProblems rest (nest offset tag opens).2 := by
  simp [nestingProblems]

/-- Each problem has an offset of its own, that of an open directive or of a tag. -/
theorem count_nestingProblems_le (found : Nat) (tags : List (Nat × Tag))
    (opens : List OpenDirective) :
    ((nestingProblems tags opens).map Prod.fst).count found ≤
      (opens.map OpenDirective.offset).count found + (tags.map Prod.fst).count found := by
  induction tags generalizing opens with
  | nil => simp [nestingProblems, Function.comp_def, List.map_reverse]
  | cons first rest ih =>
    obtain ⟨offset, tag⟩ := first
    have hRest := ih (nest offset tag opens).2
    cases tag with
    | opening => grind [nestingProblems, nest]
    | closing => cases opens <;> grind [nestingProblems, nest]
    | alternative => cases opens <;> grind [nestingProblems, nest]

theorem nodup_offsets {tags : List (Nat × Tag)} (hTags : tags.Pairwise (·.1 < ·.1)) :
    (tags.map Prod.fst).Nodup := by
  rw [List.nodup_iff_pairwise_ne, List.pairwise_map]
  exact hTags.imp Nat.ne_of_lt

theorem nodup_nestingProblems {tags : List (Nat × Tag)} (hTags : tags.Pairwise (·.1 < ·.1)) :
    ((nestingProblems tags []).map Prod.fst).Nodup := by
  have hNodup := nodup_offsets hTags
  rw [List.nodup_iff_count] at hNodup ⊢
  intro found
  have hCount := count_nestingProblems_le found tags []
  exact Nat.le_trans hCount (by simpa using hNodup found)

/-- **A directive stays open to the end if no closing tag is found for it.** -/
theorem mem_nestingProblems_unterminated {found : Nat} {tags : List (Nat × Tag)}
    {opens : List OpenDirective} :
    (found, .unterminatedIf) ∈ nestingProblems tags opens ↔ OfSome (StaysOpen found) opens tags := by
  induction tags generalizing opens with
  | nil =>
    have hOpens : (∃ d ∈ opens, d.offset = found) ↔
        ∃ (depth : Nat) (d : OpenDirective), opens[depth]? = some d ∧ d.offset = found := by
      constructor
      · rintro ⟨d, hd, h⟩
        obtain ⟨depth, hDepth⟩ := List.mem_iff_getElem?.mp hd
        exact ⟨depth, d, hDepth, h⟩
      · rintro ⟨depth, d, hDepth, h⟩
        exact ⟨d, List.mem_of_getElem? hDepth, h⟩
    simpa [nestingProblems, OfSome, StaysOpen, closerAmong] using hOpens
  | cons first rest ih =>
    obtain ⟨offset, tag⟩ := first
    have hNest : (nest offset tag opens).1 ≠ some .unterminatedIf := by
      cases tag <;> cases opens <;> grind [nest]
    rw [mem_nestingProblems_cons, (followsNesting_staysOpen found).ofSome_cons, ih]
    simp [hNest]

/-- **A tag is out of place if it is found for no directive.** -/
theorem exists_stray_iff {sought : Tag} (hSought : sought ≠ .opening) {found : Nat}
    {tags : List (Nat × Tag)} (hTags : tags.Pairwise (·.1 < ·.1)) {opens : List OpenDirective} :
    (∃ p, (found, p) ∈ nestingProblems tags opens ∧ p.strayTag? = some sought) ↔
      (found, sought) ∈ tags ∧ ¬OfSome (Owns sought found) opens tags := by
  induction tags generalizing opens with
  | nil =>
    have hNone (p : Problem) : (found, p) ∈ nestingProblems [] opens → p = .unterminatedIf := by
      simp only [nestingProblems, List.mem_map, Prod.mk.injEq]
      grind
    simp
    grind [Problem.strayTag?]
  | cons first rest ih =>
    obtain ⟨offset, tag⟩ := first
    have hFirst := @strayTag?_nest sought tag hSought offset found opens
    obtain ⟨hBehind, hRest⟩ := List.pairwise_cons.mp hTags
    have hne : (found, sought) ∈ rest → offset ≠ found := fun h => Nat.ne_of_lt (hBehind _ h)
    have hMem := @mem_of_ofSome_owns sought found (nest offset tag opens).2 rest
    rw [(followsNesting_owns hSought found).ofSome_cons, List.mem_cons, Prod.mk.injEq]
    simp only [mem_nestingProblems_cons, or_and_right, exists_or, ih hRest, and_assoc, hFirst]
    grind

end Template

end SqlTemplate
