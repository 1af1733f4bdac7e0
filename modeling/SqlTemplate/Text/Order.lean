import SqlTemplate.Text.Search

/-!
# The order of texts

Texts are ordered by their characters from the left, characters by their numbers.
`Text.insertSorted` keeps a list of texts in strictly increasing order, so each text is in it
once (`Text.pairwise_sorted`).
-/

namespace SqlTemplate

namespace Text

/-- Whether the first text comes before the second. -/
def before : Text → Text → Bool
  | _, [] => false
  | [], _ :: _ => true
  | a :: s, b :: t => a.toNat < b.toNat || (a == b && before s t)

/-- The order of two texts. -/
def order (s t : Text) : Ordering := if before s t then .lt else if s = t then .eq else .gt

/-- The first characters decide, if they differ. -/
theorem order_cons_cons (c d : Char) (s t : Text) :
    order (c :: s) (d :: t) =
      if c.toNat < d.toNat then .lt else if c = d then order s t else .gt := by
  by_cases hlt : c.toNat < d.toNat
  · simp [order, before, hlt]
  · by_cases heq : c = d
    · simp [order, before, heq]
    · simp [order, before, hlt, heq]

/-- Exchanging two texts turns their order around. -/
theorem swap_order (s t : Text) : (order s t).swap = order t s := by
  induction s generalizing t with
  | nil => cases t <;> rfl
  | cons c s ih =>
    cases t with
    | nil => rfl
    | cons d t =>
      rw [order_cons_cons, order_cons_cons]
      rcases Nat.lt_trichotomy c.toNat d.toNat with hlt | heq | hgt
      · have hne : d ≠ c := by
          rintro rfl
          omega
        rw [if_pos hlt, if_neg (Nat.not_lt_of_lt hlt), if_neg hne, Ordering.swap_lt]
      · have hEq : c = d := Char.toNat_inj.mp heq
        simp [hEq, ih]
      · have hne : c ≠ d := by
          rintro rfl
          omega
        rw [if_neg (Nat.not_lt_of_lt hgt), if_neg hne, if_pos hgt, Ordering.swap_gt]

theorem before_self (s : Text) : before s s = false := by
  induction s with
  | nil => rfl
  | cons c s ih => simp [before, ih]

/-- Only equal texts have the same place. -/
theorem order_eq_eq_iff {s t : Text} : order s t = .eq ↔ s = t := by
  by_cases h : s = t
  · simp [order, h, before_self]
  · by_cases hBefore : before s t <;> simp [order, h, hBefore]

/-- What comes before a text comes before all that it comes before. -/
theorem before_trans {s t u : Text} (hst : before s t) (htu : before t u) : before s u := by
  induction s generalizing t u with
  | nil =>
    cases t with
    | nil => cases hst
    | cons d t =>
      cases u with
      | nil => cases htu
      | cons => rfl
  | cons c s ih =>
    cases t with
    | nil => cases hst
    | cons d t =>
      cases u with
      | nil => cases htu
      | cons e u =>
        simp only [before, Bool.or_eq_true, Bool.and_eq_true, decide_eq_true_eq,
          beq_iff_eq] at hst htu ⊢
        rcases hst with hlt | ⟨rfl, hst⟩
        · rcases htu with hlt' | ⟨rfl, -⟩
          · exact .inl (Nat.lt_trans hlt hlt')
          · exact .inl hlt
        · exact htu.imp_right fun htu => ⟨htu.1, ih hst htu.2⟩

/-- Of two texts that differ one comes before the other. -/
theorem before_of_ne {s t : Text} (hne : s ≠ t) (h : ¬before s t) : before t s := by
  have hOrder : order s t = .gt := by rw [order, if_neg h, if_neg hne]
  have hSwap := swap_order s t
  rw [hOrder, Ordering.swap_gt, order] at hSwap
  split at hSwap
  next hBefore => exact hBefore
  next => split at hSwap <;> cases hSwap

/-- Puts a text into an increasing list of texts, unless it is there. -/
def insertSorted (text : Text) : List Text → List Text
  | [] => [text]
  | t :: rest =>
    if before text t then text :: t :: rest
    else if text = t then t :: rest
    else t :: insertSorted text rest

/-- The texts of a list in increasing order, each once. -/
def sorted (texts : List Text) : List Text := texts.foldr insertSorted []

theorem mem_insertSorted {text t : Text} {texts : List Text} :
    t ∈ insertSorted text texts ↔ t = text ∨ t ∈ texts := by
  induction texts with
  | nil => simp [insertSorted]
  | cons first rest ih =>
    rw [insertSorted]
    split
    · exact List.mem_cons
    · split
      next hEq => simp [hEq]
      next => rw [List.mem_cons, ih, List.mem_cons, or_left_comm]

/-- Sorting keeps what is in a list. -/
theorem mem_sorted {t : Text} {texts : List Text} : t ∈ sorted texts ↔ t ∈ texts := by
  induction texts with
  | nil => rfl
  | cons first rest ih =>
    show t ∈ insertSorted first (sorted rest) ↔ _
    rw [mem_insertSorted, ih, List.mem_cons]

theorem pairwise_insertSorted {texts : List Text} (h : texts.Pairwise fun s t => before s t)
    (text : Text) : (insertSorted text texts).Pairwise fun s t => before s t := by
  induction texts with
  | nil => exact List.pairwise_singleton _ _
  | cons first rest ih =>
    obtain ⟨hFirst, hRest⟩ := List.pairwise_cons.mp h
    rw [insertSorted]
    split
    next hBefore =>
      refine List.pairwise_cons.mpr ⟨List.forall_mem_cons.mpr ⟨hBefore, fun t ht => ?_⟩, h⟩
      exact before_trans hBefore (hFirst t ht)
    next hNot =>
      split
      next => exact h
      next hne =>
        refine List.pairwise_cons.mpr ⟨fun t ht => ?_, ih hRest⟩
        rcases mem_insertSorted.mp ht with rfl | ht
        · exact before_of_ne hne hNot
        · exact hFirst t ht

/-- A sorted list increases, so no text is in it twice. -/
theorem pairwise_sorted (texts : List Text) : (sorted texts).Pairwise fun s t => before s t := by
  induction texts with
  | nil => exact List.Pairwise.nil
  | cons first rest ih => exact pairwise_insertSorted ih first

end Text

end SqlTemplate
