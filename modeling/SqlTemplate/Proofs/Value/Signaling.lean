import SqlTemplate.Proofs.Value.Writable
import SqlTemplate.Value.Equality

/-!
# Comparisons that a NaN stops

Collections are compared up to the first items that tell, so a signaling NaN stops a comparison only
where it is reached: it is one of two numbers that are compared, or all items that are compared
before it agree, or differ where one that agrees is looked for (`MeetsSignaling`). **These are all
the comparisons that are stopped** (`exists_equals_eq_error_iff`).
-/

namespace SqlTemplate

namespace Number

/-- Two numbers cannot be compared just if one of them is a NaN that stops every operation. -/
theorem exists_equals_eq_error_iff (m n : Number) :
    (∃ signal, m.equals n = .error signal) ↔ m.isSignaling ∨ n.isSignaling := by
  rw [equals, ← Bool.or_eq_true]
  split
  next h => exact iff_of_true ⟨_, rfl⟩ h
  next h =>
    refine iff_of_false ?_ h
    split <;> exact not_exists_ok_eq_error

end Number

namespace Value

/-! ### Scans -/

section

variable {α : Type} {test : α → Except Signal Bool} {go : Bool}

/-- Whether a scan that goes on as long as a test gives `go` comes to an item. -/
def ScanReaches (test : α → Except Signal Bool) (go : Bool) (items : List α) (x : α) : Prop :=
  ∃ before after, items = before ++ x :: after ∧ ∀ z ∈ before, test z = .ok go

/-- Whether it comes to an item that cannot be tested. -/
def ScanStops (test : α → Except Signal Bool) (go : Bool) (items : List α) : Prop :=
  ∃ x, ScanReaches test go items x ∧ ∃ signal, test x = .error signal

theorem ScanReaches.mem {items : List α} {x : α} (h : ScanReaches test go items x) : x ∈ items := by
  obtain ⟨before, after, rfl, -⟩ := h
  exact List.mem_append_right before List.mem_cons_self

theorem not_scanStops_nil : ¬ScanStops test go [] := by
  rintro ⟨_, h, -⟩
  exact List.not_mem_nil h.mem

/-- A scan is stopped by the first item, or it goes on and is stopped later. -/
theorem scanStops_cons_iff (x : α) (items : List α) :
    ScanStops test go (x :: items) ↔
      (∃ signal, test x = .error signal) ∨ (test x = .ok go ∧ ScanStops test go items) := by
  constructor
  · rintro ⟨y, ⟨before, after, hItems, hBefore⟩, hStop⟩
    cases before with
    | nil =>
      cases hItems
      exact .inl hStop
    | cons z before =>
      cases hItems
      rw [List.forall_mem_cons] at hBefore
      exact .inr ⟨hBefore.1, y, ⟨before, after, rfl, hBefore.2⟩, hStop⟩
  · rintro (hStop | ⟨hGo, y, ⟨before, after, rfl, hBefore⟩, hStop⟩)
    · exact ⟨x, ⟨[], items, rfl, List.forall_mem_nil _⟩, hStop⟩
    · exact ⟨y, ⟨x :: before, after, rfl, List.forall_mem_cons.mpr ⟨hGo, hBefore⟩⟩, hStop⟩

/-- A step of a scan: the test, and what comes next if the test gives `go`. -/
theorem exists_scan_eq_error_iff {β : Type} {x : Except Signal Bool} {next : Bool → Except Signal β}
    {P : Prop} (hNext : (∃ signal, next go = .error signal) ↔ P)
    (hLast : ∃ b, next (!go) = .ok b) :
    (∃ signal, x >>= next = .error signal) ↔
      (∃ signal, x = .error signal) ∨ (x = .ok go ∧ P) := by
  rw [← hNext]
  cases x with
  | error signal => exact iff_of_true ⟨signal, rfl⟩ (.inl ⟨signal, rfl⟩)
  | ok b =>
    rw [or_iff_right not_exists_ok_eq_error]
    by_cases hGo : b = go
    · subst hGo
      exact (and_iff_right rfl).symm
    · obtain ⟨r, hr⟩ := hLast
      obtain rfl : b = !go := Bool.eq_not.mpr hGo
      refine iff_of_false ?_ fun h => hGo (Except.ok.inj h.1)
      rintro ⟨signal, h⟩
      cases hr.symm.trans h

theorem exists_anyM_eq_error_iff (items : List α) :
    (∃ signal, items.anyM test = .error signal) ↔ ScanStops test false items := by
  induction items with
  | nil => exact iff_of_false not_exists_ok_eq_error not_scanStops_nil
  | cons x items ih =>
    rw [scanStops_cons_iff, List.anyM]
    exact exists_scan_eq_error_iff ih ⟨true, rfl⟩

theorem exists_findEntry_eq_error_iff {test : Value → Except Signal Bool}
    (entries : List (Value × Value)) :
    (∃ signal, findEntry test entries = .error signal) ↔
      ScanStops (fun entry => test entry.1) false entries := by
  induction entries with
  | nil => exact iff_of_false not_exists_ok_eq_error not_scanStops_nil
  | cons entry entries ih =>
    rw [scanStops_cons_iff, findEntry]
    exact exists_scan_eq_error_iff ih ⟨some entry.2, rfl⟩

end

/-! ### Items -/

/-- Whether two items agree. -/
def agrees (a b : Value) : Except Signal Bool := itemEquals a b (equals a b)

/-- Whether two items are one and the same NaN, which is not compared. -/
def SameNaN (a b : Value) : Prop := ∃ label, a.nanLabel? = some label ∧ b.nanLabel? = some label

theorem agrees_of_sameNaN {a b : Value} (h : SameNaN a b) : agrees a b = .ok true := by
  obtain ⟨label, ha, hb⟩ := h
  rw [agrees, itemEquals, ha, hb]
  exact if_pos rfl

theorem agrees_of_not_sameNaN {a b : Value} (h : ¬SameNaN a b) : agrees a b = equals a b := by
  rw [agrees, itemEquals]
  split
  next l m hl hm => exact if_neg fun hSame : l = m => h ⟨l, hl, hSame ▸ hm⟩
  next => rfl

theorem exists_agrees_eq_error_iff (a b : Value) :
    (∃ signal, agrees a b = .error signal) ↔
      ¬SameNaN a b ∧ ∃ signal, equals a b = .error signal := by
  by_cases h : SameNaN a b
  · rw [agrees_of_sameNaN h]
    exact iff_of_false not_exists_ok_eq_error fun hOther => hOther.1 h
  · rw [agrees_of_not_sameNaN h, and_iff_right h]

/-- Whether an entry of a dictionary agrees with one of another. -/
def entryAgrees (entries : List (Value × Value)) (entry : Value × Value) : Except Signal Bool := do
  match ← findEntry (agrees entry.1) entries with
  | none => return false
  | some w => agrees entry.2 w

theorem exists_itemsEqual_eq_error_iff (xs ys : List Value) :
    (∃ signal, itemsEqual xs ys = .error signal) ↔
      ScanStops (fun pair => agrees pair.1 pair.2) true (xs.zip ys) := by
  induction xs generalizing ys with
  | nil =>
    rw [List.zip_nil_left]
    refine iff_of_false ?_ not_scanStops_nil
    cases ys with
    | nil | cons =>
      unfold itemsEqual
      exact not_exists_ok_eq_error
  | cons x xs ih =>
    cases ys with
    | nil =>
      unfold itemsEqual
      exact iff_of_false not_exists_ok_eq_error not_scanStops_nil
    | cons y ys =>
      rw [List.zip_cons_cons, scanStops_cons_iff, itemsEqual]
      exact exists_scan_eq_error_iff (ih ys) ⟨false, rfl⟩

theorem exists_itemsIn_eq_error_iff (xs ys : List Value) :
    (∃ signal, itemsIn xs ys = .error signal) ↔
      ScanStops (fun x => ys.anyM (agrees x)) true xs := by
  induction xs with
  | nil =>
    rw [itemsIn]
    exact iff_of_false not_exists_ok_eq_error not_scanStops_nil
  | cons x xs ih =>
    rw [scanStops_cons_iff, itemsIn]
    exact exists_scan_eq_error_iff ih ⟨false, rfl⟩

theorem entriesIn_cons (entry : Value × Value) (xs ys : List (Value × Value)) :
    entriesIn (entry :: xs) ys = do
      if ← entryAgrees ys entry then entriesIn xs ys else return false := by
  obtain ⟨k, v⟩ := entry
  rw [entriesIn, entryAgrees]
  change (findEntry (agrees k) ys >>= _) = _
  cases findEntry (agrees k) ys with
  | error signal => rfl
  | ok found => cases found <;> rfl

theorem exists_entriesIn_eq_error_iff (xs ys : List (Value × Value)) :
    (∃ signal, entriesIn xs ys = .error signal) ↔ ScanStops (entryAgrees ys) true xs := by
  induction xs with
  | nil =>
    rw [entriesIn]
    exact iff_of_false not_exists_ok_eq_error not_scanStops_nil
  | cons entry xs ih =>
    rw [scanStops_cons_iff, entriesIn_cons]
    exact exists_scan_eq_error_iff ih ⟨false, rfl⟩

/-- An entry is compared by looking for its key, and then by the values. -/
theorem exists_entryAgrees_eq_error_iff (entries : List (Value × Value)) (entry : Value × Value) :
    (∃ signal, entryAgrees entries entry = .error signal) ↔
      ScanStops (fun other => agrees entry.1 other.1) false entries ∨
      ∃ w, findEntry (agrees entry.1) entries = .ok (some w) ∧
        ∃ signal, agrees entry.2 w = .error signal := by
  rw [← exists_findEntry_eq_error_iff, entryAgrees]
  cases findEntry (agrees entry.1) entries with
  | error signal => exact iff_of_true ⟨signal, rfl⟩ (.inl ⟨signal, rfl⟩)
  | ok found =>
    rw [or_iff_right not_exists_ok_eq_error]
    cases found with
    | none =>
      refine iff_of_false not_exists_ok_eq_error ?_
      rintro ⟨_, h, -⟩
      cases h
    | some w =>
      refine ⟨fun h => ⟨w, rfl, h⟩, ?_⟩
      rintro ⟨_, hFound, h⟩
      cases hFound
      exact h

/-! ### Values -/

/-- Whether the comparison of two values comes to a signaling NaN. -/
inductive MeetsSignaling : Value → Value → Prop where
  /-- One of two numbers is such a NaN. -/
  | numbers {a b : Value} {m n : Number} : a.numeric? = some m → b.numeric? = some n →
    m.isSignaling ∨ n.isSignaling → MeetsSignaling a b
  /-- In lists of one length, behind items that agree. -/
  | list {xs ys : List Value} {x y : Value} : xs.length = ys.length →
    ScanReaches (fun pair => agrees pair.1 pair.2) true (xs.zip ys) (x, y) →
    ¬SameNaN x y → MeetsSignaling x y → MeetsSignaling (list xs) (list ys)
  /-- In tuples, behind items that agree. -/
  | tuple {xs ys : List Value} {x y : Value} :
    ScanReaches (fun pair => agrees pair.1 pair.2) true (xs.zip ys) (x, y) →
    ¬SameNaN x y → MeetsSignaling x y → MeetsSignaling (tuple xs) (tuple ys)
  /-- In sets of one size, when an item is looked for. -/
  | set {frozen frozen' : Bool} {xs ys : List Value} {x y : Value} : xs.length = ys.length →
    ScanReaches (fun x => ys.anyM (agrees x)) true xs x → ScanReaches (agrees x) false ys y →
    ¬SameNaN x y → MeetsSignaling x y → MeetsSignaling (set frozen xs) (set frozen' ys)
  /-- In dictionaries of one size, when a key is looked for. -/
  | key {xs ys : List (Value × Value)} {entry other : Value × Value} : xs.length = ys.length →
    ScanReaches (entryAgrees ys) true xs entry →
    ScanReaches (fun other => agrees entry.1 other.1) false ys other →
    ¬SameNaN entry.1 other.1 → MeetsSignaling entry.1 other.1 →
    MeetsSignaling (dict xs) (dict ys)
  /-- In dictionaries of one size, when the values of a key are compared. -/
  | value {xs ys : List (Value × Value)} {entry : Value × Value} {w : Value} :
    xs.length = ys.length → ScanReaches (entryAgrees ys) true xs entry →
    findEntry (agrees entry.1) ys = .ok (some w) →
    ¬SameNaN entry.2 w → MeetsSignaling entry.2 w → MeetsSignaling (dict xs) (dict ys)

/-- What counts as a number is compared as one. -/
theorem equals_of_numeric? {a b : Value} {m : Number} (h : a.numeric? = some m) :
    equals a b = atomEquals a b := by
  unfold equals
  split <;> first | rfl | cases h

/-- A comparison that comes to a signaling NaN is stopped. -/
theorem MeetsSignaling.exists_equals_eq_error {a b : Value} (h : MeetsSignaling a b) :
    ∃ signal, equals a b = .error signal := by
  induction h with
  | @numbers a b m n ha hb hSignaling =>
    rw [equals_of_numeric? ha]
    unfold atomEquals
    rw [ha, hb]
    exact (Number.exists_equals_eq_error_iff m n).mpr hSignaling
  | list hLength hReached hOther _ ih =>
    rw [equals, if_pos hLength, exists_itemsEqual_eq_error_iff]
    exact ⟨_, hReached, (exists_agrees_eq_error_iff _ _).mpr ⟨hOther, ih⟩⟩
  | tuple hReached hOther _ ih =>
    rw [equals, exists_itemsEqual_eq_error_iff]
    exact ⟨_, hReached, (exists_agrees_eq_error_iff _ _).mpr ⟨hOther, ih⟩⟩
  | set hLength hReached hCompared hOther _ ih =>
    rw [equals, if_pos hLength, exists_itemsIn_eq_error_iff]
    exact ⟨_, hReached, (exists_anyM_eq_error_iff _).mpr
      ⟨_, hCompared, (exists_agrees_eq_error_iff _ _).mpr ⟨hOther, ih⟩⟩⟩
  | key hLength hReached hCompared hOther _ ih =>
    rw [equals, if_pos hLength, exists_entriesIn_eq_error_iff]
    exact ⟨_, hReached, (exists_entryAgrees_eq_error_iff _ _).mpr
      (.inl ⟨_, hCompared, (exists_agrees_eq_error_iff _ _).mpr ⟨hOther, ih⟩⟩)⟩
  | value hLength hReached hFound hOther _ ih =>
    rw [equals, if_pos hLength, exists_entriesIn_eq_error_iff]
    exact ⟨_, hReached, (exists_entryAgrees_eq_error_iff _ _).mpr
      (.inr ⟨_, hFound, (exists_agrees_eq_error_iff _ _).mpr ⟨hOther, ih⟩⟩)⟩

/-- Values that are no collections are stopped as numbers only. -/
theorem meetsSignaling_of_atomEquals {a b : Value} {signal : Signal}
    (h : atomEquals a b = .error signal) : MeetsSignaling a b := by
  unfold atomEquals at h
  split at h
  next m n ha hb => exact .numbers ha hb ((Number.exists_equals_eq_error_iff m n).mp ⟨_, h⟩)
  next => split at h <;> first | cases h | (split at h <;> cases h)

/-- A comparison that is stopped has come to a signaling NaN. -/
theorem meetsSignaling_of_equals {a b : Value} {signal : Signal}
    (h : equals a b = .error signal) : MeetsSignaling a b := by
  unfold equals at h
  -- The recursion is on what the first collection holds, which is why each case says `hMem`.
  split at h
  next xs ys =>
    split at h
    next hLength =>
      obtain ⟨⟨x, y⟩, hReached, hAgrees⟩ := (exists_itemsEqual_eq_error_iff xs ys).mp ⟨_, h⟩
      obtain ⟨hOther, _, hEquals⟩ := (exists_agrees_eq_error_iff x y).mp hAgrees
      have hMem := (List.of_mem_zip hReached.mem).1
      exact .list hLength hReached hOther (meetsSignaling_of_equals hEquals)
    next => cases h
  next xs ys =>
    obtain ⟨⟨x, y⟩, hReached, hAgrees⟩ := (exists_itemsEqual_eq_error_iff xs ys).mp ⟨_, h⟩
    obtain ⟨hOther, _, hEquals⟩ := (exists_agrees_eq_error_iff x y).mp hAgrees
    have hMem := (List.of_mem_zip hReached.mem).1
    exact .tuple hReached hOther (meetsSignaling_of_equals hEquals)
  next xs _ ys =>
    split at h
    next hLength =>
      obtain ⟨x, hReached, hAny⟩ := (exists_itemsIn_eq_error_iff xs ys).mp ⟨_, h⟩
      obtain ⟨y, hCompared, hAgrees⟩ := (exists_anyM_eq_error_iff ys).mp hAny
      obtain ⟨hOther, _, hEquals⟩ := (exists_agrees_eq_error_iff x y).mp hAgrees
      have hMem := hReached.mem
      exact .set hLength hReached hCompared hOther (meetsSignaling_of_equals hEquals)
    next => cases h
  next xs ys =>
    split at h
    next hLength =>
      obtain ⟨⟨k, v⟩, hReached, hEntry⟩ := (exists_entriesIn_eq_error_iff xs ys).mp ⟨_, h⟩
      have hMem := hReached.mem
      rcases (exists_entryAgrees_eq_error_iff ys (k, v)).mp hEntry with
        ⟨other, hCompared, hAgrees⟩ | ⟨w, hFound, hAgrees⟩
      · obtain ⟨hOther, _, hEquals⟩ := (exists_agrees_eq_error_iff k other.1).mp hAgrees
        exact .key hLength hReached hCompared hOther (meetsSignaling_of_equals hEquals)
      · obtain ⟨hOther, _, hEquals⟩ := (exists_agrees_eq_error_iff v w).mp hAgrees
        exact .value hLength hReached hFound hOther (meetsSignaling_of_equals hEquals)
    next => cases h
  next => exact meetsSignaling_of_atomEquals h
termination_by a
decreasing_by
  all_goals
    subst_vars
    have hSize := List.sizeOf_lt_of_mem hMem
    simp only [Value.list.sizeOf_spec, Value.tuple.sizeOf_spec, Value.set.sizeOf_spec,
      Value.dict.sizeOf_spec, Prod.mk.sizeOf_spec] at hSize ⊢
    omega

/-- **The comparison of two values is stopped if and only if it comes to a signaling NaN.** -/
theorem exists_equals_eq_error_iff (a b : Value) :
    (∃ signal, equals a b = .error signal) ↔ MeetsSignaling a b := by
  refine ⟨?_, MeetsSignaling.exists_equals_eq_error⟩
  rintro ⟨_, h⟩
  exact meetsSignaling_of_equals h

end Value

end SqlTemplate
