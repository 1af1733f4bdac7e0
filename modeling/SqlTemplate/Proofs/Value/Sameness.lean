import Mathlib.Data.List.Forall2
import SqlTemplate.Proofs.Number.Order
import SqlTemplate.Proofs.Value.Signaling

/-!
# What is the same to a collection

Collections tell their items apart by sameness (`Value.sameKey`): a NaN is the same as itself, and
all else as what it equals. Where no signaling NaN is among the values (`Value.IsProper`, of a value
and of all that is in it), this can always be told (`Value.agrees_eq_ok`), and it is then a matter
of what the values are made of: collections are the same if their items are, each of them in its
own way (`Value.sameKey_list_iff`, `Value.sameKey_set_iff`, `Value.sameKey_dict_iff`), and **all
other values if what counts in them is equal** (`Value.sameKey_atom_iff`).
-/

namespace SqlTemplate

namespace Value

/-! ### Values all through -/

/-- What a collection holds, a dictionary its keys and its values. -/
def parts : Value → List Value
  | list items => items
  | tuple items => items
  | set _ items => items
  | dict entries => entries.map Prod.fst ++ entries.map Prod.snd
  | _ => []

/-- What a set or a dictionary holds once. -/
def keys : Value → List Value
  | set _ items => items
  | dict entries => entries.map Prod.fst
  | _ => []

/-- Whether something is so of a value and of all that is in it. -/
inductive Every (P : Value → Prop) : Value → Prop where
  | intro {v : Value} : P v → (∀ w ∈ v.parts, Every P w) → Every P v

/-- Whether a value is no signaling NaN, and each key of it stands in it once. -/
structure IsProper (v : Value) : Prop where
  /-- It can be compared. -/
  quiet : ∀ n, v = .number n → n.isSignaling = false
  /-- Its keys are all different. -/
  distinct : v.keys.Pairwise fun x y => sameKey x y = false

variable {P : Value → Prop} {v w a b : Value}

theorem Every.self (h : v.Every P) : P v := by
  cases h with
  | intro hSelf => exact hSelf

theorem Every.of_mem (h : v.Every P) (hMem : w ∈ v.parts) : w.Every P := by
  cases h with
  | intro _ hParts => exact hParts w hMem

/-- What holds nothing is proper, unless it is a signaling NaN. -/
theorem every_isProper_of_parts (h : v.parts = [])
    (hQuiet : ∀ n, v = .number n → n.isSignaling = false) : v.Every IsProper := by
  have hKeys : v.keys = [] := by
    cases v with
    | set => exact h
    | dict => exact (List.append_eq_nil_iff.mp h).1
    | _ => rfl
  exact .intro ⟨hQuiet, hKeys ▸ .nil⟩ (h ▸ List.forall_mem_nil _)

theorem mem_parts_of_entry {entries : List (Value × Value)} {entry : Value × Value}
    (h : entry ∈ entries) :
    entry.1 ∈ (dict entries).parts ∧ entry.2 ∈ (dict entries).parts :=
  ⟨List.mem_append_left _ (List.mem_map_of_mem h), List.mem_append_right _ (List.mem_map_of_mem h)⟩

/-- A dictionary is proper if its keys are different, and its keys and values proper. -/
theorem every_isProper_dict_iff {entries : List (Value × Value)} :
    (dict entries).Every IsProper ↔
      (entries.Pairwise fun e f => sameKey e.1 f.1 = false) ∧
        ∀ entry ∈ entries, entry.1.Every IsProper ∧ entry.2.Every IsProper := by
  constructor
  · exact fun h => ⟨List.pairwise_map.mp h.self.distinct, fun entry hEntry =>
      ⟨h.of_mem (mem_parts_of_entry hEntry).1, h.of_mem (mem_parts_of_entry hEntry).2⟩⟩
  · rintro ⟨hApart, h⟩
    refine .intro ⟨nofun, List.pairwise_map.mpr hApart⟩ fun w hw => ?_
    rcases List.mem_append.mp hw with hw | hw
    all_goals
      obtain ⟨entry, hEntry, rfl⟩ := List.mem_map.mp hw
    · exact (h entry hEntry).1
    · exact (h entry hEntry).2

theorem sizeOf_lt_of_mem_parts (h : w ∈ v.parts) : sizeOf w < sizeOf v := by
  cases v with
  | list items | tuple items | set frozen items =>
    have := List.sizeOf_lt_of_mem (show w ∈ items from h)
    simp only [list.sizeOf_spec, tuple.sizeOf_spec, set.sizeOf_spec]
    omega
  | dict entries =>
    obtain ⟨entry, hEntry, hw⟩ : ∃ entry ∈ entries, entry.1 = w ∨ entry.2 = w := by
      simp only [parts, List.mem_append, List.mem_map] at h
      grind
    have := List.sizeOf_lt_of_mem hEntry
    obtain ⟨key, value⟩ := entry
    simp only [Prod.mk.sizeOf_spec, dict.sizeOf_spec] at this hw ⊢
    rcases hw with rfl | rfl <;> omega
  | _ => cases h

/-! ### Comparisons that come to an end -/

theorem isSignaling_of_numeric? (h : v.IsProper) {n : Number} (hn : v.numeric? = some n) :
    n.isSignaling = false := by
  cases v with
  | bool =>
    cases hn
    rfl
  | number m =>
    cases hn
    exact h.quiet n rfl
  | _ => cases hn

theorem mem_of_findEntry {test : Value → Except Signal Bool} {entries : List (Value × Value)}
    (h : findEntry test entries = .ok (some w)) : w ∈ entries.map Prod.snd := by
  induction entries with
  | nil => cases h
  | cons entry rest ih =>
    obtain ⟨found, -, h⟩ := exists_of_bind_eq_ok h
    cases found with
    | true =>
      cases h
      exact List.mem_cons_self
    | false => exact List.mem_cons_of_mem _ (ih h)

/-- Where there is no signaling NaN, none is met. -/
theorem not_meetsSignaling (ha : a.Every IsProper) (hb : b.Every IsProper) :
    ¬MeetsSignaling a b := by
  intro h
  induction h with
  | numbers hm hn hSignaling =>
    rw [isSignaling_of_numeric? ha.self hm, isSignaling_of_numeric? hb.self hn] at hSignaling
    exact hSignaling.elim Bool.false_ne_true Bool.false_ne_true
  | list _ hReached _ _ ih | tuple hReached _ _ ih =>
    obtain ⟨hx, hy⟩ := List.of_mem_zip hReached.mem
    exact ih (ha.of_mem hx) (hb.of_mem hy)
  | set _ hReached hCompared _ _ ih => exact ih (ha.of_mem hReached.mem) (hb.of_mem hCompared.mem)
  | key _ hReached hCompared _ _ ih =>
    exact ih (ha.of_mem (mem_parts_of_entry hReached.mem).1)
      (hb.of_mem (mem_parts_of_entry hCompared.mem).1)
  | value _ hReached hFound _ _ ih =>
    exact ih (ha.of_mem (mem_parts_of_entry hReached.mem).2)
      (hb.of_mem (List.mem_append_right _ (mem_of_findEntry hFound)))

theorem sameKey_iff : sameKey a b = true ↔ agrees a b = .ok true := by
  rw [sameKey, ← agrees]
  cases agrees a b with
  | ok same => simp
  | error signal => simp

/-- Proper values can be compared. -/
theorem agrees_eq_ok (ha : a.Every IsProper) (hb : b.Every IsProper) :
    agrees a b = .ok (sameKey a b) := by
  rw [sameKey, ← agrees]
  cases hAgrees : agrees a b with
  | ok same => rfl
  | error signal =>
    obtain ⟨-, hStop⟩ := (exists_agrees_eq_error_iff a b).mp ⟨signal, hAgrees⟩
    exact (not_meetsSignaling ha hb ((exists_equals_eq_error_iff a b).mp hStop)).elim

/-! ### What is the same -/

/-- A step of a comparison that goes on as long as items agree. -/
theorem ifAgrees_eq_ok_iff {x next : Except Signal Bool} :
    (do if ← x then next else return false) = .ok true ↔ x = .ok true ∧ next = .ok true := by
  cases x with
  | error signal => exact iff_of_false nofun fun h => by cases h.1
  | ok same =>
    cases same with
    | true => exact (and_iff_right rfl).symm
    | false => exact iff_of_false nofun fun h => by cases h.1

theorem itemsEqual_eq_ok_iff {xs ys : List Value} :
    itemsEqual xs ys = .ok true ↔ List.Forall₂ (fun x y => sameKey x y = true) xs ys := by
  induction xs generalizing ys with
  | nil => cases ys <;> simp [itemsEqual]
  | cons x xs ih =>
    cases ys with
    | nil => simp [itemsEqual]
    | cons y ys =>
      rw [itemsEqual, List.forall₂_cons, sameKey_iff, ← ih]
      exact ifAgrees_eq_ok_iff

theorem itemsIn_eq_ok_iff {xs ys : List Value} :
    itemsIn xs ys = .ok true ↔ ∀ x ∈ xs, ys.anyM (agrees x) = .ok true := by
  induction xs with
  | nil => simp [itemsIn]
  | cons x xs ih =>
    rw [itemsIn, List.forall_mem_cons, ← ih]
    exact ifAgrees_eq_ok_iff

theorem entriesIn_eq_ok_iff {xs ys : List (Value × Value)} :
    entriesIn xs ys = .ok true ↔ ∀ entry ∈ xs, entryAgrees ys entry = .ok true := by
  induction xs with
  | nil => simp [entriesIn]
  | cons entry xs ih =>
    rw [entriesIn_cons, List.forall_mem_cons, ← ih]
    exact ifAgrees_eq_ok_iff

theorem anyM_eq_ok {α : Type} {test : α → Except Signal Bool} {holds : α → Bool} {items : List α}
    (h : ∀ x ∈ items, test x = .ok (holds x)) : items.anyM test = .ok (items.any holds) := by
  induction items with
  | nil => rfl
  | cons x items ih =>
    obtain ⟨hFirst, hRest⟩ := List.forall_mem_cons.mp h
    rw [List.anyM, hFirst, List.any_cons]
    cases holds x with
    | true => rfl
    | false => exact ih hRest

theorem findEntry_eq_ok {test : Value → Except Signal Bool} {holds : Value → Bool}
    {entries : List (Value × Value)} (h : ∀ entry ∈ entries, test entry.1 = .ok (holds entry.1)) :
    findEntry test entries = .ok ((entries.find? fun entry => holds entry.1).map Prod.snd) := by
  induction entries with
  | nil => rfl
  | cons entry entries ih =>
    obtain ⟨hFirst, hRest⟩ := List.forall_mem_cons.mp h
    rw [findEntry, hFirst, List.find?_cons]
    cases holds entry.1 with
    | true => rfl
    | false => exact ih hRest

/-- Collections of one kind are compared as what they are. -/
theorem sameKey_eq_true_iff (h : a.nanLabel? = none) :
    sameKey a b = true ↔ equals a b = .ok true := by
  rw [sameKey_iff, agrees, itemEquals, h]

section

variable {xs : List Value} {frozen : Bool} {entries : List (Value × Value)}

/-- Lists are the same if their items are, one by one. -/
theorem sameKey_list_iff : sameKey (list xs) b = true ↔
    ∃ ys, b = list ys ∧ List.Forall₂ (fun x y => sameKey x y = true) xs ys := by
  rw [sameKey_eq_true_iff rfl]
  cases b with
  | list ys =>
    simp only [equals, list.injEq, exists_eq_left', ← itemsEqual_eq_ok_iff]
    split
    next => rfl
    next hLength =>
      refine iff_of_false (by simp) fun h => hLength (itemsEqual_eq_ok_iff.mp h).length_eq
  | _ => simp [equals, atomEquals, numeric?, text?]

/-- So are tuples. -/
theorem sameKey_tuple_iff : sameKey (tuple xs) b = true ↔
    ∃ ys, b = tuple ys ∧ List.Forall₂ (fun x y => sameKey x y = true) xs ys := by
  rw [sameKey_eq_true_iff rfl]
  cases b with
  | tuple ys => simp only [equals, tuple.injEq, exists_eq_left', itemsEqual_eq_ok_iff]
  | _ => simp [equals, atomEquals, numeric?, text?]

/-- Sets are the same if there are as many items and each is the same as one of the others. -/
theorem sameKey_set_iff (ha : (set frozen xs).Every IsProper) (hb : b.Every IsProper) :
    sameKey (set frozen xs) b = true ↔ ∃ frozen' ys, b = set frozen' ys ∧ xs.length = ys.length ∧
      ∀ x ∈ xs, ∃ y ∈ ys, sameKey x y = true := by
  rw [sameKey_eq_true_iff rfl]
  cases b with
  | set frozen' ys =>
    have hAny (x : Value) (hx : x ∈ xs) :
        ys.anyM (agrees x) = .ok true ↔ ∃ y ∈ ys, sameKey x y = true := by
      have hEach := @anyM_eq_ok _ (agrees x) (sameKey x) ys fun y hy =>
        agrees_eq_ok (ha.of_mem hx) (hb.of_mem hy)
      rw [hEach, Except.ok.injEq, List.any_eq_true]
    have hIn : itemsIn xs ys = .ok true ↔ ∀ x ∈ xs, ∃ y ∈ ys, sameKey x y = true :=
      itemsIn_eq_ok_iff.trans (forall₂_congr hAny)
    simp only [equals, set.injEq]
    split
    next hLength => simp [hIn, hLength]
    next hLength => simp [hLength]
  | _ => simp [equals, atomEquals, numeric?, text?]

/-- Dictionaries are the same if there are as many entries and each key is found among the others,
with a value that is the same. -/
theorem sameKey_dict_iff (ha : (dict entries).Every IsProper) (hb : b.Every IsProper) :
    sameKey (dict entries) b = true ↔ ∃ others, b = dict others ∧
      entries.length = others.length ∧ ∀ entry ∈ entries, ∃ other,
        others.find? (fun other => sameKey entry.1 other.1) = some other ∧
          sameKey entry.2 other.2 = true := by
  rw [sameKey_eq_true_iff rfl]
  cases b with
  | dict others =>
    have hAgrees (entry : Value × Value) (hEntry : entry ∈ entries) :
        entryAgrees others entry = .ok true ↔ ∃ other,
          others.find? (fun other => sameKey entry.1 other.1) = some other ∧
            sameKey entry.2 other.2 = true := by
      obtain ⟨hKey, hValue⟩ := mem_parts_of_entry hEntry
      have hFind := @findEntry_eq_ok (agrees entry.1) (sameKey entry.1) others fun other hOther =>
        agrees_eq_ok (ha.of_mem hKey) (hb.of_mem (mem_parts_of_entry hOther).1)
      rw [entryAgrees, hFind]
      cases others.find? fun other => sameKey entry.1 other.1 with
      | none =>
        refine iff_of_false (fun h => ?_) ?_
        · cases h
        · rintro ⟨_, h, -⟩
          cases h
      | some other =>
        simp only [Option.map_some, Option.some.injEq, exists_eq_left', sameKey_iff]
        rfl
    have hIn := entriesIn_eq_ok_iff.trans (forall₂_congr hAgrees)
    simp only [equals, dict.injEq]
    split
    next hLength => simp [hIn, hLength]
    next hLength => simp [hLength]
  | _ => simp [equals, atomEquals, numeric?, text?]

end

/-! ### Atoms -/

/-- What counts in a number: its exact value, or which NaN it is. -/
def contentOf (n : Number) : Extended ⊕ Option Nat :=
  match n.extended? with
  | some x => .inl x
  | none => .inr (Value.number n).nanLabel?

/-- What counts in a value that is no collection. -/
inductive Atom where
  /-- Nothing. -/
  | null
  /-- A number or a truth value. -/
  | number (content : Extended ⊕ Option Nat)
  /-- A text, ready SQL or not. -/
  | text (s : Text)
  /-- Bytes. -/
  | bytes (bytes : List UInt8)
  /-- A date. -/
  | date (d : Date)
  /-- An instant, or the time on a clock whose offset is not known. -/
  | time (known : Bool) (instant : Int)

/-- What counts in a value, unless it is a collection. -/
def atom? : Value → Option Atom
  | null => some .null
  | bool b => some (.number (contentOf (.int (if b then 1 else 0))))
  | number n => some (.number (contentOf n))
  | text s => some (.text s)
  | sql s => some (.text s)
  | bytes bs => some (.bytes bs)
  | date d => some (.date d)
  | datetime t => some (.time t.offset?.isSome t.instant)
  | _ => none

theorem isSome_nanLabel?_iff (n : Number) :
    (Value.number n).nanLabel?.isSome ↔ n.extended? = none := by
  cases n with
  | int n => simp [nanLabel?, Number.extended?]
  | float x => cases x <;> simp [nanLabel?, Number.extended?, Binary64.extended?]
  | decimal d => cases d <;> simp [nanLabel?, Number.extended?, Decimal.extended?]

theorem nanLabel?_of_numeric? {n : Number} (h : v.numeric? = some n) :
    v.nanLabel? = (Value.number n).nanLabel? := by
  cases v with
  | bool | number =>
    cases h
    rfl
  | _ => cases h

theorem atom?_of_numeric? {n : Number} (h : v.numeric? = some n) :
    v.atom? = some (.number (contentOf n)) := by
  cases v with
  | bool | number =>
    cases h
    rfl
  | _ => cases h

/-- Numbers are the same if they have the same exact value or are the same NaN. -/
theorem sameKey_numeric_iff {m n : Number} (ha : a.numeric? = some m) (hb : b.numeric? = some n)
    (hm : m.isSignaling = false) (hn : n.isSignaling = false) :
    sameKey a b = true ↔ contentOf m = contentOf n := by
  have hEquals : equals a b = m.equals n := by
    rw [equals_of_numeric? ha]
    simp only [atomEquals, ha, hb]
  have hLabel := isSome_nanLabel?_iff m
  have hLabel' := isSome_nanLabel?_iff n
  rw [sameKey_iff, agrees, itemEquals, nanLabel?_of_numeric? ha, nanLabel?_of_numeric? hb, hEquals,
    Number.equals, hm, hn, contentOf, contentOf]
  cases hx : m.extended? with
  | none =>
    obtain ⟨l, hl⟩ := Option.isSome_iff_exists.mp (hLabel.mpr hx)
    cases hy : n.extended? with
    | none =>
      obtain ⟨l', hl'⟩ := Option.isSome_iff_exists.mp (hLabel'.mpr hy)
      simp [hl, hl']
    | some y =>
      simp [hy] at hLabel'
      simp [hl, hLabel']
  | some x =>
    cases hy : n.extended? with
    | none =>
      simp [hx] at hLabel
      simp [hLabel]
    | some y =>
      simp [hx] at hLabel
      simp [hLabel, Extended.compare_eq_eq_iff]

/-- A number equals nothing that does not count as one. -/
theorem atomEquals_of_numeric? {n : Number} (ha : a.numeric? = some n) (hb : b.numeric? = none) :
    atomEquals a b = .ok false := by
  cases a with
  | bool | number =>
    cases b with
    | bool | number => cases hb
    | _ => rfl
  | _ => cases ha

/-- What is no collection is the same as what has the same content. -/
theorem sameKey_atom_iff (h : a.atom?.isSome) (ha : a.IsProper) (hb : b.IsProper) :
    sameKey a b = true ↔ a.atom? = b.atom? := by
  cases hm : a.numeric? with
  | some m =>
    rw [atom?_of_numeric? hm]
    cases hn : b.numeric? with
    | some n =>
      rw [atom?_of_numeric? hn, sameKey_numeric_iff hm hn (isSignaling_of_numeric? ha hm)
        (isSignaling_of_numeric? hb hn), Option.some.injEq, Atom.number.injEq]
    | none =>
      rw [sameKey_iff, agrees, equals_of_numeric? hm, atomEquals_of_numeric? hm hn]
      cases b with
      | bool | number => cases hn
      | _ => simp [itemEquals, nanLabel?, atom?]
  | none =>
    cases a with
    | bool | number => cases hm
    | null | text | sql | bytes | date | datetime =>
      rw [sameKey_eq_true_iff rfl]
      cases b <;> simp [equals, atomEquals, numeric?, text?, atom?, DateTime.sameInstant]
    | _ => cases h

end Value

end SqlTemplate
