import Mathlib.Data.List.Forall2
import Mathlib.Data.List.Pairwise
import SqlTemplate.Proofs.Value.Sameness

/-!
# Sameness as an equivalence

Sets and dictionaries are compared in one direction: each item of the first is looked for among
those of the second. That this is enough is due to their keys being different, and to sameness being
symmetric and transitive among the keys (`Value.IsEquivalenceOn.exists_of_set`,
`Value.IsEquivalenceOn.exists_of_dict`). So what holds of the parts of values holds of the values
(`Value.IsEquivalenceOn.symm_of_parts`, `Value.IsEquivalenceOn.trans_of_parts`), and by induction on
their size **sameness is symmetric and transitive among all proper values**
(`Value.isEquivalenceOn_proper`). Hence such values are equal in either order (`Value.equals_comm`).
Sets and dictionaries that are put together entry by entry are proper if what is put in is
(`Value.every_isProper_entriesOf`).
-/

namespace SqlTemplate

/-- If each item of a list has a partner in another list of the same length, and no two of them have
one in common, then nothing in the other list is left without a partner. -/
theorem forall_exists_of_matching {α β : Type} {R : α → β → Prop} {xs : List α} {ys : List β}
    (hLength : xs.length = ys.length) (hApart : xs.Pairwise fun x x' => ∀ y ∈ ys, R x y → ¬R x' y)
    (h : ∀ x ∈ xs, ∃ y ∈ ys, R x y) : ∀ y ∈ ys, ∃ x ∈ xs, R x y := by
  induction xs generalizing ys with
  | nil =>
    rw [List.length_nil, eq_comm, List.length_eq_zero_iff] at hLength
    subst hLength
    exact List.forall_mem_nil _
  | cons x xs ih =>
    obtain ⟨hFirst, hRest⟩ := List.pairwise_cons.mp hApart
    obtain ⟨⟨y, hy, hxy⟩, hOthers⟩ := List.forall_mem_cons.mp h
    obtain ⟨before, after, rfl⟩ := List.append_of_mem hy
    -- The partner of the first item is none of the others'.
    have hSub : ∀ z ∈ before ++ after, z ∈ before ++ y :: after := by grind
    have hLeft := @ih (before ++ after) (by grind)
      (hRest.imp fun hApart z hz => hApart z (hSub z hz)) fun x' hx' => by
        obtain ⟨z, hz, hxz⟩ := hOthers x' hx'
        have hne : z ≠ y := by
          rintro rfl
          exact hFirst x' hx' z hy hxy hxz
        exact ⟨z, by grind, hxz⟩
    intro z hz
    by_cases hzy : z = y
    · exact ⟨x, List.mem_cons_self, hzy ▸ hxy⟩
    · obtain ⟨x', hx', hxz⟩ := hLeft z (by grind)
      exact ⟨x', List.mem_cons_of_mem _ hx', hxz⟩

/-- Members of a list that are not related either way are one and the same. -/
theorem eq_of_pairwise {α : Type} {R : α → α → Prop} {l : List α} (h : l.Pairwise R) {a b : α}
    (ha : a ∈ l) (hb : b ∈ l) (hab : ¬R a b) (hba : ¬R b a) : a = b := by
  have hEither : l.Pairwise fun x y => R x y ∨ R y x := h.imp Or.inl
  have : Std.Symm fun x y => R x y ∨ R y x := ⟨fun _ _ => Or.symm⟩
  by_contra hne
  exact (hEither.forall ha hb hne).elim hab hba

namespace Value

variable {S : Value → Prop} {a b : Value}

/-! ### Sameness as an equivalence -/

/-- Whether sameness is symmetric and transitive among certain values. -/
structure IsEquivalenceOn (S : Value → Prop) : Prop where
  /-- What is the same as another value has that value the same as itself. -/
  symm {a b : Value} : S a → S b → sameKey a b = true → sameKey b a = true
  /-- What is the same as one value is the same as what that is the same as. -/
  trans {a b c : Value} : S a → S b → S c → sameKey a b = true → sameKey b c = true →
    sameKey a c = true

section

variable {xs ys zs : List Value}

theorem IsEquivalenceOn.symm_forall₂ (hS : IsEquivalenceOn S) (hxs : ∀ x ∈ xs, S x)
    (hys : ∀ y ∈ ys, S y) (h : List.Forall₂ (fun x y => sameKey x y = true) xs ys) :
    List.Forall₂ (fun x y => sameKey x y = true) ys xs := by
  induction h with
  | nil => exact .nil
  | cons hFirst _ ih =>
    obtain ⟨hx, hxs⟩ := List.forall_mem_cons.mp hxs
    obtain ⟨hy, hys⟩ := List.forall_mem_cons.mp hys
    exact .cons (hS.symm hx hy hFirst) (ih hxs hys)

theorem IsEquivalenceOn.trans_forall₂ (hS : IsEquivalenceOn S) (hxs : ∀ x ∈ xs, S x)
    (hys : ∀ y ∈ ys, S y) (hzs : ∀ z ∈ zs, S z)
    (h : List.Forall₂ (fun x y => sameKey x y = true) xs ys)
    (h' : List.Forall₂ (fun x y => sameKey x y = true) ys zs) :
    List.Forall₂ (fun x y => sameKey x y = true) xs zs := by
  induction h generalizing zs with
  | nil =>
    cases h'
    exact .nil
  | cons hFirst _ ih =>
    cases h' with
    | cons hFirst' hRest' =>
      obtain ⟨hx, hxs⟩ := List.forall_mem_cons.mp hxs
      obtain ⟨hy, hys⟩ := List.forall_mem_cons.mp hys
      obtain ⟨hz, hzs⟩ := List.forall_mem_cons.mp hzs
      exact .cons (hS.trans hx hy hz hFirst hFirst') (ih hxs hys hzs hRest')

/-- Different keys are the same as different keys, so each of those is met. -/
theorem IsEquivalenceOn.exists_of_set (hS : IsEquivalenceOn S) (hxs : ∀ x ∈ xs, S x)
    (hys : ∀ y ∈ ys, S y) (hLength : xs.length = ys.length)
    (hApart : xs.Pairwise fun x x' => sameKey x x' = false)
    (h : ∀ x ∈ xs, ∃ y ∈ ys, sameKey x y = true) : ∀ y ∈ ys, ∃ x ∈ xs, sameKey y x = true := by
  have hPartners : xs.Pairwise fun x x' => ∀ y ∈ ys, sameKey x y = true → ¬sameKey x' y = true := by
    refine hApart.imp_of_mem fun hx hx' hne y hy hxy hxy' => ?_
    have hSame := hS.trans (hxs _ hx) (hys y hy) (hxs _ hx') hxy
      (hS.symm (hxs _ hx') (hys y hy) hxy')
    exact Bool.false_ne_true (hne.symm.trans hSame)
  intro y hy
  obtain ⟨x, hx, hxy⟩ := forall_exists_of_matching hLength hPartners h y hy
  exact ⟨x, hx, hS.symm (hxs x hx) (hys y hy) hxy⟩

end

section

variable {xs ys zs : List (Value × Value)} {entry : Value × Value}

/-- Whether two entries have the same key and the same value. -/
def SameEntry (entry other : Value × Value) : Prop :=
  sameKey entry.1 other.1 = true ∧ sameKey entry.2 other.2 = true

/-- Where keys are different, the key that is found is the only one. -/
theorem IsEquivalenceOn.exists_find_iff (hS : IsEquivalenceOn S)
    (hEntry : S entry.1 ∧ S entry.2) (hys : ∀ other ∈ ys, S other.1 ∧ S other.2)
    (hApart : ys.Pairwise fun e f => sameKey e.1 f.1 = false) :
    (∃ other, ys.find? (fun other => sameKey entry.1 other.1) = some other ∧
      sameKey entry.2 other.2 = true) ↔ ∃ other ∈ ys, SameEntry entry other := by
  constructor
  · rintro ⟨other, hFind, hValue⟩
    have hKey := List.find?_some hFind
    exact ⟨other, List.mem_of_find?_eq_some hFind, hKey, hValue⟩
  · rintro ⟨other, hOther, hKey, hValue⟩
    obtain ⟨found, hFind⟩ := Option.isSome_iff_exists.mp
      (List.find?_isSome.mpr ⟨other, hOther, hKey⟩ :
        (ys.find? fun other => sameKey entry.1 other.1).isSome)
    have hFound := List.mem_of_find?_eq_some hFind
    have hFoundKey := List.find?_some hFind
    -- Both keys are the same as the one that is looked for.
    have hSame : sameKey other.1 found.1 = true :=
      hS.trans (hys _ hOther).1 hEntry.1 (hys _ hFound).1
        (hS.symm hEntry.1 (hys _ hOther).1 hKey) hFoundKey
    have hSame' := hS.symm (hys _ hOther).1 (hys _ hFound).1 hSame
    have hEq : found = other := eq_of_pairwise hApart hFound hOther (by simp [hSame'])
      (by simp [hSame])
    exact ⟨found, hFind, hEq ▸ hValue⟩

/-- Among different keys those of one dictionary are found in one that is the same. -/
theorem IsEquivalenceOn.exists_of_dict (hS : IsEquivalenceOn S)
    (hxs : ∀ entry ∈ xs, S entry.1 ∧ S entry.2) (hys : ∀ other ∈ ys, S other.1 ∧ S other.2)
    (hLength : xs.length = ys.length)
    (hApart : xs.Pairwise fun e f => sameKey e.1 f.1 = false)
    (h : ∀ entry ∈ xs, ∃ other ∈ ys, SameEntry entry other) :
    ∀ other ∈ ys, ∃ entry ∈ xs, SameEntry other entry := by
  have hPartners : xs.Pairwise fun e e' =>
      ∀ other ∈ ys, SameEntry e other → ¬SameEntry e' other := by
    refine hApart.imp_of_mem fun he he' hne other hOther hSame hSame' => ?_
    have hKey := hS.trans (hxs _ he).1 (hys _ hOther).1 (hxs _ he').1 hSame.1
      (hS.symm (hxs _ he').1 (hys _ hOther).1 hSame'.1)
    exact Bool.false_ne_true (hne.symm.trans hKey)
  intro other hOther
  obtain ⟨entry, hEntry, hSame⟩ := forall_exists_of_matching hLength hPartners h other hOther
  exact ⟨entry, hEntry, hS.symm (hxs _ hEntry).1 (hys _ hOther).1 hSame.1,
    hS.symm (hxs _ hEntry).2 (hys _ hOther).2 hSame.2⟩

end

theorem forall_entry_of_parts {entries : List (Value × Value)}
    (h : ∀ w ∈ (dict entries).parts, S w) : ∀ entry ∈ entries, S entry.1 ∧ S entry.2 :=
  fun _ hEntry => ⟨h _ (mem_parts_of_entry hEntry).1, h _ (mem_parts_of_entry hEntry).2⟩

/-- Among values with different keys, dictionaries are the same if there are as many entries and
each is the same as one of the others. -/
theorem IsEquivalenceOn.sameKey_dict_iff (hS : IsEquivalenceOn S) {entries : List (Value × Value)}
    (ha : (dict entries).Every IsProper) (hb : b.Every IsProper)
    (hParts : ∀ w ∈ (dict entries).parts, S w) (hParts' : ∀ w ∈ b.parts, S w) :
    sameKey (dict entries) b = true ↔ ∃ others, b = dict others ∧
      entries.length = others.length ∧
        ∀ entry ∈ entries, ∃ other ∈ others, SameEntry entry other := by
  rw [Value.sameKey_dict_iff ha hb]
  refine exists_congr fun others => and_congr_right ?_
  rintro rfl
  refine and_congr_right fun _ => forall₂_congr fun entry hEntry => ?_
  exact hS.exists_find_iff (forall_entry_of_parts hParts entry hEntry)
    (forall_entry_of_parts hParts') (every_isProper_dict_iff.mp hb).1

section

variable {c : Value} (hS : IsEquivalenceOn S) (ha : a.Every IsProper) (hb : b.Every IsProper)
  (hPartsA : ∀ w ∈ a.parts, S w) (hPartsB : ∀ w ∈ b.parts, S w)
include hS ha hb hPartsA hPartsB

/-- Sameness is symmetric among values if it is an equivalence among what they are made of. -/
theorem IsEquivalenceOn.symm_of_parts (h : sameKey a b = true) : sameKey b a = true := by
  cases a with
  | list xs =>
    obtain ⟨ys, rfl, hItems⟩ := sameKey_list_iff.mp h
    exact sameKey_list_iff.mpr ⟨xs, rfl, hS.symm_forall₂ hPartsA hPartsB hItems⟩
  | tuple xs =>
    obtain ⟨ys, rfl, hItems⟩ := sameKey_tuple_iff.mp h
    exact sameKey_tuple_iff.mpr ⟨xs, rfl, hS.symm_forall₂ hPartsA hPartsB hItems⟩
  | set frozen xs =>
    obtain ⟨frozen', ys, rfl, hLength, hItems⟩ := (sameKey_set_iff ha hb).mp h
    exact (sameKey_set_iff hb ha).mpr ⟨frozen, xs, rfl, hLength.symm,
      hS.exists_of_set hPartsA hPartsB hLength ha.self.distinct hItems⟩
  | dict xs =>
    obtain ⟨ys, rfl, hLength, hItems⟩ := (hS.sameKey_dict_iff ha hb hPartsA hPartsB).mp h
    exact (hS.sameKey_dict_iff hb ha hPartsB hPartsA).mpr ⟨xs, rfl, hLength.symm,
      hS.exists_of_dict (forall_entry_of_parts hPartsA) (forall_entry_of_parts hPartsB) hLength
        (every_isProper_dict_iff.mp ha).1 hItems⟩
  | null | bool | number | text | sql | bytes | date | datetime =>
    have hEq := (sameKey_atom_iff rfl ha.self hb.self).mp h
    exact (sameKey_atom_iff (hEq ▸ rfl) hb.self ha.self).mpr hEq.symm

/-- So it is transitive. -/
theorem IsEquivalenceOn.trans_of_parts (hc : c.Every IsProper) (hPartsC : ∀ w ∈ c.parts, S w)
    (h : sameKey a b = true) (h' : sameKey b c = true) : sameKey a c = true := by
  cases a with
  | list xs =>
    obtain ⟨ys, rfl, hItems⟩ := sameKey_list_iff.mp h
    obtain ⟨zs, rfl, hItems'⟩ := sameKey_list_iff.mp h'
    exact sameKey_list_iff.mpr
      ⟨zs, rfl, hS.trans_forall₂ hPartsA hPartsB hPartsC hItems hItems'⟩
  | tuple xs =>
    obtain ⟨ys, rfl, hItems⟩ := sameKey_tuple_iff.mp h
    obtain ⟨zs, rfl, hItems'⟩ := sameKey_tuple_iff.mp h'
    exact sameKey_tuple_iff.mpr
      ⟨zs, rfl, hS.trans_forall₂ hPartsA hPartsB hPartsC hItems hItems'⟩
  | set frozen xs =>
    obtain ⟨_, ys, rfl, hLength, hItems⟩ := (sameKey_set_iff ha hb).mp h
    obtain ⟨_, zs, rfl, hLength', hItems'⟩ := (sameKey_set_iff hb hc).mp h'
    refine (sameKey_set_iff ha hc).mpr ⟨_, zs, rfl, hLength.trans hLength', fun x hx => ?_⟩
    obtain ⟨y, hy, hxy⟩ := hItems x hx
    obtain ⟨z, hz, hyz⟩ := hItems' y hy
    exact ⟨z, hz, hS.trans (hPartsA x hx) (hPartsB y hy) (hPartsC z hz) hxy hyz⟩
  | dict xs =>
    obtain ⟨ys, rfl, hLength, hItems⟩ := (hS.sameKey_dict_iff ha hb hPartsA hPartsB).mp h
    obtain ⟨zs, rfl, hLength', hItems'⟩ := (hS.sameKey_dict_iff hb hc hPartsB hPartsC).mp h'
    refine (hS.sameKey_dict_iff ha hc hPartsA hPartsC).mpr
      ⟨zs, rfl, hLength.trans hLength', fun entry hx => ?_⟩
    obtain ⟨other, hy, hxy⟩ := hItems entry hx
    obtain ⟨third, hz, hyz⟩ := hItems' other hy
    obtain ⟨hKeyX, hValueX⟩ := forall_entry_of_parts hPartsA entry hx
    obtain ⟨hKeyY, hValueY⟩ := forall_entry_of_parts hPartsB other hy
    obtain ⟨hKeyZ, hValueZ⟩ := forall_entry_of_parts hPartsC third hz
    exact ⟨third, hz, hS.trans hKeyX hKeyY hKeyZ hxy.1 hyz.1,
      hS.trans hValueX hValueY hValueZ hxy.2 hyz.2⟩
  | null | bool | number | text | sql | bytes | date | datetime =>
    have hEq := (sameKey_atom_iff rfl ha.self hb.self).mp h
    have hEq' := (sameKey_atom_iff (hEq ▸ rfl) hb.self hc.self).mp h'
    exact (sameKey_atom_iff rfl ha.self hc.self).mpr (hEq.trans hEq')

end

/-- **Among proper values sameness is symmetric and transitive.** -/
theorem isEquivalenceOn_proper : IsEquivalenceOn (Every IsProper) := by
  -- Symmetry of dictionaries needs transitivity of their keys, so the two go together.
  have hBelow (n : Nat) : IsEquivalenceOn fun v => v.Every IsProper ∧ sizeOf v < n := by
    induction n with
    | zero =>
      exact ⟨fun ha => absurd ha.2 (Nat.not_lt_zero _), fun ha => absurd ha.2 (Nat.not_lt_zero _)⟩
    | succ n ih =>
      have hParts {v : Value} (h : v.Every IsProper ∧ sizeOf v < n + 1) :
          ∀ w ∈ v.parts, w.Every IsProper ∧ sizeOf w < n := fun w hw =>
        ⟨h.1.of_mem hw, Nat.lt_of_lt_of_le (sizeOf_lt_of_mem_parts hw) (Nat.le_of_lt_succ h.2)⟩
      exact ⟨fun ha hb => ih.symm_of_parts ha.1 hb.1 (hParts ha) (hParts hb),
        fun ha hb hc => ih.trans_of_parts ha.1 hb.1 (hParts ha) (hParts hb) hc.1 (hParts hc)⟩
  exact {
    symm := fun {a b} ha hb =>
      (hBelow (sizeOf a + sizeOf b + 1)).symm ⟨ha, by omega⟩ ⟨hb, by omega⟩
    trans := fun {a b c} ha hb hc =>
      (hBelow (sizeOf a + sizeOf b + sizeOf c + 1)).trans ⟨ha, by omega⟩ ⟨hb, by omega⟩
        ⟨hc, by omega⟩ }

/-! ### Equality -/

/-- A NaN is a number that equals nothing. -/
theorem equals_of_nanLabel? {label : Nat} (ha : a.IsProper) (hb : b.IsProper)
    (h : a.nanLabel? = some label) (h' : b.nanLabel? = some label) : equals a b = .ok false := by
  cases a with
  | number m =>
    cases b with
    | number n =>
      have hm : m.extended? = none := (isSome_nanLabel?_iff m).mp (by rw [h]; rfl)
      rw [equals_of_numeric? rfl]
      simp [atomEquals, numeric?, Number.equals, ha.quiet m rfl, hb.quiet n rfl, hm]
    | _ => cases h'
  | _ => cases h

/-- **Proper values are equal in either order.** -/
theorem equals_comm (ha : a.Every IsProper) (hb : b.Every IsProper) : equals a b = equals b a := by
  by_cases hNaN : SameNaN a b
  · obtain ⟨label, h, h'⟩ := hNaN
    rw [equals_of_nanLabel? ha.self hb.self h h', equals_of_nanLabel? hb.self ha.self h' h]
  · have hNaN' : ¬SameNaN b a := fun ⟨label, h, h'⟩ => hNaN ⟨label, h', h⟩
    have hSame : sameKey a b = sameKey b a := Bool.eq_iff_iff.mpr
      ⟨isEquivalenceOn_proper.symm ha hb, isEquivalenceOn_proper.symm hb ha⟩
    rw [← agrees_of_not_sameNaN hNaN, ← agrees_of_not_sameNaN hNaN', agrees_eq_ok ha hb,
      agrees_eq_ok hb ha, hSame]

/-! ### Collections that are put together -/

section

variable {entries pairs : List (Value × Value)} {key value : Value}

/-- What is so of all keys and all values stays so when an entry is put in. -/
theorem forall_insertEntry {P Q : Value → Prop} (h : ∀ entry ∈ entries, P entry.1 ∧ Q entry.2)
    (hKey : P key) (hValue : Q value) :
    ∀ entry ∈ insertEntry entries key value, P entry.1 ∧ Q entry.2 := by
  induction entries with
  | nil => exact List.forall_mem_singleton.mpr ⟨hKey, hValue⟩
  | cons first rest ih =>
    obtain ⟨hFirst, hRest⟩ := List.forall_mem_cons.mp h
    rw [insertEntry]
    split
    next => exact List.forall_mem_cons.mpr ⟨⟨hFirst.1, hValue⟩, hRest⟩
    next => exact List.forall_mem_cons.mpr ⟨hFirst, ih hRest⟩

/-- A key that is put in is none of those that were there. -/
theorem pairwise_insertEntry (h : entries.Pairwise fun e f => sameKey e.1 f.1 = false) :
    (insertEntry entries key value).Pairwise fun e f => sameKey e.1 f.1 = false := by
  induction entries with
  | nil => exact List.pairwise_singleton _ _
  | cons first rest ih =>
    obtain ⟨hFirst, hRest⟩ := List.pairwise_cons.mp h
    rw [insertEntry]
    split
    next => exact List.pairwise_cons.mpr ⟨hFirst, hRest⟩
    next hNew =>
      have hOthers := @forall_insertEntry rest key value (fun k => sameKey first.1 k = false)
        (fun _ => True) (fun entry hEntry => ⟨hFirst entry hEntry, trivial⟩)
        (Bool.eq_false_iff.mpr hNew) trivial
      exact List.pairwise_cons.mpr ⟨fun entry hEntry => (hOthers entry hEntry).1, ih hRest⟩

theorem every_isProper_list {items : List Value} (h : ∀ v ∈ items, v.Every IsProper) :
    (list items).Every IsProper :=
  .intro ⟨nofun, .nil⟩ h

theorem every_isProper_tuple {items : List Value} (h : ∀ v ∈ items, v.Every IsProper) :
    (tuple items).Every IsProper :=
  .intro ⟨nofun, .nil⟩ h

/-- **A dictionary that is made of proper keys and values is proper.** -/
theorem every_isProper_entriesOf
    (h : ∀ pair ∈ pairs, pair.1.Every IsProper ∧ pair.2.Every IsProper) :
    (dict (entriesOf pairs)).Every IsProper := by
  have hFrom (entries : List (Value × Value)) (hEntries : (dict entries).Every IsProper) :
      (dict (pairs.foldl (fun entries pair => insertEntry entries pair.1 pair.2) entries)).Every
        IsProper := by
    induction pairs generalizing entries with
    | nil => exact hEntries
    | cons pair rest ih =>
      obtain ⟨hPair, hRest⟩ := List.forall_mem_cons.mp h
      obtain ⟨hApart, hAll⟩ := every_isProper_dict_iff.mp hEntries
      exact ih hRest _ (every_isProper_dict_iff.mpr
        ⟨pairwise_insertEntry hApart, forall_insertEntry hAll hPair.1 hPair.2⟩)
  exact hFrom [] (every_isProper_dict_iff.mpr ⟨.nil, List.forall_mem_nil _⟩)

/-- So is the set of its keys. -/
theorem every_isProper_set (h : (dict entries).Every IsProper) (frozen : Bool) :
    (set frozen (entries.map Prod.fst)).Every IsProper :=
  .intro ⟨nofun, h.self.distinct⟩ fun _ hw => h.of_mem (List.mem_append_left _ hw)

end

end Value

end SqlTemplate
