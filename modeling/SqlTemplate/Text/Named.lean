import SqlTemplate.Text.Search

/-!
# Lists of named things

A list in which each name stands once, in the order in which the names came first. Putting in a
name that is there replaces what it names and leaves it in its place. What a name stands for in the
end is what was put in for it last (`lookup_insert`), and a list in which each name stands once
stays as it is (`ofPairs_of_nodup`).
-/

namespace SqlTemplate

namespace Named

variable {α : Type}

/-- Puts a named thing into a list. -/
def insert (name : Text) (value : α) : List (Text × α) → List (Text × α)
  | [] => [(name, value)]
  | (n, v) :: rest => if n = name then (n, value) :: rest else (n, v) :: insert name value rest

/-- Puts named things into a list one after another. -/
def insertAll (entries pairs : List (Text × α)) : List (Text × α) :=
  pairs.foldl (fun entries (name, value) => insert name value entries) entries

/-- The named things of a list of which the last of each name counts. -/
def ofPairs (pairs : List (Text × α)) : List (Text × α) := insertAll [] pairs

theorem lookup_cons (name n : Text) (value : α) (rest : List (Text × α)) :
    ((name, value) :: rest).lookup n = if n = name then some value else rest.lookup n := by
  by_cases h : n = name
  · rw [h, List.lookup_cons_self, if_pos rfl]
  · rw [List.lookup_cons, beq_eq_false_iff_ne.mpr h, if_neg h]

/-- A name that is put in stands for its value, any other one for what it stood for. -/
theorem lookup_insert (name : Text) (value : α) (entries : List (Text × α)) (n : Text) :
    (insert name value entries).lookup n = if n = name then some value else entries.lookup n := by
  induction entries with
  | nil => rw [insert, lookup_cons]
  | cons first rest ih =>
    obtain ⟨m, v⟩ := first
    rw [insert]
    by_cases hFirst : m = name
    · rw [if_pos hFirst, lookup_cons, lookup_cons, hFirst]
      by_cases h : n = name
      · rw [if_pos h, if_pos h]
      · rw [if_neg h, if_neg h, if_neg h]
    · rw [if_neg hFirst, lookup_cons, lookup_cons, ih]
      by_cases h : n = m
      · rw [if_pos h, if_pos h, if_neg (h ▸ hFirst)]
      · rw [if_neg h, if_neg h]

/-- A list knows the names that stand in it. -/
theorem isSome_lookup {name : Text} {entries : List (Text × α)} :
    (entries.lookup name).isSome ↔ name ∈ entries.map Prod.fst := by
  rw [List.lookup_isSome_iff, List.mem_map]
  constructor
  · rintro ⟨entry, hEntry, hName⟩
    exact ⟨entry, hEntry, (eq_of_beq hName).symm⟩
  · rintro ⟨entry, hEntry, rfl⟩
    exact ⟨entry, hEntry, beq_self_eq_true _⟩

/-! ### Each name once -/

/-- A new name is put at the end. -/
theorem insert_of_notMem {name : Text} {entries : List (Text × α)}
    (h : name ∉ entries.map Prod.fst) (value : α) :
    insert name value entries = entries ++ [(name, value)] := by
  induction entries with
  | nil => rfl
  | cons first rest ih =>
    rw [List.map_cons, List.mem_cons, not_or] at h
    rw [insert, if_neg (Ne.symm h.1), ih h.2, List.cons_append]

theorem mem_map_fst_insert {name n : Text} {value : α} {entries : List (Text × α)} :
    n ∈ (insert name value entries).map Prod.fst ↔ n = name ∨ n ∈ entries.map Prod.fst := by
  induction entries with
  | nil => simp [insert]
  | cons first rest ih =>
    rw [insert]
    split
    next hFirst => simp [hFirst]
    next => rw [List.map_cons, List.mem_cons, ih, List.map_cons, List.mem_cons, or_left_comm]

theorem mem_map_fst_insertAll {n : Text} {entries pairs : List (Text × α)} :
    n ∈ (insertAll entries pairs).map Prod.fst ↔
      n ∈ entries.map Prod.fst ∨ n ∈ pairs.map Prod.fst := by
  induction pairs generalizing entries with
  | nil => exact (or_iff_left List.not_mem_nil).symm
  | cons first rest ih =>
    show n ∈ (insertAll (insert first.1 first.2 entries) rest).map Prod.fst ↔ _
    rw [ih, mem_map_fst_insert, List.map_cons, List.mem_cons, or_assoc, or_left_comm]

theorem mem_map_fst_ofPairs {n : Text} {pairs : List (Text × α)} :
    n ∈ (ofPairs pairs).map Prod.fst ↔ n ∈ pairs.map Prod.fst :=
  mem_map_fst_insertAll.trans (or_iff_right List.not_mem_nil)

theorem nodup_insert {entries : List (Text × α)} (h : (entries.map Prod.fst).Nodup) (name : Text)
    (value : α) : ((insert name value entries).map Prod.fst).Nodup := by
  induction entries with
  | nil => simp [insert]
  | cons first rest ih =>
    obtain ⟨hFirst, hRest⟩ := List.nodup_cons.mp h
    rw [insert]
    split
    next => exact h
    next hne =>
      refine List.nodup_cons.mpr ⟨?_, ih hRest⟩
      rw [mem_map_fst_insert, not_or]
      exact ⟨hne, hFirst⟩

theorem nodup_ofPairs (pairs : List (Text × α)) : ((ofPairs pairs).map Prod.fst).Nodup := by
  have hAll (entries : List (Text × α)) (h : (entries.map Prod.fst).Nodup) :
      ((insertAll entries pairs).map Prod.fst).Nodup := by
    induction pairs generalizing entries with
    | nil => exact h
    | cons first rest ih => exact ih _ (nodup_insert h _ _)
  exact hAll [] List.nodup_nil

/-- New names that are all different are put at the end in their order. -/
theorem insertAll_of_nodup {entries pairs : List (Text × α)}
    (h : ((entries ++ pairs).map Prod.fst).Nodup) : insertAll entries pairs = entries ++ pairs := by
  induction pairs generalizing entries with
  | nil => exact (List.append_nil entries).symm
  | cons first rest ih =>
    obtain ⟨name, value⟩ := first
    rw [List.append_cons] at h
    have hNew : name ∉ entries.map Prod.fst := by
      rw [List.map_append, List.map_append, List.append_assoc] at h
      exact fun hMem => (List.nodup_append.mp h).2.2 name hMem name List.mem_cons_self rfl
    show insertAll (insert name value entries) rest = _
    rw [insert_of_notMem hNew, ih h, List.append_assoc]
    rfl

/-- A list in which each name stands once stays as it is. -/
theorem ofPairs_of_nodup {pairs : List (Text × α)} (h : (pairs.map Prod.fst).Nodup) :
    ofPairs pairs = pairs := insertAll_of_nodup h

end Named

end SqlTemplate
