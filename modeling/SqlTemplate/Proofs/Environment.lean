import Mathlib.Data.List.Basic
import SqlTemplate.Proofs.Condition.Dependence
import SqlTemplate.Proofs.Value.Writable

/-!
# Bindings laid over others

Putting named things into a list leaves each name at its first place (`Named.map_fst_insertAll`)
and lets it stand for what was put in last (`Named.lookup_insertAll`). So an environment of two
layers **binds each name to the value of the last binding that comes to it, in the upper layer if
there is one there, and its names stand in the order in which they came first**. In whatever
condition a name is written, with a dollar sign or without one, it has that value (`StandsFor`);
`layers_bind_last` says both.
-/

namespace SqlTemplate

/-! ### First occurrences -/

section

variable {β : Type} [BEq β] [LawfulBEq β]

theorem eraseDups_filter (p : β → Bool) :
    ∀ l : List β, (l.filter p).eraseDups = l.eraseDups.filter p
  | [] => rfl
  | a :: l => by
    have : (l.filter fun b => !b == a).length < l.length + 1 :=
      Nat.lt_succ_of_le (List.length_filter_le _ _)
    have ih := eraseDups_filter p (l.filter fun b => !b == a)
    rw [List.eraseDups_cons, List.filter_cons, List.filter_cons]
    by_cases hp : p a = true
    · rw [if_pos hp, if_pos hp, List.eraseDups_cons, ← ih, List.filter_comm]
    · have hSame : (l.filter fun b => !b == a).filter p = l.filter p := by
        rw [List.filter_filter]
        refine List.filter_congr fun b _ => ?_
        by_cases hb : b = a
        · simp [hb, hp]
        · simp [hb]
      rw [if_neg hp, if_neg hp, ← ih, hSame]
termination_by l => l.length

theorem nodup_eraseDups : ∀ l : List β, l.eraseDups.Nodup
  | [] => List.nodup_nil
  | a :: l => by
    have : (l.filter fun b => !b == a).length < l.length + 1 :=
      Nat.lt_succ_of_le (List.length_filter_le _ _)
    rw [List.eraseDups_cons, List.nodup_cons]
    refine ⟨?_, nodup_eraseDups _⟩
    simp
termination_by l => l.length

theorem eraseDups_of_nodup {l : List β} (h : l.Nodup) : l.eraseDups = l := by
  induction l with
  | nil => rfl
  | cons a l ih =>
    obtain ⟨ha, hl⟩ := List.nodup_cons.mp h
    rw [List.eraseDups_cons, List.filter_eq_self.mpr, ih hl]
    intro b hb
    simp only [Bool.not_eq_true', beq_eq_false_iff_ne]
    rintro rfl
    exact ha hb

/-- First occurrences in two lists can be taken in each of them first. -/
theorem eraseDups_append_eraseDups (as bs : List β) :
    (as.eraseDups ++ bs.eraseDups).eraseDups = (as ++ bs).eraseDups := by
  have hElem : (fun b => !as.eraseDups.elem b) = fun b => !as.elem b := by
    funext b
    simp only [List.elem_eq_contains, List.contains_eq_mem, List.mem_eraseDups]
  rw [List.eraseDups_append, List.eraseDups_append, eraseDups_of_nodup (nodup_eraseDups as),
    List.removeAll, List.removeAll, hElem, eraseDups_filter, eraseDups_filter,
    eraseDups_of_nodup (nodup_eraseDups bs)]

end

namespace Named

variable {α : Type} {entries pairs : List (Text × α)}

theorem map_fst_insert (name : Text) (value : α) (entries : List (Text × α)) :
    (insert name value entries).map Prod.fst =
      if name ∈ entries.map Prod.fst then entries.map Prod.fst
      else entries.map Prod.fst ++ [name] := by
  induction entries with
  | nil => rfl
  | cons first rest ih =>
    rw [insert]
    by_cases hFirst : first.1 = name
    · simp [hFirst]
    · rw [if_neg hFirst, List.map_cons, ih, List.map_cons]
      simp only [List.mem_cons, Ne.symm hFirst, false_or]
      split <;> rfl

/-- **Names stand where they came first.** -/
theorem map_fst_insertAll (h : (entries.map Prod.fst).Nodup) :
    (insertAll entries pairs).map Prod.fst =
      (entries.map Prod.fst ++ pairs.map Prod.fst).eraseDups := by
  induction pairs generalizing entries with
  | nil =>
    rw [List.map_nil, List.append_nil, eraseDups_of_nodup h]
    rfl
  | cons first rest ih =>
    obtain ⟨name, value⟩ := first
    have hFirst : (insert name value entries).map Prod.fst =
        (entries.map Prod.fst ++ [name]).eraseDups := by
      rw [map_fst_insert, List.eraseDups_append, eraseDups_of_nodup h]
      split
      next hMem => simp [List.removeAll, hMem]
      next hMem => simp [List.removeAll, hMem, List.eraseDups_cons]
    show (insertAll (insert name value entries) rest).map Prod.fst = _
    rw [ih (nodup_insert h name value), hFirst, ← eraseDups_append_eraseDups,
      eraseDups_of_nodup (nodup_eraseDups _), eraseDups_append_eraseDups, List.map_cons,
      List.append_assoc]
    rfl

/-- **A name stands for what was put in for it last.** -/
theorem lookup_insertAll (entries pairs : List (Text × α)) (n : Text) :
    (insertAll entries pairs).lookup n = (pairs.reverse.lookup n).or (entries.lookup n) := by
  induction pairs generalizing entries with
  | nil => rfl
  | cons first rest ih =>
    obtain ⟨name, value⟩ := first
    show (insertAll (insert name value entries) rest).lookup n = _
    rw [ih, lookup_insert, List.reverse_cons, List.lookup_append, Option.or_assoc, lookup_cons]
    by_cases h : n = name
    · rw [if_pos h, if_pos h, Option.some_or]
    · rw [if_neg h, if_neg h, List.lookup_nil, Option.none_or]

theorem lookup_ofPairs (pairs : List (Text × α)) (n : Text) :
    (ofPairs pairs).lookup n = pairs.reverse.lookup n := by
  rw [ofPairs, lookup_insertAll, List.lookup_nil, Option.or_none]

theorem lookup_reverse_ofPairs (pairs : List (Text × α)) (n : Text) :
    (ofPairs pairs).reverse.lookup n = pairs.reverse.lookup n := by
  rw [← lookup_ofPairs, ofPairs_of_nodup (nodup_ofPairs pairs), lookup_ofPairs]

end Named

namespace Environment

variable {globals bindings : Bindings} {names : List (Text × Value)} {env : Environment}

/-! ### Names of keys -/

/-- The name that a key comes to, if it can be written. -/
def nameOf? (key : Value) : Option Text := key.plain.toOption.map normalizeName

/-- The value of the last binding whose key comes to a name. -/
def lastBound? (bindings : Bindings) (name : Text) : Option Value :=
  (bindings.reverse.find? fun entry => nameOf? entry.1 == some name).map Prod.snd

/-- Whether named things are what bindings come to, one by one. -/
def AreNamed (bindings : Bindings) (names : List (Text × Value)) : Prop :=
  List.Forall₂ (fun entry named => nameOf? entry.1 = some named.1 ∧ entry.2 = named.2)
    bindings names

theorem areNamed_of_namesOf (h : namesOf bindings = .ok names) : AreNamed bindings names := by
  induction bindings generalizing names with
  | nil =>
    cases h
    exact .nil
  | cons entry rest ih =>
    obtain ⟨key, hKey, h⟩ := exists_of_bind_eq_ok h
    obtain ⟨others, hOthers, h⟩ := exists_of_bind_eq_ok h
    cases h
    refine .cons ⟨?_, rfl⟩ (ih hOthers)
    rw [nameOf?, toOption_eq_some_iff.mpr hKey, Option.map_some]

theorem AreNamed.map_fst (h : AreNamed bindings names) :
    names.map Prod.fst = bindings.filterMap (nameOf? ·.1) := by
  induction h with
  | nil => rfl
  | @cons entry named rest others hFirst _ ih =>
    have hRest := @List.filterMap_cons_some _ _ (fun entry => nameOf? entry.1) entry rest _ hFirst.1
    rw [List.map_cons, hRest, ih]

theorem AreNamed.lookup (h : AreNamed bindings names) (name : Text) :
    names.lookup name =
      (bindings.find? fun entry => nameOf? entry.1 == some name).map Prod.snd := by
  induction h with
  | nil => rfl
  | @cons entry named rest others hFirst _ ih =>
    rw [List.find?_cons, hFirst.1, Named.lookup_cons, ih]
    by_cases hName : name = named.1
    · simp [hName, hFirst.2]
    · rw [if_neg hName, Option.some_beq_some, beq_eq_false_iff_ne.mpr (Ne.symm hName)]

/-- The last name of a list is that of the last binding. -/
theorem AreNamed.lookup_reverse (h : AreNamed bindings names) (name : Text) :
    names.reverse.lookup name = lastBound? bindings name :=
  AreNamed.lookup (List.rel_reverse h) name

/-! ### Two layers -/

/-- The environment of bindings that are laid over global ones. -/
def layers (globals bindings : Bindings) : Except Fault Environment := do
  (← ofBindings globals).merged bindings

theorem layers_eq_ok (h : layers globals bindings = .ok env) :
    ∃ lower upper, namesOf globals = .ok lower ∧ namesOf bindings = .ok upper ∧
      env.entries = Named.insertAll (Named.ofPairs lower) (Named.ofPairs upper) := by
  obtain ⟨base, hBase, h⟩ := exists_of_bind_eq_ok h
  obtain ⟨lower, hLower, hBase⟩ := exists_of_bind_eq_ok hBase
  cases hBase
  obtain ⟨top, hTop, h⟩ := exists_of_bind_eq_ok h
  obtain ⟨upper, hUpper, hTop⟩ := exists_of_bind_eq_ok hTop
  cases hTop
  cases h
  exact ⟨lower, upper, hLower, hUpper, rfl⟩

/-- There is such an environment just if all keys can be written. -/
theorem exists_layers_iff (globals bindings : Bindings) :
    (∃ env, layers globals bindings = .ok env) ↔
      ∀ entry ∈ globals ++ bindings, ∃ s, entry.1.plain = .ok s := by
  rw [layers, exists_bind_eq_ok_iff fun base => exists_merged_iff base bindings, ofBindings,
    exists_bind_pure_eq_ok_iff, exists_namesOf_iff, List.forall_mem_append]
  simp only [Value.exists_plain_iff]

/-- What a name is bound to in two layers. -/
def boundIn? (globals bindings : Bindings) (name : Text) : Option Value :=
  (lastBound? bindings name).or (lastBound? globals name)

theorem lookup_layers (h : layers globals bindings = .ok env) (name : Text) :
    env.lookup name = boundIn? globals bindings name := by
  obtain ⟨lower, upper, hLower, hUpper, hEntries⟩ := layers_eq_ok h
  rw [lookup, hEntries, Named.lookup_insertAll, Named.lookup_reverse_ofPairs, Named.lookup_ofPairs,
    (areNamed_of_namesOf hLower).lookup_reverse, (areNamed_of_namesOf hUpper).lookup_reverse,
    boundIn?]

theorem map_fst_layers (h : layers globals bindings = .ok env) :
    env.entries.map Prod.fst = ((globals ++ bindings).filterMap (nameOf? ·.1)).eraseDups := by
  obtain ⟨lower, upper, hLower, hUpper, hEntries⟩ := layers_eq_ok h
  have hOfPairs (pairs : List (Text × Value)) :
      (Named.ofPairs pairs).map Prod.fst = (pairs.map Prod.fst).eraseDups :=
    Named.map_fst_insertAll List.nodup_nil
  rw [hEntries, Named.map_fst_insertAll (Named.nodup_ofPairs lower), hOfPairs, hOfPairs,
    eraseDups_append_eraseDups, (areNamed_of_namesOf hLower).map_fst,
    (areNamed_of_namesOf hUpper).map_fst, List.filterMap_append]

end Environment

namespace Condition

open Environment

variable {env : Environment} {dollar : Bool} {name : Text} {value : Value}

/-! ### Names in conditions -/

/-- What it means that a word stands for a variable in all conditions, and what its value is. -/
structure StandsFor (env : Environment) (word : Lexeme) (name : Text) (value : Value) : Prop where
  /-- By itself the word is a condition of that value, where there is room for the levels of the
  parser. -/
  alone {room : Nat} : 13 ≤ room →
    ∃ c, compile word.text room = .ok c ∧ c.evaluate env room = .ok value
  /-- Where it is a token of a condition, it is a name, which spells the variable. -/
  within {source : Text} {located : List Located} : tokens source = .ok located →
    ∀ t ∈ located, Lexeme.first? (source.drop t.position) = some word →
      t.token = .name name ∧ Derives primaryLevel [t.token] (.variable name)
  /-- The variable has the value, wherever it stands in an expression. -/
  evaluated (depth : Nat) : (Expr.variable name).evaluate env (depth + 1) = .ok value

theorem standsFor_word (env : Environment) (hName : Text.IsIdentifier name)
    (h : dollar = true ∨ Keyword.ofWord? name = none) :
    StandsFor env (.word dollar name) name ((env.lookup name).getD .null) where
  alone hRoom := by
    obtain ⟨more, rfl⟩ := Nat.exists_eq_add_of_le' hRoom
    exact ⟨_, compile_word hName h hRoom, rfl⟩
  within hTokens t hMem hWord := by
    obtain ⟨lexeme, hFirst, hToken⟩ := exists_isReadAt hTokens t hMem
    cases hFirst.symm.trans hWord
    have hEq := hToken.symm.trans (Lexeme.token?_word h t.position)
    have hName := Option.some.inj (Except.ok.inj hEq)
    exact ⟨hName, hName ▸ .name name⟩
  evaluated _ := rfl

/-- A compiled condition has the value that it has where just its names are bound. -/
theorem evaluate_eq_of_lookup {source : Text} {room : Nat} {c : Compiled}
    (h : compile source room = .ok c) {valueOf : Text → Value}
    (hEnv : ∀ name, (env.lookup name).getD .null = valueOf name) (room' : Nat) :
    c.evaluate env room' = c.evaluate ⟨c.names.map fun name => (name, valueOf name)⟩ room' := by
  refine evaluate_congr_of_names h (fun name hName => ?_) room'
  rw [hEnv, Environment.lookup, List.lookup_graph valueOf hName, Option.getD_some]

/-- **Bindings that are laid over others are what all conditions see.** There is an environment of
both if all keys can be written. It binds a name to the value of the last binding that comes to it,
in the upper layer if there is one there, and its names stand in the order in which they came first.
An identifier has that value in every condition, behind a dollar sign or, if it is no keyword,
without it, and one that is not bound is nothing. -/
theorem layers_bind_last (globals bindings : Bindings) :
    ((∃ env, layers globals bindings = .ok env) ↔
      ∀ entry ∈ globals ++ bindings, ∃ s, entry.1.plain = .ok s) ∧
    ∀ env, layers globals bindings = .ok env →
      (∀ name, env.lookup name = boundIn? globals bindings name) ∧
      env.entries.map Prod.fst = ((globals ++ bindings).filterMap (nameOf? ·.1)).eraseDups ∧
      (∀ dollar name, Text.IsIdentifier name → (dollar = true ∨ Keyword.ofWord? name = none) →
        StandsFor env (.word dollar name) name ((boundIn? globals bindings name).getD .null)) ∧
      ∀ source room c, compile source room = .ok c →
        (∃ located, tokens source = .ok located ∧ Derives 0 (located.map Located.token) c.root) ∧
        ∀ room', c.evaluate env room' = c.evaluate
          ⟨c.names.map fun name => (name, (boundIn? globals bindings name).getD .null)⟩ room' := by
  refine ⟨exists_layers_iff globals bindings, fun env hEnv => ?_⟩
  have hLookup := lookup_layers hEnv
  have hValue (name : Text) :
      (env.lookup name).getD .null = (boundIn? globals bindings name).getD .null := by
    rw [hLookup]
  refine ⟨hLookup, map_fst_layers hEnv, fun dollar name hName hWord => ?_,
    fun source room c hc => ?_⟩
  · rw [← hValue]
    exact standsFor_word env hName hWord
  · obtain ⟨located, hTokens, hParse, -⟩ := exists_tokens_of_compile hc
    exact ⟨⟨located, hTokens, Parser.derives_of_parse hParse⟩, evaluate_eq_of_lookup hc hValue⟩

/-- Keys that come to one name: as texts with and without a dollar sign. -/
def doubledKeys : Bindings :=
  [(.text ['x'], .int 1), (.int 1, .bool true), (.text ['$', 'x'], .int 2)]

/-- Keys that come to these names again, one with two dollar signs, and a keyword. -/
def overlaidKeys : Bindings :=
  [(.text ['$', '$', 'x'], .null), (.sql ['$', '1'], .int 3), (.text ['o', 'r'], .int 4)]

/-- The environment of both. -/
def overlaid : Environment :=
  ⟨[(['x'], .int 2), (['1'], .int 3), (['$', 'x'], .null), (['o', 'r'], .int 4)]⟩

/-- A name, a keyword behind a dollar sign and what is not bound. -/
theorem layers_bind_last_overlaid :
    layers doubledKeys overlaidKeys = .ok overlaid ∧
      boundIn? doubledKeys overlaidKeys ['x'] = some (.int 2) ∧
      overlaid.entries.map Prod.fst =
        ((doubledKeys ++ overlaidKeys).filterMap (nameOf? ·.1)).eraseDups ∧
      StandsFor overlaid (.word false ['x']) ['x'] (.int 2) ∧
      StandsFor overlaid (.word true ['o', 'r']) ['o', 'r'] (.int 4) ∧
      StandsFor overlaid (.word true ['y']) ['y'] .null ∧
      ∃ c, compile ['$', 'o', 'r'] = .ok c ∧
        ∃ located, tokens ['$', 'o', 'r'] = .ok located ∧
          Derives 0 (located.map Located.token) c.root := by
  have hOne : (Value.int 1).plain = .ok ['1'] := toOption_eq_some_iff.mp (by decide +kernel)
  have hGlobals : namesOf doubledKeys =
      .ok [(['x'], .int 1), (['1'], .bool true), (['x'], .int 2)] := by
    rw [doubledKeys, namesOf, namesOf, hOne]
    rfl
  have hLayers : layers doubledKeys overlaidKeys = .ok overlaid := by
    rw [layers, ofBindings, hGlobals]
    rfl
  obtain ⟨hLookup, hNames, hWords, hConditions⟩ :=
    (layers_bind_last doubledKeys overlaidKeys).2 overlaid hLayers
  have hOr : Text.IsIdentifier ['o', 'r'] := ⟨by decide, rfl⟩
  have hBound := hWords false ['x'] ⟨by decide, rfl⟩ (.inr rfl)
  have hKeyword := hWords true ['o', 'r'] hOr (.inl rfl)
  have hUnbound := hWords true ['y'] ⟨by decide, rfl⟩ (.inl rfl)
  rw [← hLookup] at hBound hKeyword hUnbound
  have hCompile := compile_word hOr (.inl rfl : true = true ∨ _) (by decide : 13 ≤ usualRoom)
  exact ⟨hLayers, (hLookup ['x']).symm, hNames, hBound, hKeyword, hUnbound, _, hCompile,
    (hConditions _ _ _ hCompile).1⟩

end Condition

end SqlTemplate
