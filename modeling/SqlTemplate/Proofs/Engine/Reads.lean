import SqlTemplate.Proofs.Engine.Agreement
import SqlTemplate.Proofs.Engine.Substitution
import SqlTemplate.Proofs.Engine.Trimmed

/-!
# The names that a substituted template reads

Rendering reads the names of the conditions that it evaluates, and substitution those that the
rendered text refers to (`Rendering.reads`). As long as all of them are listed by `parameters`, the
listed names determine the result. The conditions always are, in a template without warnings all of
whose braces begin tags. A reference need not be: where a directive is resolved, what stood before
it and what stood behind it come together, and so may a reference and letters that make it longer.
**The listed names determine the result just when no such reference is read**
(`determined_by_listed_names`).
-/

namespace SqlTemplate

open Template (BracesAreTags check parameters references)

/-- The names that a rendering reads where there is some room, and then the substitution in its
text. -/
def Rendering.reads (room : Nat) (r : Rendering) : List Text :=
  r.trace.flatMap (fun e => Condition.names e.condition (room - 1 - 1)) ++
    match r.result with
    | .ok text => references text
    | .error _ => []

namespace Substitution

variable {bindings bindings' : Bindings} {names names' : List (Text × Value)}

/-- Whether two lists of variables have keys with dollar signs and bind the same to some names. -/
def AgreeOn (listed : List Text) (bindings bindings' : Bindings) : Prop :=
  ∃ names names', namesOf bindings = .ok names ∧ namesOf bindings' = .ok names' ∧
    ∀ name ∈ listed, (Named.ofPairs names).lookup name = (Named.ofPairs names').lookup name

/-- Whether all variables that agree with some on the names that a template lists where there is
some room have the same result where there may be other room. -/
def Determined (text : Text) (bindings : Bindings) (room room' : Nat) : Prop :=
  ∀ bindings', AgreeOn (parameters text room) bindings bindings' →
    render .default (.text text) (some bindings') room' =
      render .default (.text text) (some bindings) room'

/-! ### Listed names -/

/-- **Variables that agree on all that is read have the same result.** -/
theorem render_eq_of_reads {text : Text} {room : Nat} (settings : Settings)
    (h : namesOf bindings = .ok names) (h' : namesOf bindings' = .ok names')
    (hAgree : ∀ name ∈ (Rendering.render settings.trim ⟨Named.ofPairs names⟩ text
        (room - 1 - 1)).reads (room - 1 - 1),
      (Named.ofPairs names).lookup name = (Named.ofPairs names').lookup name) :
    render settings (.text text) (some bindings') room =
      render settings (.text text) (some bindings) room := by
  have hRender : Rendering.render settings.trim ⟨Named.ofPairs names⟩ text (room - 1 - 1) =
      Rendering.render settings.trim ⟨Named.ofPairs names'⟩ text (room - 1 - 1) := by
    refine Rendering.render_congr fun e he => Condition.outcome_congr fun name hName => ?_
    exact hAgree name (List.mem_append_left _ (List.mem_flatMap.mpr ⟨e, he, hName⟩))
  rw [render_of_namesOf settings text h room, render_of_namesOf settings text h' room, ← hRender]
  cases hResult :
    (Rendering.render settings.trim ⟨Named.ofPairs names⟩ text (room - 1 - 1)).result with
  | error fault => rfl
  | ok rendered =>
    have hFill : fill (Named.ofPairs names) rendered = fill (Named.ofPairs names') rendered := by
      refine fill_congr fun name hName => hAgree name (List.mem_append_right _ ?_)
      rwa [hResult]
    show ((fill _ rendered).map Value.text).mapError RenderError.fault = _
    rw [← hFill]
    rfl

/-- Variables that bind one name to some SQL and are otherwise as they were. -/
def rebind (names : List (Text × Value)) (name sql : Text) : List (Text × Value) :=
  Named.insert name (.sql sql) (Named.ofPairs names)

/-- Names with dollar signs in front, as keys. -/
def marked (names : List (Text × Value)) : Bindings :=
  names.map fun (name, value) => (.text ('$' :: name), value)

theorem namesOf_marked (names : List (Text × Value)) : namesOf (marked names) = .ok names := by
  induction names with
  | nil => rfl
  | cons first rest ih =>
    obtain ⟨name, value⟩ := first
    show (namesOf (marked rest) >>= fun others => pure ((name, value) :: others)) = _
    rw [ih]
    rfl

theorem lookup_rebind (names : List (Text × Value)) (name sql n : Text) :
    (Named.ofPairs (rebind names name sql)).lookup n =
      if n = name then some (.sql sql) else (Named.ofPairs names).lookup n := by
  rw [rebind, Named.ofPairs_of_nodup (Named.nodup_insert (Named.nodup_ofPairs names) _ _),
    Named.lookup_insert]

/-- A name that a text refers to can be bound to so long an SQL that another text is filled in. -/
theorem exists_fill_rebind_ne {text result : Text}
    (h : fill (Named.ofPairs names) text = .ok result) {name : Text}
    (hName : name ∈ references text) :
    ∃ sql result', fill (Named.ofPairs (rebind names name sql)) text = .ok result' ∧
      result' ≠ result := by
  obtain ⟨sql, hSql⟩ : ∃ sql : Text, sql.length = result.length + 1 :=
    ⟨List.replicate (result.length + 1) 'x', List.length_replicate⟩
  have hLookup := lookup_rebind names name sql
  obtain ⟨result', hResult'⟩ :
      ∃ result', fill (Named.ofPairs (rebind names name sql)) text = .ok result' := by
    refine Template.exists_substitute fun n hn e => ?_
    rw [hLookup]
    by_cases hSame : n = name
    · rw [if_pos hSame]
      exact nofun
    · rw [if_neg hSame]
      exact (Template.exists_replacement_of_substitute h hn).1 e
  have hLong : sql.length ≤ result'.length :=
    (Template.exists_replacement_of_substitute hResult' hName).2 sql
      (by rw [hLookup, if_pos rfl]; rfl)
  refine ⟨sql, result', hResult', ?_⟩
  rintro rfl
  omega

/-- So a reference that is not listed makes a difference between variables that agree on the listed
names. -/
theorem exists_agreeOn_ne {text rendered result : Text} {room room' : Nat}
    (hTags : BracesAreTags text) (hCheck : check text room = []) (h : namesOf bindings = .ok names)
    (hRendered : (Rendering.render Settings.default.trim ⟨Named.ofPairs names⟩ text
      (room' - 1 - 1)).result = .ok rendered)
    (hFill : fill (Named.ofPairs names) rendered = .ok result) {name : Text}
    (hReference : name ∈ references rendered) (hUnlisted : name ∉ parameters text room) :
    ∃ bindings', AgreeOn (parameters text room) bindings bindings' ∧
      render .default (.text text) (some bindings') room' ≠ .ok (.text result) := by
  obtain ⟨sql, result', hFill', hne⟩ := exists_fill_rebind_ne hFill hReference
  have hAgree : ∀ n ∈ parameters text room, (Named.ofPairs names).lookup n =
      (Named.ofPairs (rebind names name sql)).lookup n := by
    intro n hn
    rw [lookup_rebind, if_neg]
    rintro rfl
    exact hUnlisted hn
  have hRendered' : (Rendering.render Settings.default.trim
      ⟨Named.ofPairs (rebind names name sql)⟩ text (room' - 1 - 1)).result = .ok rendered := by
    have hEnv : ∀ n ∈ parameters text room, (Environment.mk (Named.ofPairs names)).lookup n =
        (Environment.mk (Named.ofPairs (rebind names name sql))).lookup n := hAgree
    rw [← Rendering.render_eq_of_parameters hTags hCheck hEnv, hRendered]
  refine ⟨marked (rebind names name sql), ⟨names, _, h, namesOf_marked _, hAgree⟩, ?_⟩
  rw [(render_eq_ok_iff (namesOf_marked _)).mpr ⟨rendered, result', hRendered', hFill', rfl⟩]
  intro hSame
  cases hSame
  exact hne rfl

/-- **The listed names determine the result of a template as long as all names that are read are
listed.** In a template without warnings, all of whose braces begin tags, and where there is a
result, they do so only then: if the rendered text refers to a name that is not listed, another
binding of this name alone has another result. -/
theorem determined_by_listed_names (text : Text) (bindings : Bindings)
    (names : List (Text × Value)) (h : namesOf bindings = .ok names) (room room' : Nat) :
    let reads := (Rendering.render Settings.default.trim ⟨Named.ofPairs names⟩ text
      (room' - 1 - 1)).reads (room' - 1 - 1)
    ((∀ name ∈ reads, name ∈ parameters text room) → Determined text bindings room room') ∧
    (BracesAreTags text → check text room = [] →
      (∃ result, render .default (.text text) (some bindings) room' = .ok result) →
      Determined text bindings room room' → ∀ name ∈ reads, name ∈ parameters text room) := by
  intro reads
  constructor
  · rintro hListed bindings' ⟨_, names', hNames, hNames', hAgree⟩
    cases h.symm.trans hNames
    exact render_eq_of_reads .default h hNames' fun name hName => hAgree name (hListed name hName)
  · rintro hTags hCheck ⟨_, hOk⟩ hDetermined name hName
    obtain ⟨rendered, result, hRendered, hFill, rfl⟩ := (render_eq_ok_iff h).mp hOk
    rcases List.mem_append.mp hName with hCondition | hReference
    · obtain ⟨e, he, hRead⟩ := List.mem_flatMap.mp hCondition
      exact Rendering.mem_parameters_of_mem_trace hTags hCheck he hRead
    · refine Classical.byContradiction fun hUnlisted => ?_
      rw [hRendered] at hReference
      obtain ⟨bindings', hAgree, hne⟩ :=
        exists_agreeOn_ne hTags hCheck h hRendered hFill hReference hUnlisted
      exact hne ((hDetermined bindings' hAgree).trans hOk)

/-! ### A reference that gets longer -/

/-- A reference at the end of a branch, and a letter behind the directive. -/
def gluedTree : Template.Tree :=
  .whenHolds ['a'] (.literal ['$', 'a'] .done) (.literal ['b'] .done)

theorem isPlain_gluedTree : gluedTree.IsPlain :=
  ⟨⟨by decide, by decide⟩, ⟨by decide, trivial⟩, by decide, trivial⟩

theorem check_gluedTree : check gluedTree.print Condition.usualRoom = [] := by
  refine Template.check_print isPlain_gluedTree ⟨?_, trivial, trivial⟩
  rw [Condition.compile_name Engine.isIdentifier_a rfl (by decide)]
  rfl

theorem pieces_glued : Template.pieces ['$', 'a', 'b'] = [.reference ['a', 'b']] := by
  simp [Template.pieces, Text.identifier, Text.isIdentifierStart, Text.isIdentifierPart]

/-- The longer reference is not listed. -/
theorem parameters_gluedTree : parameters gluedTree.print Condition.usualRoom = [['a']] := by
  have hNames : Condition.names ['a'] (Condition.usualRoom - 1) = [['a']] :=
    Condition.names_name Engine.isIdentifier_a rfl (by decide)
  have hConditions : Template.conditions gluedTree.print = [(0, ['a'])] := by decide
  have hOutside : (Template.outside gluedTree.print).flatMap references = [['a']] := by
    rw [Template.outside, hConditions]
    show references [] ++ (references ('$' :: 'a' :: _) ++ []) = _
    rw [Template.references_of_notMem List.not_mem_nil, Template.references_cons,
      if_pos (by decide), Template.references_of_notMem (by decide)]
    rfl
  rw [Template.parameters_eq, hOutside, hConditions, List.flatMap_singleton, hNames]
  rfl

theorem render_gluedTree {env : Environment} {b : Bool} (h : env.lookup ['a'] = some (.bool b)) :
    Rendering.render Settings.default.trim env gluedTree.print (Condition.usualRoom - 1 - 1) =
      ⟨[⟨['a'], .ok (.evaluated b)⟩], .ok (if b then ['$', 'a', 'b'] else ['b'])⟩ := by
  have hRoom : 14 ≤ Condition.usualRoom - 1 - 1 - 1 := by decide
  have hOutcome := Condition.outcome_name Engine.isIdentifier_a rfl hRoom env
  rw [h] at hOutcome
  refine (Rendering.render_print_trimmed isPlain_gluedTree ⟨trivial, trivial⟩ env _).trans ?_
  simp only [gluedTree, Template.Tree.trimmedRendering, Template.Tree.trimmedFrom, Rendering.branch,
    hOutcome]
  cases b <;> rfl

theorem reads_gluedTree {env : Environment} {b : Bool} (h : env.lookup ['a'] = some (.bool b)) :
    (Rendering.render Settings.default.trim env gluedTree.print
      (Condition.usualRoom - 1 - 1)).reads (Condition.usualRoom - 1 - 1) =
      ['a'] :: if b then [['a', 'b']] else [] := by
  have hNames : Condition.names ['a'] (Condition.usualRoom - 1 - 1 - 1 - 1) = [['a']] :=
    Condition.names_name Engine.isIdentifier_a rfl (by decide)
  have hLong : references ['$', 'a', 'b'] = [['a', 'b']] := by rw [references, pieces_glued]; rfl
  have hNone : references ['b'] = [] := Template.references_of_notMem (by decide)
  rw [render_gluedTree h, Rendering.reads, List.flatMap_singleton, hNames]
  cases b with
  | true => exact congrArg _ hLong
  | false => exact congrArg _ hNone

/-- If the condition holds, the longer reference is filled in, or stays if its name is not bound. -/
theorem render_gluedTree_of_holds (h : namesOf bindings = .ok names)
    (hA : (Named.ofPairs names).lookup ['a'] = some (.bool true)) {s : Text}
    (hs : (((Named.ofPairs names).lookup ['a', 'b']).map literalText).getD (.ok ['$', 'a', 'b']) =
      .ok s) :
    render .default (.text gluedTree.print) (some bindings) Condition.usualRoom =
      .ok (.text s) := by
  refine (render_eq_ok_iff h).mpr ⟨['$', 'a', 'b'], s, ?_, ?_, rfl⟩
  · have hEnv : (Environment.mk (Named.ofPairs names)).lookup ['a'] = some (.bool true) := hA
    rw [render_gluedTree hEnv]
    rfl
  · refine Template.substitute_eq_ok_iff.mpr ⟨[s], ?_, List.append_nil s⟩
    rw [pieces_glued, List.mapM_cons, Template.substitutePiece, Template.Piece.text, hs]
    rfl

/-- Nothing unlisted is read if the condition does not hold, but the longer reference is if it
does. -/
theorem determined_by_listed_names_glued :
    Determined gluedTree.print [(.text ['$', 'a'], .bool false)] Condition.usualRoom
        Condition.usualRoom ∧
      ¬Determined gluedTree.print [(.text ['$', 'a'], .bool true)] Condition.usualRoom
        Condition.usualRoom := by
  constructor
  · refine (determined_by_listed_names gluedTree.print _ [(['a'], .bool false)] rfl _ _).1 ?_
    rw [reads_gluedTree rfl, parameters_gluedTree]
    exact fun _ hName => hName
  · intro h
    have hTags : BracesAreTags gluedTree.print :=
      Template.IsPrinted.bracesAreTags ⟨_, isPlain_gluedTree, rfl⟩
    have hListed := (determined_by_listed_names gluedTree.print _ [(['a'], .bool true)] rfl
      _ _).2 hTags check_gluedTree ⟨_, render_gluedTree_of_holds rfl rfl rfl⟩ h ['a', 'b']
    rw [reads_gluedTree rfl, parameters_gluedTree] at hListed
    exact absurd (hListed (by decide)) (by decide)

/-- The listed names do not always determine the result. -/
theorem not_determined_gluedTree :
    ¬∀ (text : Text) (bindings bindings' : Bindings), check text Condition.usualRoom = [] →
      AgreeOn (parameters text Condition.usualRoom) bindings bindings' →
      render .default (.text text) (some bindings) Condition.usualRoom =
        render .default (.text text) (some bindings') Condition.usualRoom := by
  intro h
  have hAgree : AgreeOn (parameters gluedTree.print Condition.usualRoom)
      [(.text ['$', 'a'], .bool true), (.text ['$', 'a', 'b'], .bool true)]
      [(.text ['$', 'a'], .bool true)] := by
    refine ⟨_, _, rfl, rfl, fun name hName => ?_⟩
    rw [parameters_gluedTree] at hName
    obtain rfl := List.mem_singleton.mp hName
    rfl
  have hBound : render .default (.text gluedTree.print)
      (some [(.text ['$', 'a'], .bool true), (.text ['$', 'a', 'b'], .bool true)])
      Condition.usualRoom = .ok (.text "TRUE".toList) := render_gluedTree_of_holds rfl rfl rfl
  have hUnbound : render .default (.text gluedTree.print) (some [(.text ['$', 'a'], .bool true)])
      Condition.usualRoom = .ok (.text ['$', 'a', 'b']) := render_gluedTree_of_holds rfl rfl rfl
  have hSame := h gluedTree.print _ _ check_gluedTree hAgree
  rw [hBound, hUnbound] at hSame
  cases hSame

end Substitution

end SqlTemplate
