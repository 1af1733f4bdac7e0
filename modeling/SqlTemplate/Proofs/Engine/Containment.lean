import SqlTemplate.Proofs.Engine.Substitution
import SqlTemplate.Proofs.Literal.Outside

/-!
# Texts that are substituted stay inside their quotes

Where all references are replaced or kept without a failure, substitution writes a text piece by
piece (`Template.replace`). If what replaces a reference is a literal and the reference stood
outside quotes, the reader that comes to the literal outside quotes leaves it outside quotes, and
reads on as if the reference had not been there (`Template.outside_replace`).

So **variables that are texts cannot change the SQL around them** (`outside_render`): whatever they
are, what stands outside quotes is what stood there without the references.
-/

namespace SqlTemplate

open Literal (endsQuoted outside quote)

namespace Template

/-- The text of a piece in which a reference may be replaced. -/
def Piece.replaced (replacement : Text → Option Text) : Piece → Text
  | reference name => (replacement name).getD (reference name).text
  | char c => (char c).text

/-- A text in which references are replaced, where this cannot fail. -/
def replace (replacement : Text → Option Text) (text : Text) : Text :=
  (pieces text).flatMap (Piece.replaced replacement)

/-- A text without its references to the names that are bound. -/
def dropReferences (bound : Text → Bool) (text : Text) : Text :=
  replace (fun name => if bound name then some [] else none) text

/-- Whether in front of every reference to a bound name there is an even number of quotes, so that
the reference stands outside quotes. -/
def ReferencesOutside (bound : Text → Bool) (text : Text) : Prop :=
  ∀ before name after, pieces text = before ++ .reference name :: after → bound name →
    (before.flatMap Piece.text).count '\'' % 2 = 0

/-- Substitution that cannot fail. -/
theorem substitute_eq_replace {ε : Type} {replacement : Text → Option (Except ε Text)}
    {replacement' : Text → Option Text} {text : Text}
    (h : ∀ name ∈ references text, replacement name = (replacement' name).map .ok) :
    substitute replacement text = .ok (replace replacement' text) := by
  have hPieces : (pieces text).mapM (substitutePiece replacement) =
      .ok ((pieces text).map (Piece.replaced replacement')) := by
    have hEach : ∀ piece ∈ pieces text,
        substitutePiece replacement piece = .ok (piece.replaced replacement') := by
      intro piece hPiece
      cases piece with
      | char c => rfl
      | reference name =>
        rw [substitutePiece, Piece.replaced, h name (mem_references.mpr hPiece)]
        cases replacement' name <;> rfl
    rw [mapM_congr hEach]
    exact List.mapM_pure
  rw [substitute, hPieces]
  exact congrArg Except.ok List.flatMap_def.symm

/-- A reference has no quote. -/
theorem notMem_reference {text name : Text} (h : .reference name ∈ pieces text) :
    '\'' ∉ (Piece.reference name).text := by
  fun_induction pieces text with
  | case1 => cases h
  | case2 c rest name' hc ih =>
    rcases List.mem_cons.mp h with hFirst | hRest
    · have hAll := List.all_eq_true.mp (Text.all_identifier rest)
      rw [Piece.reference.inj hFirst, Piece.text, List.mem_cons, not_or]
      exact ⟨by decide, fun hQuote => absurd (hAll _ hQuote) (by decide)⟩
    · exact ih hRest
  | case3 c rest name' hc ih =>
    rcases List.mem_cons.mp h with hFirst | hRest
    · cases hFirst
    · exact ih hRest

/-- The reader is on the same side of the quotes in front of a piece, whether the references before
it were replaced by literals or taken away. The induction is on the pieces to come; the side is that
of the text with its references. -/
theorem outside_flatMap_replaced {replacement : Text → Option Text} {quoted : Bool}
    {ps : List Piece}
    (hQuote : ∀ name t, .reference name ∈ ps → replacement name = some t → ∃ s, t = quote s)
    (hPlain : ∀ name, .reference name ∈ ps → '\'' ∉ (Piece.reference name).text)
    (hOutside : ∀ before name after, ps = before ++ .reference name :: after →
      (replacement name).isSome → endsQuoted quoted (before.flatMap Piece.text) = false) :
    outside quoted (ps.flatMap (Piece.replaced replacement)) =
      outside quoted (ps.flatMap (Piece.replaced fun name =>
        if (replacement name).isSome then some [] else none)) := by
  induction ps generalizing quoted with
  | nil => rfl
  | cons piece ps ih =>
    have hRest := @ih (endsQuoted quoted piece.text)
      (fun name t h => hQuote name t (List.mem_cons_of_mem _ h))
      (fun name h => hPlain name (List.mem_cons_of_mem _ h))
      (fun before name after h hBound => by
        rw [← Literal.endsQuoted_append, ← List.flatMap_cons]
        exact hOutside (piece :: before) name after (by rw [h, List.cons_append]) hBound)
    -- A piece that stays takes both readers to the same side.
    have hKept (h : piece.replaced replacement = piece.text)
        (h' : (piece.replaced fun name => if (replacement name).isSome then some [] else none) =
          piece.text) :
        outside quoted ((piece :: ps).flatMap (Piece.replaced replacement)) =
          outside quoted ((piece :: ps).flatMap (Piece.replaced fun name =>
            if (replacement name).isSome then some [] else none)) := by
      rw [List.flatMap_cons, List.flatMap_cons, h, h', Literal.outside_append,
        Literal.outside_append, hRest]
    cases piece with
    | char c => exact hKept rfl rfl
    | reference name =>
      cases hName : replacement name with
      | none => exact hKept (by simp [Piece.replaced, hName]) (by simp [Piece.replaced, hName])
      | some t =>
        obtain ⟨s, rfl⟩ := hQuote name t List.mem_cons_self hName
        obtain rfl : quoted = false := by
          simpa using hOutside [] name ps rfl (by rw [hName]; rfl)
        rw [Literal.endsQuoted_of_notMem (hPlain name List.mem_cons_self)] at hRest
        simp only [List.flatMap_cons, Piece.replaced, hName, Option.isSome_some, if_true,
          Option.getD_some, List.nil_append]
        rw [Literal.outside_quote_append]
        exact hRest

/-- **References outside quotes that are replaced by literals leave what stands outside quotes as it
was without them.** -/
theorem outside_replace {replacement : Text → Option Text} {text : Text}
    (hQuote : ∀ name ∈ references text, ∀ t, replacement name = some t → ∃ s, t = quote s)
    (hOutside : ReferencesOutside (fun name => (replacement name).isSome) text) :
    outside false (replace replacement text) =
      outside false (dropReferences (fun name => (replacement name).isSome) text) := by
  refine outside_flatMap_replaced
    (fun name t hName => hQuote name (mem_references.mpr hName) t)
    (fun name hName => notMem_reference hName) ?_
  intro before name after hSplit hBound
  rw [endsQuoted, hOutside before name after hSplit hBound]
  rfl

end Template

namespace Substitution

open Template (ReferencesOutside dropReferences references replace)

variable {bindings bindings' : Bindings} {names names' : List (Text × Value)}

/-- Whether variables bind a name. -/
def isBound (names : List (Text × Value)) (name : Text) : Bool :=
  ((Named.ofPairs names).lookup name).isSome

/-- Whether the directives of a template are rendered to a text with variables whose keys have
dollar signs, and the variables that the text refers to are plain texts. -/
structure RendersTexts (settings : Settings) (template : Value) (bindings : Bindings)
    (names : List (Text × Value)) (rendered : Text) (room : Nat) : Prop where
  /-- The keys have dollar signs, and the names are what stands behind them. -/
  keys : namesOf bindings = .ok names
  /-- The directives are rendered to the text. -/
  result : ∃ trace, Engine.render ⟨⟨[]⟩, settings.trim, settings.debug⟩ template bindings
    (room - 1) = .ok ⟨trace, .ok rendered⟩
  /-- What the text refers to is bound to texts that are quoted, or not at all. -/
  texts : ∀ name ∈ references rendered, ∀ v, (Named.ofPairs names).lookup name = some v →
    ∃ s, v = .text s

/-- The names of variables are what stands behind the dollar signs of their keys. -/
theorem mem_names_iff (h : namesOf bindings = .ok names) {name : Text} :
    name ∈ names.map Prod.fst ↔ ∃ key ∈ bindings.map Prod.fst, key.plain = .ok ('$' :: name) := by
  induction bindings generalizing names with
  | nil =>
    cases h
    simp
  | cons first rest ih =>
    obtain ⟨key, value⟩ := first
    obtain ⟨n, others, hKey, hRest, rfl⟩ := of_namesOf_cons h
    simp only [List.map_cons, List.mem_cons, ih hRest, exists_eq_or_imp, hKey,
      Except.ok.injEq, List.cons.injEq, true_and, @eq_comm _ n name]

/-- Variables with the same keys bind the same names. -/
theorem isBound_eq (h : namesOf bindings = .ok names) (h' : namesOf bindings' = .ok names')
    (hKeys : ∀ key, key ∈ bindings.map Prod.fst ↔ key ∈ bindings'.map Prod.fst) :
    isBound names = isBound names' := by
  funext name
  rw [Bool.eq_iff_iff, isBound, isBound, Named.isSome_lookup, Named.isSome_lookup,
    Named.mem_map_fst_ofPairs, Named.mem_map_fst_ofPairs, mem_names_iff h, mem_names_iff h']
  simp only [hKeys]

/-- Texts are filled in, and what stands outside quotes is what stood there without the
references. -/
theorem RendersTexts.exists_render {settings : Settings} {template : Value} {rendered : Text}
    {room : Nat} (h : RendersTexts settings template bindings names rendered room)
    (hOutside : ReferencesOutside (isBound names) rendered) :
    ∃ filled, render settings template (some bindings) room = .ok (.text filled) ∧
      outside false filled = outside false (dropReferences (isBound names) rendered) := by
  obtain ⟨trace, hResult⟩ := h.result
  -- The literal of every text that is referred to.
  let replacement (name : Text) : Option Text :=
    ((Named.ofPairs names).lookup name).map fun v => quote (v.text?.getD [])
  have hBound : (fun name => (replacement name).isSome) = isBound names := by
    funext name
    exact Option.isSome_map
  have hFill : fill (Named.ofPairs names) rendered = .ok (replace replacement rendered) := by
    refine Template.substitute_eq_replace fun name hName => ?_
    cases hLookup : (Named.ofPairs names).lookup name with
    | none => simp [replacement, hLookup]
    | some v =>
      obtain ⟨s, rfl⟩ := h.texts name hName v hLookup
      simp only [replacement, hLookup, Option.map_some]
      rfl
  have hQuote : ∀ name ∈ references rendered, ∀ t, replacement name = some t →
      ∃ s, t = quote s := by
    intro name _ t ht
    obtain ⟨v, -, rfl⟩ := Option.map_eq_some_iff.mp ht
    exact ⟨_, rfl⟩
  refine ⟨replace replacement rendered, ?_, ?_⟩
  · rw [render_of_engine h.keys hResult]
    show ((fill _ rendered).map Value.text).mapError RenderError.fault = _
    rw [hFill]
    rfl
  · rw [← hBound] at hOutside ⊢
    exact Template.outside_replace hQuote hOutside

/-- **Variables that are texts cannot change the SQL around them.** Two lists of variables with the
same keys, with which the directives of a template are rendered to the same text, have results if
the variables that this text refers to are texts; and if all references to bound names stand
outside quotes, then outside quotes both results are what the text is without these references. -/
theorem outside_render (settings : Settings) (template : Value) (rendered : Text)
    (bindings bindings' : Bindings) (names names' : List (Text × Value))
    (room room' : Nat) (h : RendersTexts settings template bindings names rendered room)
    (h' : RendersTexts settings template bindings' names' rendered room')
    (hKeys : ∀ key, key ∈ bindings.map Prod.fst ↔ key ∈ bindings'.map Prod.fst)
    (hOutside : ReferencesOutside (isBound names) rendered) :
    ∃ filled filled', render settings template (some bindings) room = .ok (.text filled) ∧
      render settings template (some bindings') room' = .ok (.text filled') ∧
      outside false filled = outside false filled' ∧
      outside false filled = outside false (dropReferences (isBound names) rendered) := by
  have hBound := isBound_eq h.keys h'.keys hKeys
  obtain ⟨filled, hFilled, hSame⟩ := h.exists_render hOutside
  obtain ⟨filled', hFilled', hSame'⟩ := h'.exists_render (hBound ▸ hOutside)
  rw [← hBound] at hSame'
  exact ⟨filled, filled', hFilled, hFilled', hSame.trans hSame'.symm, hSame⟩

/-- Quotes, two references one behind the other, and texts that look like SQL, like a reference and
like a tag. -/
theorem outside_render_adjacent :
    ∃ filled filled',
      render .default (.text "''<>$a$b".toList) (some [(.text ['$', 'a'], .text "' OR '".toList),
        (.text ['$', 'b'], .text "$a".toList)]) Condition.usualRoom = .ok (.text filled) ∧
      render .default (.text "''<>$a$b".toList) (some [(.text ['$', 'b'], .text "'".toList),
        (.text ['$', 'a'], .text "\x7b% if ".toList)]) Condition.usualRoom = .ok (.text filled') ∧
      outside false filled = outside false filled' ∧ outside false filled = ['<', '>'] := by
  have hPieces : Template.pieces "''<>$a$b".toList =
      [.char '\'', .char '\'', .char '<', .char '>', .reference ['a'], .reference ['b']] := by
    simp [Template.pieces, Text.identifier, Text.isIdentifierStart, Text.isIdentifierPart]
  have hTexts (n m s t : Text) : RendersTexts .default (.text "''<>$a$b".toList)
      [(.text ('$' :: n), .text s), (.text ('$' :: m), .text t)] [(n, .text s), (m, .text t)]
      "''<>$a$b".toList Condition.usualRoom := by
    refine ⟨rfl, ⟨[], ?_⟩, fun name _ v hLookup => ?_⟩
    · rw [Engine.render_text, merged_of_namesOf rfl]
      exact congrArg Except.ok (Rendering.render_of_notMem (by decide) true _ _)
    · rw [Named.ofPairs, Named.insertAll, List.foldl_cons, List.foldl_cons, List.foldl_nil,
        Named.lookup_insert, Named.lookup_insert, List.lookup_nil] at hLookup
      split at hLookup
      · exact ⟨t, (Option.some.inj hLookup).symm⟩
      · rw [Option.ite_none_right_eq_some] at hLookup
        exact ⟨s, (Option.some.inj hLookup.2).symm⟩
  have hOutside : ReferencesOutside (isBound [(['a'], .text "' OR '".toList),
      (['b'], .text "$a".toList)]) "''<>$a$b".toList := by
    intro before name after hSplit _
    rw [hPieces] at hSplit
    -- Only the last two pieces are references.
    rcases before with _ | ⟨_, _ | ⟨_, _ | ⟨_, _ | ⟨_, _ | ⟨_, _ | ⟨_, before⟩⟩⟩⟩⟩⟩
    · cases hSplit
    · cases hSplit
    · cases hSplit
    · cases hSplit
    · cases hSplit
      rfl
    · cases hSplit
      rfl
    · simp at hSplit
  obtain ⟨filled, filled', hFilled, hFilled', hSame, hDropped⟩ :=
    outside_render .default _ _ _ _ _ _ _ _ (hTexts ['a'] ['b'] "' OR '".toList "$a".toList)
      (hTexts ['b'] ['a'] "'".toList "\x7b% if ".toList)
      (fun key => by simp [or_comm]) hOutside
  refine ⟨filled, filled', hFilled, hFilled', hSame, hDropped.trans ?_⟩
  rw [dropReferences, replace, hPieces]
  rfl

end Substitution

end SqlTemplate
