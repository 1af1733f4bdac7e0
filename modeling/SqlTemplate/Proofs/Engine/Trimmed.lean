import SqlTemplate.Proofs.Condition.Names
import SqlTemplate.Proofs.Engine.Steps

/-!
# Rendering a printed tree with trimming

With trimming a directive takes away the character before it, wherever that character comes from,
and the branch before an `else` tag loses its last character. As long as each such branch is empty
or ends in a literal text, no tag is hurt, and **the rewriting of the whole text agrees with
reading the tree once from the left** (`render_print_of_trim`). The induction is on the tree, in
front of a text of which only is known how it is rendered behind any output. No tag is left in what
such a tree is rendered to (`notMem_of_elsesFollowText`).
-/

namespace SqlTemplate

namespace Template

namespace Tree

/-- A printed tree, without its last character if this is cut off. -/
def printCut (cut : Bool) (tree : Tree) : Text := if cut then tree.print.dropLast else tree.print

theorem print_ne_nil_of_endsInText {tree : Tree} (h : tree.EndsInText) (hne : tree ≠ done) :
    tree.print ≠ [] := by
  induction tree with
  | done => exact absurd rfl hne
  | literal text rest ih =>
    cases rest with
    | done =>
      have hText : text ≠ [] := h
      simpa [print] using hText
    | literal _ _ | whenHolds _ _ _ | choose _ _ _ _ =>
      exact fun hNil => ih h.1 h.2 (List.append_eq_nil_iff.mp hNil).2
  | whenHolds _ _ _ _ _ => simp [print, Tag.text_eq]
  | choose _ _ _ _ _ _ _ => simp [print, Tag.text_eq]

/-- Cutting a tree behind a text cuts what comes last. -/
theorem dropLast_append_print {tree : Tree} (h : tree.EndsInText) (hne : tree ≠ done)
    (text : Text) : (text ++ tree.print).dropLast = text ++ tree.print.dropLast :=
  List.dropLast_append_of_ne_nil (print_ne_nil_of_endsInText h hne)

theorem printCut_whenHolds {cut : Bool} {condition : Text} {valid rest : Tree}
    (h : cut = true → (whenHolds condition valid rest).EndsInText) :
    (whenHolds condition valid rest).printCut cut =
      directive condition valid.print (rest.printCut cut) := by
  cases cut with
  | false => exact print_whenHolds _ _ _
  | true =>
    obtain ⟨hEnd, hne⟩ := h rfl
    simp only [printCut, if_true, print, directive, ← List.append_assoc]
    exact dropLast_append_print hEnd hne _

theorem printCut_choose {cut : Bool} {condition : Text} {valid invalid rest : Tree}
    (h : cut = true → (choose condition valid invalid rest).EndsInText) :
    (choose condition valid invalid rest).printCut cut =
      directive condition (valid.print ++ (Tag.alternative.text ++ invalid.print))
        (rest.printCut cut) := by
  cases cut with
  | false => exact print_choose _ _ _ _
  | true =>
    obtain ⟨hEnd, hne⟩ := h rfl
    simp only [printCut, if_true, print, directive, ← List.append_assoc]
    exact dropLast_append_print hEnd hne _

/-- Cutting a literal text with what follows cuts what follows, or the text at the end. -/
theorem printCut_literal {cut : Bool} {text : Text} {rest : Tree}
    (h : cut = true → (literal text rest).EndsInText) :
    (literal text rest).printCut cut =
      (if cut && rest.isDone then text.dropLast else text) ++ rest.printCut cut := by
  cases cut with
  | false => rfl
  | true =>
    have hEnd := h rfl
    cases rest with
    | done => simp [printCut, print, isDone]
    | literal _ _ | whenHolds _ _ _ | choose _ _ _ _ =>
      exact dropLast_append_print hEnd.1 hEnd.2 text

/-- What ends in text behind a literal text ends in text itself. -/
theorem endsInText_rest {text : Text} {rest : Tree} (h : (literal text rest).EndsInText) :
    rest.EndsInText := by
  cases rest with
  | done => trivial
  | literal _ _ | whenHolds _ _ _ | choose _ _ _ _ => exact h.1

end Tree

end Template

namespace Rendering

open Template (Tree)

/-- A printed tree behind some output is read from the left, and then the text behind it. -/
theorem render_printCut_append {tree : Tree} (h : tree.IsPlain) (hElse : tree.ElsesFollowText)
    {env : Environment} {room : Nat} (cut : Bool) (hCut : cut = true → tree.EndsInText)
    {tail : Text} {next : Text → Rendering}
    (hTail : ∀ output : Text, '{' ∉ output → render true env (output ++ tail) room = next output)
    {output : Text} (hOutput : '{' ∉ output) :
    render true env (output ++ (tree.printCut cut ++ tail)) room =
      tree.trimmedFrom env room cut output next := by
  have hUncut {tree : Tree} : false = true → tree.EndsInText :=
    fun hc => absurd hc Bool.false_ne_true
  induction tree generalizing cut tail next output with
  | done =>
    have hPrint : Tree.done.printCut cut = [] := by cases cut <;> rfl
    rw [hPrint, Tree.trimmedFrom]
    exact hTail output hOutput
  | literal text rest ih =>
    obtain ⟨hText, hRest⟩ := h
    have hOutput' :
        '{' ∉ output ++ (if cut && rest.isDone then text.dropLast else text) := by
      rw [List.mem_append, not_or]
      refine ⟨hOutput, ?_⟩
      split
      · exact fun hc => hText (text.dropLast_subset hc)
      · exact hText
    rw [Tree.printCut_literal hCut, Tree.trimmedFrom, List.append_assoc, ← List.append_assoc output,
      ih hRest hElse cut (fun hc => Tree.endsInText_rest (hCut hc)) hTail hOutput']
  | whenHolds condition valid rest ihValid ih =>
    obtain ⟨hCondition, hValid, hRest⟩ := h
    obtain ⟨hElseValid, hElse⟩ := hElse
    have hOutput' : '{' ∉ output.dropLast := fun hc => hOutput (output.dropLast_subset hc)
    have hRests (output : Text) (hOutput : '{' ∉ output) :
        render true env (output ++ (rest.printCut cut ++ tail)) room =
          rest.trimmedFrom env room cut output next :=
      ih hRest hElse cut (fun hc => (hCut hc).1) hTail hOutput
    rw [Tree.printCut_whenHolds hCut, Template.directive_append,
      render_whenHolds hOutput hCondition hValid, Tree.trimmedFrom]
    congr 1
    funext holds
    cases holds with
    | true => exact ihValid hValid hElseValid false hUncut hRests hOutput'
    | false => exact hRests _ hOutput'
  | choose condition valid invalid rest ihValid ihInvalid ih =>
    obtain ⟨hCondition, hValid, hInvalid, hRest⟩ := h
    obtain ⟨hEnd, hElseValid, hElseInvalid, hElse⟩ := hElse
    have hOutput' : '{' ∉ output.dropLast := fun hc => hOutput (output.dropLast_subset hc)
    have hRests (output : Text) (hOutput : '{' ∉ output) :
        render true env (output ++ (rest.printCut cut ++ tail)) room =
          rest.trimmedFrom env room cut output next :=
      ih hRest hElse cut (fun hc => (hCut hc).1) hTail hOutput
    rw [Tree.printCut_choose hCut, Template.directive_append,
      render_choose hOutput hCondition hValid hInvalid, Tree.trimmedFrom]
    congr 1
    funext holds
    cases holds with
    | true => exact ihValid hValid hElseValid true (fun _ => hEnd) hRests hOutput'
    | false => exact ihInvalid hInvalid hElseInvalid false hUncut hRests hOutput'

/-- A printed tree is rendered to what reading it from the left gives. -/
theorem render_print_trimmed {tree : Tree} (h : tree.IsPlain) (hElse : tree.ElsesFollowText)
    (env : Environment) (room : Nat) :
    render true env tree.print room = tree.trimmedRendering env room := by
  have hEnd (output : Text) (hOutput : '{' ∉ output) :
      render true env (output ++ []) room = ofText output := by
    rw [List.append_nil, render_of_notMem hOutput]
  have hUncut : false = true → tree.EndsInText := fun hc => absurd hc Bool.false_ne_true
  have := render_printCut_append h hElse false hUncut hEnd List.not_mem_nil
  rwa [List.nil_append, List.append_nil] at this

/-! ### No tag is left -/

/-- Reading a tree from the left leaves no brace if what comes behind it leaves none. -/
theorem notMem_of_trimmedFrom {tree : Tree} (h : tree.IsPlain) {env : Environment} {room : Nat}
    {cut : Bool}
    {next : Text → Rendering} {result : Text}
    (hNext : ∀ output : Text, '{' ∉ output → (next output).result = .ok result → '{' ∉ result)
    {output : Text} (hOutput : '{' ∉ output)
    (hResult : (tree.trimmedFrom env room cut output next).result = .ok result) : '{' ∉ result := by
  induction tree generalizing cut next output with
  | done => exact hNext output hOutput hResult
  | literal text rest ih =>
    obtain ⟨hText, hRest⟩ := h
    refine ih hRest hNext ?_ hResult
    rw [List.mem_append, not_or]
    refine ⟨hOutput, ?_⟩
    split
    · exact fun hc => hText (text.dropLast_subset hc)
    · exact hText
  | whenHolds condition valid rest ihValid ih =>
    obtain ⟨-, hValid, hRest⟩ := h
    obtain ⟨o, -, hChosen⟩ := exists_of_branch_eq_ok hResult
    have hOutput' : '{' ∉ output.dropLast := fun hc => hOutput (output.dropLast_subset hc)
    split at hChosen
    · exact ihValid hValid (fun _ hc hRead => ih hRest hNext hc hRead) hOutput' hChosen
    · exact ih hRest hNext hOutput' hChosen
  | choose condition valid invalid rest ihValid ihInvalid ih =>
    obtain ⟨-, hValid, hInvalid, hRest⟩ := h
    obtain ⟨o, -, hChosen⟩ := exists_of_branch_eq_ok hResult
    have hOutput' : '{' ∉ output.dropLast := fun hc => hOutput (output.dropLast_subset hc)
    split at hChosen
    · exact ihValid hValid (fun _ hc hRead => ih hRest hNext hc hRead) hOutput' hChosen
    · exact ihInvalid hInvalid (fun _ hc hRead => ih hRest hNext hc hRead) hOutput' hChosen

/-- A tree in which no directive ends right before an `else` tag is fully resolved. -/
theorem notMem_of_elsesFollowText {tree : Tree} (h : tree.IsPlain) (hElse : tree.ElsesFollowText)
    {env : Environment} {room : Nat} {result : Text}
    (hResult : (render true env tree.print room).result = .ok result) : '{' ∉ result := by
  rw [render_print_trimmed h hElse] at hResult
  refine notMem_of_trimmedFrom h ?_ List.not_mem_nil hResult
  intro output hOutput hEnd
  cases hEnd
  exact hOutput

end Rendering

namespace Engine

/-- **With trimming, an engine renders a printed tree to what reading it from the left gives**: a
literal text is added to the output, a directive first takes the last character of the output,
whatever wrote it, and the branch chosen before an `else` tag has lost its own last character. The
conditions are evaluated in that order, up to one from which a fault escapes. Only bindings whose
names cannot be written keep it from beginning. -/
theorem render_print_of_trim (engine : Engine) (hTrim : engine.trim = true)
    (tree : Template.Tree) (h : tree.IsPlain) (hElse : tree.ElsesFollowText)
    (bindings : Bindings) (room : Nat) :
    engine.render (.text tree.print) bindings room =
      match engine.globals.merged bindings with
      | .error fault => .error (.fault fault)
      | .ok env => .ok (tree.trimmedRendering env (room - 1)) := by
  rw [render_text, hTrim]
  cases engine.globals.merged bindings with
  | error fault => rfl
  | ok env => simp only [Rendering.render_print_trimmed h hElse]

/-- Two directives in a row, the first one with an empty branch before its `else` tag: the second
one takes the character that the first one has left. -/
theorem render_print_of_trim_twice :
    (Engine.mk ⟨[(['a'], .bool true)]⟩ true false).render (.text (Template.Tree.print
      (.literal ['x', 'y', 'z'] (.choose ['a'] .done (.literal ['u'] .done)
        (.choose ['b'] (.literal ['v'] .done) (.literal ['w'] .done) .done))))) [] =
      .ok ⟨[⟨['a'], .ok (.evaluated true)⟩, ⟨['b'], .ok (.evaluated false)⟩], .ok ['x', 'w']⟩ := by
  have hA : Template.Tree.IsPlainCondition ['a'] := ⟨by decide, by decide⟩
  have hB : Template.Tree.IsPlainCondition ['b'] := ⟨by decide, by decide⟩
  have hText : ['v'] ≠ [] := by decide
  have hRoom : 14 ≤ Condition.usualRoom - 1 - 1 := by decide
  have hFirst :=
    Condition.outcome_name ⟨List.cons_ne_nil 'a' [], rfl⟩ rfl hRoom ⟨[(['a'], .bool true)]⟩
  have hSecond :=
    Condition.outcome_name ⟨List.cons_ne_nil 'b' [], rfl⟩ rfl hRoom ⟨[(['a'], .bool true)]⟩
  refine (render_print_of_trim _ rfl _ ?_ ?_ [] Condition.usualRoom).trans ?_
  · exact ⟨by decide, hA, trivial, ⟨by decide, trivial⟩, hB, ⟨by decide, trivial⟩,
      ⟨by decide, trivial⟩, trivial⟩
  · exact ⟨trivial, trivial, trivial, hText, trivial, trivial, trivial⟩
  · show Except.ok
      (Template.Tree.trimmedRendering ⟨[(['a'], .bool true)]⟩ (Condition.usualRoom - 1) _) = _
    simp only [Template.Tree.trimmedRendering, Template.Tree.trimmedFrom, Rendering.branch,
      hFirst, hSecond]
    rfl

end Engine

end SqlTemplate
