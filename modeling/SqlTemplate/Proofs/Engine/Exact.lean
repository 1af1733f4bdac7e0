import SqlTemplate.Proofs.Condition.Names
import SqlTemplate.Proofs.Engine.Steps

/-!
# Rendering a printed tree without trimming

The engine rewrites the whole text again and again. Without trimming, **what it renders a printed
tree to, and the conditions that it evaluates on the way, are those of the recursion on the tree**
(`render_print_of_not_trim`). The induction is on the tree: a tree may stand behind a text that is
finished and in front of a text that is not, of which only is known how it is rendered.
-/

namespace SqlTemplate

namespace Rendering

open Template (Tree)

/-- A printed tree in front of a text adds its own rendering to that of the text. -/
theorem render_print_append {tree : Tree} (h : tree.IsPlain) {env : Environment} {room : Nat}
    {tail : Text} {after : Rendering}
    (hTail : ∀ front : Text, '{' ∉ front →
      render false env (front ++ tail) room = (ofText front).append after)
    {front : Text} (hFront : '{' ∉ front) :
    render false env (front ++ (tree.print ++ tail)) room =
      (ofText front).append ((tree.rendering env room).append after) := by
  induction tree generalizing tail after front with
  | done =>
    rw [Tree.rendering, ofText_nil_append]
    exact hTail front hFront
  | literal text rest ih =>
    obtain ⟨hText, hRest⟩ := h
    have hFront' : '{' ∉ front ++ text := by simp [hFront, hText]
    rw [Tree.print, Tree.rendering, List.append_assoc, ← List.append_assoc front,
      ih hRest hTail hFront', append_assoc, ← append_assoc (ofText front), ofText_append_ofText]
  | whenHolds condition valid rest ihValid ih =>
    obtain ⟨hCondition, hValid, hRest⟩ := h
    have hRests (front : Text) (hFront : '{' ∉ front) :
        render false env (front ++ (rest.print ++ tail)) room =
          (ofText front).append ((rest.rendering env room).append after) := ih hRest hTail hFront
    rw [Tree.print_whenHolds, Template.directive_append,
      render_whenHolds hFront hCondition hValid, Tree.rendering, append_assoc, branch_append,
      ofText_append_branch]
    congr 1
    funext holds
    cases holds with
    | true => exact ihValid hValid hRests hFront
    | false =>
      simp only [Bool.false_eq_true, if_false, List.nil_append, ofText_nil_append]
      exact hRests front hFront
  | choose condition valid invalid rest ihValid ihInvalid ih =>
    obtain ⟨hCondition, hValid, hInvalid, hRest⟩ := h
    have hRests (front : Text) (hFront : '{' ∉ front) :
        render false env (front ++ (rest.print ++ tail)) room =
          (ofText front).append ((rest.rendering env room).append after) := ih hRest hTail hFront
    rw [Tree.print_choose, Template.directive_append,
      render_choose hFront hCondition hValid hInvalid, Tree.rendering, append_assoc,
      branch_append, ofText_append_branch]
    congr 1
    funext holds
    cases holds with
    | true => exact ihValid hValid hRests hFront
    | false => exact ihInvalid hInvalid hRests hFront

/-- A printed tree is rendered to the rendering of the tree. -/
theorem render_print {tree : Tree} (h : tree.IsPlain) (env : Environment) (room : Nat) :
    render false env tree.print room = tree.rendering env room := by
  have hEnd (front : Text) (hFront : '{' ∉ front) :
      render false env (front ++ []) room = (ofText front).append (ofText []) := by
    rw [append_ofText_nil, List.append_nil, render_of_notMem hFront]
  have := render_print_append h hEnd (List.not_mem_nil)
  rwa [List.nil_append, List.append_nil, ofText_nil_append, append_ofText_nil] at this

end Rendering

namespace Engine

/-- **Without trimming, an engine renders a printed tree as the recursion on the tree says**: it
keeps the literal texts, puts the chosen branches in the place of the directives, and evaluates
the conditions on the chosen path and no others, in order, up to one from which a fault escapes.
Only bindings whose names cannot be written keep it from beginning. -/
theorem render_print_of_not_trim (engine : Engine) (hTrim : engine.trim = false)
    (tree : Template.Tree) (h : tree.IsPlain) (bindings : Bindings) (room : Nat) :
    engine.render (.text tree.print) bindings room =
      match engine.globals.merged bindings with
      | .error fault => .error (.fault fault)
      | .ok env => .ok (tree.rendering env (room - 1)) := by
  rw [render_text, hTrim]
  cases engine.globals.merged bindings with
  | error fault => rfl
  | ok env => simp only [Rendering.render_print h]

/-- A directive inside another one: the outer one holds, the inner one does not. -/
theorem render_print_of_not_trim_nested :
    (Engine.mk ⟨[(['a'], .bool true)]⟩ false false).render (.text (Template.Tree.print
      (.whenHolds ['a'] (.literal ['x'] (.choose ['b'] (.literal ['y'] .done)
        (.literal ['z'] .done) .done)) .done))) [] =
      .ok ⟨[⟨['a'], .ok (.evaluated true)⟩, ⟨['b'], .ok (.evaluated false)⟩], .ok ['x', 'z']⟩ := by
  have hA : Template.Tree.IsPlainCondition ['a'] := ⟨by decide, by decide⟩
  have hB : Template.Tree.IsPlainCondition ['b'] := ⟨by decide, by decide⟩
  have hRoom : 14 ≤ Condition.usualRoom - 1 - 1 := by decide
  have hOuter :=
    Condition.outcome_name ⟨List.cons_ne_nil 'a' [], rfl⟩ rfl hRoom ⟨[(['a'], .bool true)]⟩
  have hInner :=
    Condition.outcome_name ⟨List.cons_ne_nil 'b' [], rfl⟩ rfl hRoom ⟨[(['a'], .bool true)]⟩
  refine (render_print_of_not_trim _ rfl _ ?_ [] Condition.usualRoom).trans ?_
  · exact ⟨hA, ⟨by decide, hB, ⟨by decide, trivial⟩, ⟨by decide, trivial⟩, trivial⟩, trivial⟩
  · show Except.ok (Template.Tree.rendering ⟨[(['a'], .bool true)]⟩ (Condition.usualRoom - 1) _) = _
    simp only [Template.Tree.rendering, Rendering.branch, hOuter, hInner]
    rfl

end Engine

end SqlTemplate
