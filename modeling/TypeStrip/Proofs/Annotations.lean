import TypeStrip.Proofs.Rereading

/-!
# What annotations cannot change

The lexemes of a source without its annotations determine everything but the types: the tree up to
its types and, since types are never written, the output.

* `Node.skeleton_bare`            types leave nothing in the lexemes of a tree;
* `Program.bare_eq_of_skeleton`   the lexemes of a tree determine it up to its types;
* `compile_annotations`           two runs over sources that differ in annotations only.
-/

namespace TypeStrip

/-! ### Trees and their lexemes -/

theorem paramsSkeleton_bare (ps : List Param) :
    paramsSkeleton (ps.map Param.bare) = paramsSkeleton ps := by
  unfold paramsSkeleton
  rw [List.map_map]
  rfl

mutual

theorem Node.skeleton_bare : (n : Node) → n.bare.skeleton = n.skeleton
  | .number _ | .string _ | .identifier _ | .operator _ | .punctuation _ _ => rfl
  | .returns values => by
    rw [Node.bare, Node.skeleton, Node.skeletonList_bareList values, Node.skeleton]
  | .function _ params _ body => by
    rw [Node.bare, Node.skeleton, Node.skeletonList_bareList body, paramsSkeleton_bare params,
      Node.skeleton]

theorem Node.skeletonList_bareList : (ns : List Node) →
    Node.skeletonList (Node.bareList ns) = Node.skeletonList ns
  | [] => rfl
  | n :: ns => by
    rw [Node.bareList, Node.skeletonList, Node.skeleton_bare n, Node.skeletonList_bareList ns,
      Node.skeletonList]

end

theorem Program.skeleton_bare (p : Program) : p.bare.skeleton = p.skeleton :=
  Node.skeletonList_bareList p.statements

/-- The lexemes of a written program spell it without its types, and a token list spells only one
program. -/
theorem Program.bare_eq_of_skeleton {p q : Program} (hp : Node.WellMadeList p.statements)
    (hq : Node.WellMadeList q.statements) (h : p.skeleton = q.skeleton) : p.bare = q.bare := by
  let o : Options := ⟨true, false⟩
  have hlex : (Piece.tokens 0 p.pieces).map Token.lexeme = p.skeleton := by
    rw [Piece.map_lexeme_tokens]
    exact p.map_lexeme_pieces
  have hspells : Spells o (Piece.tokens 0 p.pieces) (Node.bareList p.statements) :=
    Node.spells_bareList rfl _ hp _ hlex
  have hspells' : Spells o (Piece.tokens 0 p.pieces) (Node.bareList q.statements) :=
    Node.spells_bareList rfl _ hq _ (hlex.trans h)
  exact congrArg Program.mk (hspells.unique hspells')

/-! ### Two runs -/

/-- **Annotations change nothing but types.**  Two sources, perhaps compiled with different options,
have the same lexemes without annotations exactly if their trees are the same up to types; and then
their outputs are the same. -/
theorem compile_annotations (o o' : Options) (s s' : Text) (c c' : Compilation)
    (h : compile o s = .ok c) (h' : compile o' s' = .ok c') :
    (eraseTypes (c.tokens.map Token.lexeme) = eraseTypes (c'.tokens.map Token.lexeme) ↔
      c.tree.bare = c'.tree.bare) ∧
    (eraseTypes (c.tokens.map Token.lexeme) = eraseTypes (c'.tokens.map Token.lexeme) →
      c.output = c'.output) := by
  obtain ⟨hspells, -, herase, -⟩ := compile_tree h
  obtain ⟨hspells', -, herase', -⟩ := compile_tree h'
  obtain ⟨-, -, hout⟩ := compile_eq_ok_iff.mp h
  obtain ⟨-, -, hout'⟩ := compile_eq_ok_iff.mp h'
  rw [herase, herase']
  have hbare : c.tree.skeleton = c'.tree.skeleton → c.tree.bare = c'.tree.bare :=
    Program.bare_eq_of_skeleton hspells.wellMade hspells'.wellMade
  refine ⟨⟨hbare, fun hsame => ?_⟩, fun hskeleton => ?_⟩
  · rw [← c.tree.skeleton_bare, hsame, c'.tree.skeleton_bare]
  · rw [hout, hout', ← c.tree.untyped_bare, hbare hskeleton, c'.tree.untyped_bare]

/-- The same function with annotations and a comma too many, and without any annotation, comma or
space, read by different rules. -/
theorem compile_annotations_nested :
    let lexemes : List Lexeme :=
      [.mark .keywordFunction, ⟨.name, ['f']⟩, .mark .parenOpen, ⟨.name, ['a']⟩, .mark .comma,
        ⟨.name, ['b']⟩, .mark .parenClose, .mark .braceOpen, .mark .keywordReturn,
        .mark .keywordFunction, ⟨.name, ['g']⟩, .mark .parenOpen, .mark .parenClose,
        .mark .braceOpen, .mark .braceClose, ⟨.number, ['1']⟩, .mark .semicolon, .mark .braceClose]
    ∃ c c',
      compile {} "function f(a: s, b,): t \x7b return function g(): u \x7b \x7d 1; \x7d".toList =
        .ok c ∧ eraseTypes (c.tokens.map Token.lexeme) = lexemes ∧
      compile ⟨false, false⟩ "functionf(a b)\x7breturnfunctiong()\x7b\x7d1;\x7d".toList = .ok c' ∧
        eraseTypes (c'.tokens.map Token.lexeme) = lexemes ∧
      c.tree.bare = c'.tree.bare ∧ c.output = c'.output := by
  intro lexemes
  obtain ⟨c, hc, hlexemes, -⟩ : ∃ c, compile {}
      "function f(a: s, b,): t \x7b return function g(): u \x7b \x7d 1; \x7d".toList = .ok c ∧
      eraseTypes (c.tokens.map Token.lexeme) = lexemes ∧ True :=
    exists_run (by decide +kernel) fun _ _ _ => trivial
  obtain ⟨c', hc', hlexemes', -⟩ : ∃ c, compile ⟨false, false⟩
      "functionf(a b)\x7breturnfunctiong()\x7b\x7d1;\x7d".toList = .ok c ∧
      eraseTypes (c.tokens.map Token.lexeme) = lexemes ∧ True :=
    exists_run (by decide +kernel) fun _ _ _ => trivial
  have hsame := hlexemes.trans hlexemes'.symm
  obtain ⟨hiff, hout⟩ := compile_annotations _ _ _ _ c c' hc hc'
  exact ⟨c, c', hc, hlexemes, hc', hlexemes', hiff.mp hsame, hout hsame⟩

end TypeStrip
