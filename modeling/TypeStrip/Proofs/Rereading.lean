import TypeStrip.Proofs.Cuts
import TypeStrip.Proofs.Readable
import TypeStrip.Proofs.Separation

/-!
# Reading an output again

A written program is read back as the same program without its types, unless two neighbouring
values of a `return` run together, since nothing is written between them.

* `Node.bare`          a node without its types;
* `Node.spells_bare`   the lexemes of a written node spell it without its types;
* `compile_untyped`    a program whose values keep apart is its own output, types aside;
* `compile_reread`     when the output of a run is read back.
-/

namespace TypeStrip

variable {o : Options}

/-! ### Trees without types -/

def Param.bare (p : Param) : Param := ⟨p.name, none⟩

mutual

def Node.bare : Node → Node
  | .returns values => .returns (Node.bareList values)
  | .function name params _ body =>
    .function name (params.map Param.bare) none (Node.bareList body)
  | .number s => .number s
  | .string s => .string s
  | .identifier s => .identifier s
  | .operator op => .operator op
  | .punctuation k s => .punctuation k s

def Node.bareList : List Node → List Node
  | [] => []
  | n :: ns => n.bare :: Node.bareList ns

end

def Program.bare (p : Program) : Program := ⟨Node.bareList p.statements⟩

mutual

theorem Node.untyped_bare : (n : Node) → n.bare.untyped = n.untyped
  | .number _ | .string _ | .identifier _ | .operator _ | .punctuation _ _ => rfl
  | .returns values => by
    rw [Node.bare, Node.untyped, Node.untypedList_bareList values, Node.untyped]
  | .function name params _ body => by
    have hp : (params.map Param.bare).map Param.untyped = params.map Param.untyped := by
      rw [List.map_map]
      rfl
    rw [Node.bare, Node.untyped, Node.untypedList_bareList body, hp, Node.untyped]

theorem Node.untypedList_bareList : (ns : List Node) →
    Node.untypedList (Node.bareList ns) = Node.untypedList ns
  | [] => rfl
  | n :: ns => by
    rw [Node.bareList, Node.untypedList, Node.untyped_bare n, Node.untypedList_bareList ns,
      Node.untypedList]

end

theorem Program.untyped_bare (p : Program) : p.bare.untyped = p.untyped := by
  show programText (Node.untypedList (Node.bareList p.statements)) = programText _
  rw [Node.untypedList_bareList]

mutual

theorem Node.nesting_bare : (n : Node) → n.bare.nesting = n.nesting
  | .number _ | .string _ | .identifier _ | .operator _ | .punctuation _ _ => rfl
  | .returns values => by
    rw [Node.bare, Node.nesting, Node.nestingList_bareList values, Node.nesting]
  | .function _ _ _ body => by
    rw [Node.bare, Node.nesting, Node.nestingList_bareList body, Node.nesting]

theorem Node.nestingList_bareList : (ns : List Node) →
    Node.nestingList (Node.bareList ns) = Node.nestingList ns
  | [] => rfl
  | n :: ns => by
    rw [Node.bareList, Node.nestingList, Node.nesting_bare n, Node.nestingList_bareList ns,
      Node.nestingList]

end

theorem Node.bareList_eq_map (ns : List Node) : Node.bareList ns = ns.map Node.bare := by
  induction ns with
  | nil => rfl
  | cons n ns ih => rw [Node.bareList, ih, List.map_cons]

theorem Node.isSemicolon_bare (n : Node) : n.bare.isSemicolon = n.isSemicolon := by
  cases n <;> rfl

/-! ### Spelling a skeleton -/

theorem spellsParams_bare {ts : List Token} {ps : List Param}
    (h : ts.map Token.lexeme = paramsSkeleton ps) : SpellsParams ts (ps.map Param.bare) := by
  induction ps using paramPieces.induct generalizing ts with
  | case1 =>
    rw [List.map_eq_nil_iff.mp h]
    exact .nil
  | case2 p =>
    obtain ⟨n, us, rfl, hn, hus⟩ := List.map_eq_cons_iff.mp h
    rw [List.map_eq_nil_iff.mp hus]
    exact .cons (congrArg Lexeme.kind hn) (congrArg Lexeme.text hn) .none .absent .nil
  | case3 p q ps ih =>
    have hsplit : paramsSkeleton (p :: q :: ps) =
        p.lexeme :: .mark .comma :: paramsSkeleton (q :: ps) := by
      rw [paramsSkeleton_cons, paramsSkeleton_cons]
      rfl
    rw [hsplit] at h
    obtain ⟨n, us, rfl, hn, hus⟩ := List.map_eq_cons_iff.mp h
    obtain ⟨c, vs, rfl, hc, hvs⟩ := List.map_eq_cons_iff.mp hus
    exact .cons (congrArg Lexeme.kind hn) (congrArg Lexeme.text hn) .none
      (.present (congrArg Lexeme.kind hc)) (ih hvs)

theorem spellsHead_bare (ho : o.requireReturnType = false) {ts : List Token} {name : Text}
    {params : List Param} (h : ts.map Token.lexeme =
      [.mark .keywordFunction, ⟨.name, name⟩, .mark .parenOpen] ++ paramsSkeleton params ++
        [.mark .parenClose, .mark .braceOpen]) :
    SpellsHead o ts name (params.map Param.bare) none := by
  obtain ⟨us, vs, rfl, hus, hvs⟩ := List.map_eq_append_iff.mp h
  obtain ⟨b, vs, rfl, hb, hvs⟩ := List.map_eq_cons_iff.mp hvs
  obtain ⟨c, rfl, hc⟩ := List.map_eq_singleton_iff.mp hvs
  obtain ⟨us, ps, rfl, hus, hps⟩ := List.map_eq_append_iff.mp hus
  obtain ⟨f, us, rfl, hf, hus⟩ := List.map_eq_cons_iff.mp hus
  obtain ⟨n, us, rfl, hn, hus⟩ := List.map_eq_cons_iff.mp hus
  obtain ⟨a, rfl, ha⟩ := List.map_eq_singleton_iff.mp hus
  have hname : n.text = name := congrArg Lexeme.text hn
  have hreq : o.requireReturnType = true → (none : Option Text) ≠ none := by
    intro ht
    rw [ho] at ht
    contradiction
  have h2 := SpellsHead.mk (congrArg Lexeme.kind hf) (congrArg Lexeme.kind hn)
    (congrArg Lexeme.kind ha) (spellsParams_bare hps) (congrArg Lexeme.kind hb) .none hreq
    (congrArg Lexeme.kind hc)
  rw [hname] at h2
  simpa using h2

mutual

/-- The lexemes of a skeleton spell the tree without its types, if types may be missing. -/
theorem Node.spells_bare (ho : o.requireReturnType = false) : (n : Node) → n.WellMade →
    ∀ ts : List Token, ts.map Token.lexeme = n.skeleton → Spells o ts [n.bare]
  | .number s, _, ts, h => by
    obtain ⟨⟨k, w, pos⟩, rfl, ht⟩ := List.map_eq_singleton_iff.mp h
    cases ht
    exact .leaf (.number rfl) .nil
  | .string s, _, ts, h => by
    obtain ⟨⟨k, w, pos⟩, rfl, ht⟩ := List.map_eq_singleton_iff.mp h
    cases ht
    exact .leaf (.string rfl) .nil
  | .identifier s, _, ts, h => by
    obtain ⟨⟨k, w, pos⟩, rfl, ht⟩ := List.map_eq_singleton_iff.mp h
    cases ht
    exact .leaf (.identifier rfl) .nil
  | .operator op, _, ts, h => by
    obtain ⟨⟨k, w, pos⟩, rfl, ht⟩ := List.map_eq_singleton_iff.mp h
    cases ht
    exact .leaf (.operator rfl rfl) .nil
  | .punctuation k s, hw, ts, h => by
    obtain ⟨⟨k', w, pos⟩, rfl, ht⟩ := List.map_eq_singleton_iff.mp h
    cases ht
    exact .leaf (.punctuation hw) .nil
  | .returns values, hw, ts, h => by
    obtain ⟨hne, hsemi, hvalues⟩ := hw
    rw [Node.skeleton] at h
    obtain ⟨us, vs, rfl, hus, hvs⟩ := List.map_eq_append_iff.mp h
    obtain ⟨e, rfl, he⟩ := List.map_eq_singleton_iff.mp hvs
    obtain ⟨r, us, rfl, hr, hus⟩ := List.map_eq_cons_iff.mp hus
    have hbare : ∀ v ∈ Node.bareList values, v.isSemicolon = false := by
      intro v hv
      rw [Node.bareList_eq_map] at hv
      obtain ⟨u, hu, rfl⟩ := List.mem_map.mp hv
      rw [Node.isSemicolon_bare]
      exact hsemi u hu
    have hne' : Node.bareList values ≠ [] := by
      rw [Node.bareList_eq_map]
      simpa using hne
    exact .returns (congrArg Lexeme.kind hr) (Node.spells_bareList ho values hvalues us hus) hne'
      hbare (congrArg Lexeme.kind he) .nil
  | .function name params _ body, hw, ts, h => by
    rw [Node.skeleton] at h
    obtain ⟨us, vs, rfl, hus, hvs⟩ := List.map_eq_append_iff.mp h
    obtain ⟨e, rfl, he⟩ := List.map_eq_singleton_iff.mp hvs
    obtain ⟨hs, us, rfl, hhs, hus⟩ := List.map_eq_append_iff.mp hus
    exact .function (spellsHead_bare ho hhs) (Node.spells_bareList ho body hw us hus)
      (congrArg Lexeme.kind he) .nil

theorem Node.spells_bareList (ho : o.requireReturnType = false) : (ns : List Node) →
    Node.WellMadeList ns → ∀ ts : List Token, ts.map Token.lexeme = Node.skeletonList ns →
      Spells o ts (Node.bareList ns)
  | [], _, ts, h => by
    rw [List.map_eq_nil_iff.mp h]
    exact .nil
  | n :: ns, hw, ts, h => by
    rw [Node.skeletonList] at h
    obtain ⟨us, vs, rfl, hus, hvs⟩ := List.map_eq_append_iff.mp h
    exact (Node.spells_bare ho n hw.1 us hus).append (Node.spells_bareList ho ns hw.2 vs hvs)

end

/-! ### Outputs -/

theorem compile_untyped {p : Program} (hw : Node.WellMadeList p.statements)
    (hv : ∀ l ∈ p.skeleton, l.Valid o.keywordBoundary) (hs : p.Separate) (hn : p.nesting ≤ 100) :
    compile { o with requireReturnType := false } p.untyped =
      .ok ⟨Piece.tokens 0 p.pieces, p.bare, p.untyped⟩ := by
  have hsegs : Segments o.keywordBoundary p.pieces :=
    ⟨Program.sound_pieces hv, (Program.isChain_pieces hw).mpr hs⟩
  have hlex : (Piece.tokens 0 p.pieces).map Token.lexeme = Node.skeletonList p.statements := by
    rw [Piece.map_lexeme_tokens]
    exact p.map_lexeme_pieces
  have hnest : p.bare.nesting ≤ 100 := by
    show Node.nestingList (Node.bareList p.statements) ≤ 100
    rw [Node.nestingList_bareList]
    exact hn
  refine compile_eq_ok_iff.mpr ⟨?_, parse_eq_ok_iff.mpr ⟨?_, hnest⟩, p.untyped_bare.symm⟩
  · rw [← p.text_pieces]
    exact scanFrom_text hsegs 0
  · exact Node.spells_bareList rfl _ hw _ hlex

/-- **When an output is read back.**  The output of a run can always be scanned.  Its lexemes are
those of the tree without types exactly if no value of a `return` runs into the next; then a
second run that does not ask for types gives the same tree without its types and the same output
again. -/
theorem compile_reread (o : Options) (s : Text) (c : Compilation) (h : compile o s = .ok c) :
    ∃ ts, scan o c.output = .ok ts ∧
      (ts.map Token.lexeme = c.tree.skeleton ↔ c.tree.Separate) ∧
      (c.tree.Separate → compile { o with requireReturnType := false } c.output =
        .ok ⟨ts, c.tree.bare, c.output⟩) := by
  obtain ⟨hsp, hnest, -, hvalid⟩ := compile_tree h
  obtain ⟨-, -, hout⟩ := compile_eq_ok_iff.mp h
  have hsound := Program.sound_pieces hvalid
  obtain ⟨ts, hts⟩ := exists_tokens (readable_text hsound) 0
  refine ⟨ts, ?_, ?_, ?_⟩
  · rw [hout, ← c.tree.text_pieces]
    exact hts
  · rw [← c.tree.map_lexeme_pieces, map_lexeme_scanFrom_iff hsound hts]
    exact Program.isChain_pieces hsp.wellMade
  · intro hsep
    have hchain : c.tree.pieces.IsChain (Piece.Apart (Kind.clashes o.keywordBoundary)) :=
      (Program.isChain_pieces hsp.wellMade).mpr hsep
    rw [scanFrom_text ⟨hsound, hchain⟩ 0] at hts
    rw [← Except.ok.inj hts, hout]
    exact compile_untyped hsp.wellMade hvalid hsep hnest

/-- Values that keep apart without a space between them, and keywords that need no space either. -/
theorem compile_reread_nested : ∃ c,
    compile ⟨false, true⟩ "returnx\"s\"functionf(a:t,):u\x7b;return y 1;\x7d,returnz;;".toList = .ok c ∧
    (c.output, decide c.tree.Separate) =
      ("return x\"s\"function f(a) \x7b ;\nreturn y1; \x7d,return z;;".toList, true) ∧
    ∃ ts, ts.map Token.lexeme = c.tree.skeleton ∧
      compile ⟨false, false⟩ c.output = .ok ⟨ts, c.tree.bare, c.output⟩ := by
  refine exists_run (f := fun c => (c.output, decide c.tree.Separate)) ?_ ?_
  · decide +kernel
  · intro c hc hf
    have hsep : c.tree.Separate := of_decide_eq_true (Prod.mk.inj hf).2
    obtain ⟨ts, -, hiff, hagain⟩ := compile_reread _ _ c hc
    exact ⟨ts, hiff.mpr hsep, hagain hsep⟩

end TypeStrip
