import TypeStrip.Proofs.Emission

/-!
# Values that keep apart

Nothing is written between the values of a `return`, so two neighbours may run together there, and
nowhere else.

* `Node.WellMade`            what trees keep to that come from a parse;
* `Node.Separate`            no two neighbouring values are of shapes that run together;
* `Clash`                    kinds of lexemes that run together, beside shapes that do;
* `Program.isChain_pieces`   the lexemes of a written program keep apart exactly if its values do.
-/

namespace TypeStrip

variable {o : Options} {boundary : Bool}

/-! ### Well-made trees -/

mutual

/-- Values are not missing and hold no semicolon, and punctuation is what may stand alone. -/
def Node.WellMade : Node → Prop
  | .punctuation k _ => k = .colon ∨ k = .comma ∨ k = .semicolon
  | .returns values =>
    values ≠ [] ∧ (∀ v ∈ values, v.isSemicolon = false) ∧ Node.WellMadeList values
  | .function _ _ _ body => Node.WellMadeList body
  | .number _ | .string _ | .identifier _ | .operator _ => True

def Node.WellMadeList : List Node → Prop
  | [] => True
  | n :: ns => n.WellMade ∧ Node.WellMadeList ns

end

theorem SpellsLeaf.wellMade {t : Token} {n : Node} (h : SpellsLeaf t n) : n.WellMade := by
  cases h with
  | punctuation h => exact h
  | number | string | identifier | operator => exact True.intro

theorem Spells.wellMade {ts : List Token} {ns : List Node} (h : Spells o ts ns) :
    Node.WellMadeList ns := by
  induction h with
  | nil => exact True.intro
  | leaf hn _ ih => exact ⟨hn.wellMade, ih⟩
  | returns _ _ hne hs _ _ ihv ihn => exact ⟨⟨hne, hs, ihv⟩, ihn⟩
  | function _ _ _ _ ihb ihn => exact ⟨ihb, ihn⟩

/-! ### Values that keep apart -/

mutual

/-- No value of a `return` is of a shape that meets that of the next one, at any depth. -/
def Node.Separate (meets : Shape → Shape → Bool) : Node → Prop
  | .returns values =>
    values.IsChain (fun v w => meets v.shape w.shape = false) ∧ Node.SeparateList meets values
  | .function _ _ _ body => Node.SeparateList meets body
  | .number _ | .string _ | .identifier _ | .operator _ | .punctuation _ _ => True

def Node.SeparateList (meets : Shape → Shape → Bool) : List Node → Prop
  | [] => True
  | n :: ns => n.Separate meets ∧ Node.SeparateList meets ns

end

mutual

def Node.decSeparate (meets : Shape → Shape → Bool) : (n : Node) → Decidable (n.Separate meets)
  | .returns values =>
    have := Node.decSeparateList meets values
    inferInstanceAs (Decidable (_ ∧ _))
  | .function _ _ _ body => Node.decSeparateList meets body
  | .number _ | .string _ | .identifier _ | .operator _ | .punctuation _ _ => isTrue True.intro

def Node.decSeparateList (meets : Shape → Shape → Bool) :
    (ns : List Node) → Decidable (Node.SeparateList meets ns)
  | [] => isTrue True.intro
  | n :: ns =>
    have := n.decSeparate meets
    have := Node.decSeparateList meets ns
    inferInstanceAs (Decidable (_ ∧ _))

end

/-- Whether a value of one shape runs into a value of another that is written directly behind
it. -/
def Shape.runsInto : Shape → Shape → Bool
  | .number, .number => true
  | .identifier, .identifier | .identifier, .returns | .identifier, .function => true
  | _, _ => false

/-- No value of a `return` anywhere in the program runs into the next one. -/
def Program.Separate (p : Program) : Prop := Node.SeparateList Shape.runsInto p.statements

instance (p : Program) : Decidable p.Separate := Node.decSeparateList _ p.statements

/-! ### Lexemes that keep apart -/

/-- Kinds of lexemes that clash, and the shapes of nodes whose ends are of such kinds. -/
structure Clash (clash : Kind → Kind → Bool) (meets : Shape → Shape → Bool) : Prop where
  left : ∀ k l, k.isRun = false → clash k l = false
  right : ∀ k l, l.isRun = false → clash k l = false
  shapes : ∀ n m : Node, n.WellMade → m.WellMade →
    clash n.lastKind m.firstKind = meets n.shape m.shape

/-- The last lexeme of a node is no keyword, so that it does not matter where keywords end. -/
theorem clash_runsInto (boundary : Bool) : Clash (Kind.clashes boundary) Shape.runsInto where
  left k l hk := by cases k <;> first | rfl | cases hk
  right k l hl := by
    cases l with
    | number | name | keywordReturn | keywordFunction => cases hl
    | _ => cases k <;> simp [Kind.clashes, Kind.isWord]
  shapes n m hn hm := by
    cases n with
    | punctuation k s => rcases hn with rfl | rfl | rfl <;> rfl
    | number s | identifier s =>
      cases m with
      | punctuation k s => rcases hm with rfl | rfl | rfl <;> rfl
      | number | string | identifier | operator | returns | function => rfl
    | string s | operator s | returns vs | function name params type body => rfl

section
variable {clash : Kind → Kind → Bool} {meets : Shape → Shape → Bool}

theorem Piece.Apart.of_gap {p q : Piece} (h : p.gap ≠ []) : p.Apart clash q :=
  fun hg => absurd hg h

theorem isChain_append_of_gap {ps qs : List Piece} (h : ∀ p ∈ ps.getLast?, p.gap ≠ []) :
    (ps ++ qs).IsChain (Piece.Apart clash) ↔
      ps.IsChain (Piece.Apart clash) ∧ qs.IsChain (Piece.Apart clash) := by
  rw [List.isChain_append]
  constructor
  · exact fun hpq => ⟨hpq.1, hpq.2.1⟩
  · exact fun hpq => ⟨hpq.1, hpq.2, fun p hp q _ => .of_gap (h p hp)⟩

theorem isChain_cons_of_gap {p : Piece} {ps : List Piece} (h : p.gap ≠ []) :
    (p :: ps).IsChain (Piece.Apart clash) ↔ ps.IsChain (Piece.Apart clash) := by
  rw [List.isChain_cons]
  exact ⟨fun hps => hps.2, fun hps => ⟨fun q _ => .of_gap h, hps⟩⟩

/-- Punctuation keeps apart from what stands in front of it. -/
theorem Clash.isChain_concat (hc : Clash clash meets) {ps : List Piece} {q : Piece}
    (h : q.lexeme.kind.isRun = false) :
    (ps ++ [q]).IsChain (Piece.Apart clash) ↔ ps.IsChain (Piece.Apart clash) := by
  rw [List.isChain_append]
  constructor
  · exact fun hps => hps.1
  · refine fun hps => ⟨hps, List.isChain_singleton _, ?_⟩
    intro x _ y hy _
    cases hy
    exact hc.right _ _ h

theorem Clash.isChain_paramPieces (hc : Clash clash meets) (ps : List Param) :
    (paramPieces ps).IsChain (Piece.Apart clash) := by
  induction ps using paramPieces.induct with
  | case1 => exact List.isChain_nil
  | case2 p => exact List.isChain_singleton _
  | case3 p q ps ih =>
    rw [paramPieces, List.isChain_cons_cons, isChain_cons_of_gap (by simp)]
    exact ⟨fun _ => hc.right _ _ rfl, ih⟩

theorem Clash.isChain_headPieces (hc : Clash clash meets) (name : Text) (params : List Param) :
    (headPieces name params).IsChain (Piece.Apart clash) := by
  have hsplit : headPieces name params = ⟨.mark .keywordFunction, [' ']⟩ :: ⟨⟨.name, name⟩, []⟩ ::
      ((⟨.mark .parenOpen, []⟩ :: paramPieces params) ++ [⟨.mark .parenClose, [' ']⟩] ++
        [⟨.mark .braceOpen, [' ']⟩]) := by
    simp [headPieces]
  have hopen : (⟨.mark .parenOpen, []⟩ :: paramPieces params).IsChain (Piece.Apart clash) :=
    List.isChain_cons.mpr ⟨fun q _ _ => hc.left _ _ rfl, hc.isChain_paramPieces params⟩
  rw [hsplit, isChain_cons_of_gap (by simp), List.isChain_cons, hc.isChain_concat rfl,
    hc.isChain_concat rfl]
  refine ⟨?_, hopen⟩
  intro q hq _
  cases hq
  exact hc.right _ _ rfl

mutual

theorem Clash.isChain_pieces (hc : Clash clash meets) (gap : Text) : (n : Node) → n.WellMade →
    ((n.pieces gap).IsChain (Piece.Apart clash) ↔ n.Separate meets)
  | .number _, _ | .string _, _ | .identifier _, _ | .operator _, _ | .punctuation _ _, _ =>
    iff_of_true (List.isChain_singleton _) True.intro
  | .returns values, hw => by
    rw [Node.pieces, hc.isChain_concat rfl, isChain_cons_of_gap (by simp),
      hc.isChain_piecesList [] [] values hw.2.2, Node.Separate]
    simp
  | .function name params _ body, hw => by
    have hgap : ∀ p ∈ (headPieces name.text params).getLast?, p.gap ≠ [] := by
      rw [headPieces, List.getLast?_append_of_ne_nil _ (by simp)]
      simp
    rw [Node.pieces, hc.isChain_concat rfl, isChain_append_of_gap hgap,
      hc.isChain_piecesList ['\n'] [' '] body hw, Node.Separate]
    simp [hc.isChain_headPieces]

/-- Only where nothing is written between nodes can they run together. -/
theorem Clash.isChain_piecesList (hc : Clash clash meets) (sep last : Text) :
    (ns : List Node) → Node.WellMadeList ns →
    ((Node.piecesList sep last ns).IsChain (Piece.Apart clash) ↔
      (sep = [] → ns.IsChain fun v w => meets v.shape w.shape = false) ∧
        Node.SeparateList meets ns)
  | [], _ => by simp [Node.piecesList, Node.SeparateList]
  | n :: ns, hw => by
    rw [Node.piecesList, List.isChain_append, hc.isChain_pieces _ n hw.1,
      hc.isChain_piecesList sep last ns hw.2, Node.SeparateList]
    cases ns with
    | nil => simp [Node.piecesList, Node.SeparateList]
    | cons m ns =>
      obtain ⟨q, qs, hqs, hq⟩ := m.exists_pieces (if ns.isEmpty then last else sep)
      have hhead : (Node.piecesList sep last (m :: ns)).head? = some q := by
        rw [Node.piecesList, hqs]
        rfl
      -- where the two nodes meet, only the last lexeme of one and the first of the other count
      have hjoint : (∀ x ∈ (n.pieces sep).getLast?, ∀ y ∈ some q, x.Apart clash y) ↔
          (sep = [] → meets n.shape m.shape = false) := by
        have hp := List.getLast?_eq_some_getLast (n.pieces_ne_nil sep)
        obtain ⟨hgap, hlast⟩ := n.getLast?_pieces sep _ hp
        simp only [hp, Option.mem_some_iff, forall_eq', Piece.Apart, hgap, hlast, hq,
          hc.shapes n m hw.1 hw.2.1]
      rw [hhead, List.isChain_cons_cons]
      show _ ∧ _ ∧ (∀ x ∈ (n.pieces sep).getLast?, ∀ y ∈ some q, x.Apart clash y) ↔ _
      rw [hjoint]
      tauto

end

end

theorem Program.isChain_pieces {p : Program} (h : Node.WellMadeList p.statements) :
    p.pieces.IsChain (Piece.Apart (Kind.clashes boundary)) ↔ p.Separate := by
  rw [Program.pieces, (clash_runsInto boundary).isChain_piecesList _ _ _ h]
  simp [Program.Separate]

end TypeStrip
