import TypeStrip.Compile
import TypeStrip.Proofs.Parsing
import TypeStrip.Proofs.Segmentation
import TypeStrip.Proofs.Skeleton

/-!
# Written programs

The text of a tree as a sequence of pieces: every lexeme of its skeleton with the spaces and line
breaks that are written behind it.

* `Node.pieces`            the pieces of a node, given the gap behind its last lexeme;
* `Program.text_pieces`    together they are the text that is written;
* `compile_eq`             what a run consists of;
* `compile_spaced`         the output of a run is the source without its annotations.
-/

namespace TypeStrip

/-- What may be written between two lexemes. -/
def Spacing (g : Text) : Prop := ∀ c ∈ g, c = ' ' ∨ c = '\n'

instance (g : Text) : Decidable (Spacing g) := List.decidableBAll _ g

theorem Spacing.blanks {g : Text} (h : Spacing g) : Blanks g := by
  intro c hc
  rcases h c hc with rfl | rfl <;> decide

/-! ### Pieces of a tree -/

def paramPieces : List Param → List Piece
  | [] => []
  | [p] => [⟨p.lexeme, []⟩]
  | p :: q :: ps => ⟨p.lexeme, []⟩ :: ⟨.mark .comma, [' ']⟩ :: paramPieces (q :: ps)

def headPieces (name : Text) (params : List Param) : List Piece :=
  [⟨.mark .keywordFunction, [' ']⟩, ⟨⟨.name, name⟩, []⟩, ⟨.mark .parenOpen, []⟩] ++
    paramPieces params ++ [⟨.mark .parenClose, [' ']⟩, ⟨.mark .braceOpen, [' ']⟩]

mutual

/-- The lexemes of a node, each with what is written behind it; `gap` is what follows the last. -/
def Node.pieces (gap : Text) : Node → List Piece
  | .number s => [⟨⟨.number, s⟩, gap⟩]
  | .string s => [⟨⟨.string, s⟩, gap⟩]
  | .identifier s => [⟨⟨.name, s⟩, gap⟩]
  | .operator op => [⟨⟨.operator, [op.sign]⟩, gap⟩]
  | .punctuation k s => [⟨⟨k, s⟩, gap⟩]
  | .returns values =>
    ⟨.mark .keywordReturn, [' ']⟩ :: Node.piecesList [] [] values ++ [⟨.mark .semicolon, gap⟩]
  | .function name params _ body =>
    headPieces name.text params ++ Node.piecesList ['\n'] [' '] body ++ [⟨.mark .braceClose, gap⟩]

/-- The same for several nodes with `sep` between them and `last` behind them. -/
def Node.piecesList (sep last : Text) : List Node → List Piece
  | [] => []
  | n :: ns => n.pieces (if ns.isEmpty then last else sep) ++ Node.piecesList sep last ns

end

def Program.pieces (p : Program) : List Piece := Node.piecesList ['\n'] [] p.statements

/-! ### Their text -/

theorem text_paramPieces (ps : List Param) :
    Piece.text (paramPieces ps) = List.intercalate [',', ' '] (ps.map Param.untyped) := by
  induction ps using paramPieces.induct with
  | case1 => rfl
  | case2 p => simp [paramPieces, Piece.text, Param.lexeme, Param.untyped]
  | case3 p q ps ih =>
    simp only [paramPieces, Piece.text_cons, ih, List.map_cons, List.intercalate_cons_cons,
      List.append_assoc]
    rfl

theorem intercalate_empty (l : List Text) : List.intercalate [] l = l.flatten := by
  induction l with
  | nil => rfl
  | cons w l ih =>
    cases l with
    | nil => simp
    | cons v l => rw [List.intercalate_cons_cons, ih, List.append_nil]; rfl

theorem returnText_eq (values : List Text) :
    returnText values = Kind.keywordReturn.word ++ ' ' :: (values.flatten ++ [';']) := by
  have hr : "return ".toList = Kind.keywordReturn.word ++ [' '] := by decide
  unfold returnText
  simp [hr]

/-- With an empty body, the spaces behind the brace that opens it and in front of the brace that
closes it are one. -/
theorem functionText_eq (name : Text) (params body : List Text) :
    functionText name params body = Kind.keywordFunction.word ++ ' ' :: (name ++ '(' ::
      (List.intercalate [',', ' '] params ++ ')' :: ' ' :: '\x7b' :: ' ' ::
        (List.intercalate ['\n'] body ++ ((if body.isEmpty then [] else [' ']) ++ ['\x7d'])))) := by
  have hf : "function ".toList = Kind.keywordFunction.word ++ [' '] := by decide
  have hcomma : ", ".toList = [',', ' '] := by decide
  have hclose : ") ".toList = [')', ' '] := by decide
  have hempty : "\x7b \x7d".toList = ['\x7b', ' ', '\x7d'] := by decide
  have hopen : "\x7b ".toList = ['\x7b', ' '] := by decide
  have hend : " \x7d".toList = [' ', '\x7d'] := by decide
  unfold functionText braced
  cases body with
  | nil => simp [hf, hcomma, hclose, hempty]
  | cons w l => simp [hf, hcomma, hclose, hopen, hend]

mutual

theorem Node.text_pieces (gap : Text) : (n : Node) →
    Piece.text (n.pieces gap) = n.untyped ++ gap
  | .number s | .string s | .identifier s | .punctuation _ s => by
    simp [Node.pieces, Node.untyped, Piece.text]
  | .operator op => by simp [Node.pieces, Node.untyped, Piece.text]
  | .returns values => by
    have hv : Piece.text (Node.piecesList [] [] values) = (Node.untypedList values).flatten := by
      rw [Node.text_piecesList [] [] values, ite_self, List.append_nil, intercalate_empty]
    rw [Node.pieces, Node.untyped, returnText_eq, List.cons_append, Piece.text_cons,
      Piece.text_append, hv]
    simp only [Piece.text_cons, Piece.text_nil, Lexeme.mark, List.append_assoc, List.cons_append,
      List.nil_append, List.append_nil]
    rfl
  | .function name params _ body => by
    rw [Node.pieces, Node.untyped, functionText_eq, Piece.text_append, Piece.text_append,
      Node.text_piecesList ['\n'] [' '] body, headPieces, Piece.text_append, Piece.text_append,
      text_paramPieces]
    simp only [Piece.text_cons, Piece.text_nil, Lexeme.mark, List.append_assoc, List.cons_append,
      List.nil_append, List.append_nil]
    rfl

theorem Node.text_piecesList (sep last : Text) : (ns : List Node) →
    Piece.text (Node.piecesList sep last ns) = List.intercalate sep (Node.untypedList ns) ++
      if (Node.untypedList ns).isEmpty then [] else last
  | [] => rfl
  | n :: ns => by
    rw [Node.piecesList, Piece.text_append, Node.text_pieces _ n, Node.text_piecesList sep last ns]
    cases ns with
    | nil => simp [Node.untypedList]
    | cons m ns => simp [Node.untypedList, List.intercalate_cons_cons]

end

theorem Program.text_pieces (p : Program) : Piece.text p.pieces = p.untyped := by
  rw [Program.pieces, Node.text_piecesList, ite_self, List.append_nil]
  rfl

/-! ### Their lexemes -/

theorem map_lexeme_paramPieces (ps : List Param) :
    (paramPieces ps).map Piece.lexeme = paramsSkeleton ps := by
  induction ps using paramPieces.induct with
  | case1 => rfl
  | case2 p => rfl
  | case3 p q ps ih =>
    rw [paramPieces, List.map_cons, List.map_cons, ih, paramsSkeleton_cons, paramsSkeleton_cons]
    rfl

mutual

theorem Node.map_lexeme_pieces (gap : Text) : (n : Node) →
    (n.pieces gap).map Piece.lexeme = n.skeleton
  | .number _ | .string _ | .identifier _ | .punctuation _ _ | .operator _ => rfl
  | .returns values => by
    simp [Node.pieces, Node.skeleton, Node.map_lexeme_piecesList [] [] values]
  | .function name params _ body => by
    simp [Node.pieces, Node.skeleton, headPieces, map_lexeme_paramPieces,
      Node.map_lexeme_piecesList ['\n'] [' '] body]

theorem Node.map_lexeme_piecesList (sep last : Text) : (ns : List Node) →
    (Node.piecesList sep last ns).map Piece.lexeme = Node.skeletonList ns
  | [] => rfl
  | n :: ns => by
    rw [Node.piecesList, List.map_append, Node.map_lexeme_pieces _ n,
      Node.map_lexeme_piecesList sep last ns, Node.skeletonList]

end

theorem Program.map_lexeme_pieces (p : Program) : p.pieces.map Piece.lexeme = p.skeleton :=
  Node.map_lexeme_piecesList _ _ _

/-! ### Their gaps -/

theorem spacing_paramPieces (ps : List Param) : ∀ p ∈ paramPieces ps, Spacing p.gap := by
  induction ps using paramPieces.induct with
  | case1 => simp [paramPieces]
  | case2 p => simp [paramPieces, Spacing]
  | case3 p q ps ih =>
    rw [paramPieces, List.forall_mem_cons, List.forall_mem_cons]
    exact ⟨nofun, by decide, ih⟩

theorem spacing_headPieces (name : Text) (params : List Param) :
    ∀ p ∈ headPieces name params, Spacing p.gap := by
  rw [headPieces, List.forall_mem_append, List.forall_mem_append]
  refine ⟨⟨?_, spacing_paramPieces params⟩, ?_⟩
  · simp [Spacing]
  · simp [Spacing]

mutual

theorem Node.spacing_pieces {gap : Text} (hg : Spacing gap) : (n : Node) →
    ∀ p ∈ n.pieces gap, Spacing p.gap
  | .number _ | .string _ | .identifier _ | .punctuation _ _ | .operator _ => by
    simpa [Node.pieces] using hg
  | .returns values => by
    rw [Node.pieces, List.forall_mem_append, List.forall_mem_cons]
    refine ⟨⟨?_, Node.spacing_piecesList ?_ ?_ values⟩, by simpa using hg⟩
    · decide
    · decide
    · decide
  | .function name params _ body => by
    rw [Node.pieces, List.forall_mem_append, List.forall_mem_append]
    refine ⟨⟨spacing_headPieces _ _, Node.spacing_piecesList ?_ ?_ body⟩, by simpa using hg⟩
    · decide
    · decide

theorem Node.spacing_piecesList {sep last : Text} (hs : Spacing sep) (hl : Spacing last) :
    (ns : List Node) → ∀ p ∈ Node.piecesList sep last ns, Spacing p.gap
  | [] => by simp [Node.piecesList]
  | n :: ns => by
    rw [Node.piecesList, List.forall_mem_append]
    refine ⟨Node.spacing_pieces ?_ n, Node.spacing_piecesList hs hl ns⟩
    split
    · exact hl
    · exact hs

end

theorem Program.spacing_pieces (p : Program) : ∀ q ∈ p.pieces, Spacing q.gap := by
  refine Node.spacing_piecesList ?_ ?_ p.statements
  · decide
  · decide

theorem Program.mem_skeleton {p : Program} {q : Piece} (h : q ∈ p.pieces) :
    q.lexeme ∈ p.skeleton := by
  rw [← Program.map_lexeme_pieces]
  exact List.mem_map_of_mem h

theorem Program.sound_pieces {p : Program} {boundary : Bool}
    (h : ∀ l ∈ p.skeleton, l.Valid boundary) : ∀ q ∈ p.pieces, q.Sound boundary :=
  fun q hq => ⟨h _ (Program.mem_skeleton hq), (p.spacing_pieces q hq).blanks⟩

/-! ### Their ends -/

def Node.firstKind : Node → Kind
  | .number _ => .number
  | .string _ => .string
  | .identifier _ => .name
  | .operator _ => .operator
  | .punctuation k _ => k
  | .returns _ => .keywordReturn
  | .function _ _ _ _ => .keywordFunction

def Node.lastKind : Node → Kind
  | .returns _ => .semicolon
  | .function _ _ _ _ => .braceClose
  | n => n.firstKind

theorem Node.exists_pieces (gap : Text) (n : Node) :
    ∃ p ps, n.pieces gap = p :: ps ∧ p.lexeme.kind = n.firstKind := by
  cases n <;> exact ⟨_, _, rfl, rfl⟩

theorem Node.pieces_ne_nil (gap : Text) (n : Node) : n.pieces gap ≠ [] := by
  obtain ⟨p, ps, hps, -⟩ := n.exists_pieces gap
  rw [hps]
  exact List.cons_ne_nil _ _

theorem Node.getLast?_pieces (gap : Text) (n : Node) :
    ∀ p ∈ (n.pieces gap).getLast?, p.gap = gap ∧ p.lexeme.kind = n.lastKind := by
  have hlast : ∃ ps l, n.pieces gap = ps ++ [⟨l, gap⟩] ∧ l.kind = n.lastKind := by
    cases n with
    | number s | string s | identifier s | operator op | punctuation k s =>
      exact ⟨[], _, rfl, rfl⟩
    | returns values => exact ⟨_, _, rfl, rfl⟩
    | function name params type body => exact ⟨_, _, rfl, rfl⟩
  obtain ⟨ps, l, hps, hl⟩ := hlast
  intro p hp
  rw [hps, List.getLast?_concat, Option.mem_some_iff] at hp
  exact hp ▸ ⟨rfl, hl⟩

/-- The last gap of several nodes is the one behind them. -/
theorem Node.getLast?_piecesList (sep last : Text) (ns : List Node) :
    ∀ p ∈ (Node.piecesList sep last ns).getLast?, p.gap = last := by
  induction ns with
  | nil => simp [Node.piecesList]
  | cons n ns ih =>
    intro p hp
    rw [Node.piecesList] at hp
    cases ns with
    | nil =>
      rw [Node.piecesList, List.append_nil] at hp
      exact (n.getLast?_pieces _ p hp).1
    | cons m ns =>
      have hne : Node.piecesList sep last (m :: ns) ≠ [] :=
        List.append_ne_nil_of_left_ne_nil (m.pieces_ne_nil _) _
      rw [List.getLast?_append_of_ne_nil _ hne] at hp
      exact ih p hp

/-! ### Runs -/

variable {o : Options}

/-- A tree can always be written, so a run fails only in its first two stages. -/
theorem compile_eq (o : Options) (s : Text) : compile o s =
    match scan o s with
    | .error f => .error (.scan f)
    | .ok ts =>
      match parse o ts with
      | .error stop => .error (.parse stop)
      | .ok p => .ok ⟨ts, p, p.untyped⟩ := by
  unfold compile read
  cases scan o s with
  | error f => rfl
  | ok ts =>
    dsimp only
    cases parse o ts with
    | error stop => rfl
    | ok p =>
      simp only [Program.emit_sketch]
      rfl

theorem compile_eq_ok_iff {s : Text} {c : Compilation} : compile o s = .ok c ↔
    scan o s = .ok c.tokens ∧ parse o c.tokens = .ok c.tree ∧ c.output = c.tree.untyped := by
  rw [compile_eq]
  constructor
  · intro h
    cases hscan : scan o s with
    | error e => rw [hscan] at h; cases h
    | ok ts =>
      simp only [hscan] at h
      cases hparse : parse o ts with
      | error e => rw [hparse] at h; cases h
      | ok p =>
        rw [hparse] at h
        cases h
        exact ⟨rfl, hparse, rfl⟩
  · rintro ⟨hscan, hparse, hout⟩
    simp only [hscan, hparse, ← hout]

theorem valid_of_scan {s : Text} {ts : List Token} (h : scan o s = .ok ts) :
    ∀ t ∈ ts, t.lexeme.Valid o.keywordBoundary := by
  obtain ⟨g, ps, -, hps, -, rfl⟩ := exists_segments h
  intro t ht
  have hmem : t.lexeme ∈ ps.map Piece.lexeme := by
    rw [← Piece.map_lexeme_tokens]
    exact List.mem_map_of_mem ht
  obtain ⟨p, hp, hl⟩ := List.mem_map.mp hmem
  rw [← hl]
  exact (hps.sound p hp).valid

/-- Only commas are added where types are left out. -/
theorem mem_eraseFrom {z : Zone} {l : Lexeme} {ls : List Lexeme} (h : l ∈ eraseFrom z ls) :
    l ∈ ls ∨ l = .mark .comma := by
  induction ls generalizing z with
  | nil => cases h
  | cons m ls ih =>
    rw [eraseFrom_cons, List.mem_append] at h
    rcases h with h | h
    · have hkeep : l = m ∨ l = .mark .comma := by
        cases z <;> simp only [Zone.keep, Zone.separate] at h <;> grind
      rcases hkeep with rfl | rfl
      · exact .inl List.mem_cons_self
      · exact .inr rfl
    · rcases ih h with h | h
      · exact .inl (List.mem_cons_of_mem _ h)
      · exact .inr h

/-- What the tree of a run is made of. -/
theorem compile_tree {s : Text} {c : Compilation} (h : compile o s = .ok c) :
    Spells o c.tokens c.tree.statements ∧ c.tree.nesting ≤ 100 ∧
      eraseTypes (c.tokens.map Token.lexeme) = c.tree.skeleton ∧
      ∀ l ∈ c.tree.skeleton, l.Valid o.keywordBoundary := by
  obtain ⟨hscan, hparse, -⟩ := compile_eq_ok_iff.mp h
  obtain ⟨hsp, hnest⟩ := parse_eq_ok_iff.mp hparse
  have hvalid := valid_of_scan hscan
  have herase : eraseTypes (c.tokens.map Token.lexeme) = c.tree.skeleton := hsp.eraseTypes hvalid
  refine ⟨hsp, hnest, herase, ?_⟩
  intro l hl
  rw [← herase] at hl
  rcases mem_eraseFrom hl with hl | rfl
  · obtain ⟨t, ht, rfl⟩ := List.mem_map.mp hl
    exact hvalid t ht
  · rfl

/-! ### Outputs -/

/-- A text that consists of words in order, with nothing but spaces and line breaks between
them. -/
inductive Spaced : List Text → Text → Prop where
  | nil : Spaced [] []
  | last (w : Text) : Spaced [w] w
  | cons {w v g s : Text} {ws : List Text} (hg : Spacing g) (h : Spaced (v :: ws) s) :
      Spaced (w :: v :: ws) (w ++ (g ++ s))

theorem spaced_text {ps : List Piece} (hgap : ∀ p ∈ ps, Spacing p.gap)
    (hlast : ∀ p ∈ ps.getLast?, p.gap = []) :
    Spaced ((ps.map Piece.lexeme).map Lexeme.text) (Piece.text ps) := by
  induction ps with
  | nil => exact .nil
  | cons p ps ih =>
    obtain ⟨hp, hps⟩ := List.forall_mem_cons.mp hgap
    rw [Piece.text_cons]
    cases ps with
    | nil =>
      have h : p.gap = [] := hlast p rfl
      rw [h, Piece.text_nil, List.append_nil, List.append_nil]
      exact .last _
    | cons q ps =>
      rw [List.getLast?_cons_cons] at hlast
      exact .cons hp (ih hps hlast)

/-- **The output of a run is its source without annotations.**  The words of the source, without
the annotations of function headers and with one comma between parameters, stand in the output in
their order, and nothing but spaces and line breaks stands between them. -/
theorem compile_spaced (o : Options) (s : Text) (c : Compilation) (h : compile o s = .ok c) :
    scan o s = .ok c.tokens ∧
      Spaced ((eraseTypes (c.tokens.map Token.lexeme)).map Lexeme.text) c.output := by
  obtain ⟨hscan, -, hout⟩ := compile_eq_ok_iff.mp h
  obtain ⟨-, -, herase, -⟩ := compile_tree h
  refine ⟨hscan, ?_⟩
  rw [herase, hout, ← Program.map_lexeme_pieces, ← Program.text_pieces]
  exact spaced_text c.tree.spacing_pieces (Node.getLast?_piecesList _ _ _)

/-- A run of which something has been computed, and what follows from that. -/
theorem exists_run {α : Type} {f : Compilation → α} {s : Text} {a : α} {P : Compilation → Prop}
    (h : (compile o s).toOption.map f = some a)
    (hP : ∀ c, compile o s = .ok c → f c = a → P c) : ∃ c, compile o s = .ok c ∧ f c = a ∧ P c := by
  cases hc : compile o s with
  | error e => rw [hc] at h; cases h
  | ok c =>
    rw [hc] at h
    have hf : f c = a := Option.some.inj h
    exact ⟨c, rfl, hf, hP c hc hf⟩

/-- Commas that are missing or left over, a string with a colon and spaces, and a function as a
value. -/
theorem compile_spaced_nested : ∃ c,
    compile {} "function f(a: s b,): t \x7b return \"u : v\" x function g(): t \x7b \x7d; \x7d".toList =
      .ok c ∧
    (c.output, (eraseTypes (c.tokens.map Token.lexeme)).map Lexeme.text) =
      ("function f(a, b) \x7b return \"u : v\"xfunction g() \x7b \x7d; \x7d".toList,
        ["function", "f", "(", "a", ",", "b", ")", "\x7b", "return", "\"u : v\"", "x", "function",
          "g", "(", ")", "\x7b", "\x7d", ";", "\x7d"].map String.toList) ∧
    Spaced ((eraseTypes (c.tokens.map Token.lexeme)).map Lexeme.text) c.output := by
  refine exists_run (f := fun c =>
    (c.output, (eraseTypes (c.tokens.map Token.lexeme)).map Lexeme.text)) ?_ ?_
  · decide +kernel
  · intro c hc _
    exact (compile_spaced _ _ c hc).2

end TypeStrip
