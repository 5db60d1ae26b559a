import TypeStrip.Proofs.Cuts

/-!
# Scanning as cutting

What a scan gives, said without a scanner: the source is cut into tokens with blanks between them.

* `Cell`                    a token and the gap behind it;
* `Segmentation`            a cut of a source into tokens, each at its own place;
* `Segmentation.pieces`     such a cut without places is one of the segmentations of `Segments`;
* `Segmentation.scan`       a source with such a cut is scanned into its tokens;
* `exists_segmentation`     a source that is scanned has such a cut;
* `Segmentation.unique`     and only one.
-/

namespace TypeStrip

/-- A token and the gap behind it. -/
structure Cell where
  token : Token
  gap : Text
  deriving DecidableEq, Repr

namespace Cell

def piece (c : Cell) : Piece := ⟨c.token.lexeme, c.gap⟩

def text (cells : List Cell) : Text := cells.flatMap fun c => c.token.text ++ c.gap

theorem text_cons (c : Cell) (cells : List Cell) :
    text (c :: cells) = c.token.text ++ (c.gap ++ text cells) := by
  simp [text]

theorem text_eq (cells : List Cell) : text cells = Piece.text (cells.map piece) := by
  induction cells with
  | nil => rfl
  | cons c cells ih =>
    rw [text_cons, List.map_cons, Piece.text_cons, ih]
    rfl

/-- The cells of pieces whose text begins at the offset `pos`. -/
def place (pos : Nat) : List Piece → List Cell
  | [] => []
  | p :: ps =>
    ⟨⟨p.lexeme.kind, p.lexeme.text, pos⟩, p.gap⟩ ::
      place (pos + p.lexeme.text.length + p.gap.length) ps

theorem map_piece_place (pos : Nat) (ps : List Piece) : (place pos ps).map piece = ps := by
  induction ps generalizing pos with
  | nil => rfl
  | cons p ps ih => rw [place, List.map_cons, ih]; rfl

theorem map_token_place (pos : Nat) (ps : List Piece) :
    (place pos ps).map token = Piece.tokens pos ps := by
  induction ps generalizing pos with
  | nil => rfl
  | cons p ps ih => rw [place, List.map_cons, ih, Piece.tokens]

/-- Every token stands at the end of the text in front of it; that of the first cell begins at the
offset `pos`. -/
def Placed (pos : Nat) (cells : List Cell) : Prop :=
  ∀ before c after, cells = before ++ c :: after → c.token.position = pos + (text before).length

theorem Placed.head {pos : Nat} {c : Cell} {cells : List Cell} (h : Placed pos (c :: cells)) :
    c.token.position = pos := h [] c cells rfl

theorem Placed.tail {pos : Nat} {c : Cell} {cells : List Cell} (h : Placed pos (c :: cells)) :
    Placed (pos + c.token.text.length + c.gap.length) cells := by
  intro before d after e
  have hd := h (c :: before) d after (by rw [e]; rfl)
  rw [hd, text_cons, List.length_append, List.length_append]
  omega

theorem placed_place (pos : Nat) (ps : List Piece) : Placed pos (place pos ps) := by
  induction ps generalizing pos with
  | nil =>
    intro before c after e
    exact absurd e.symm (by simp [place])
  | cons p ps ih =>
    intro before c after e
    cases before with
    | nil =>
      obtain ⟨rfl, -⟩ := List.cons.inj e
      rfl
    | cons d before =>
      obtain ⟨rfl, e'⟩ := List.cons.inj e
      rw [ih _ before c after e', text_cons, List.length_append, List.length_append]
      show pos + p.lexeme.text.length + p.gap.length + _ =
        pos + (p.lexeme.text.length + (p.gap.length + _))
      omega

/-- Where all tokens are at their places, the pieces tell the cells. -/
theorem Placed.eq {pos : Nat} {cells : List Cell} (h : Placed pos cells) :
    place pos (cells.map piece) = cells := by
  induction cells generalizing pos with
  | nil => rfl
  | cons c cells ih =>
    obtain ⟨⟨k, w, p⟩, g⟩ := c
    have hp : p = pos := h.head
    subst hp
    have htail := ih h.tail
    rw [List.map_cons, place]
    exact congrArg _ htail

end Cell

/-- A cut of `source` into the blanks in front and some cells: gaps are blank, every token is a
valid lexeme at its own offset, and no two tokens without a gap between them run together. -/
structure Segmentation (boundary : Bool) (source front : Text) (cells : List Cell) : Prop where
  text : source = front ++ Cell.text cells
  blank : Blanks front
  gaps : ∀ c ∈ cells, Blanks c.gap
  places : Cell.Placed front.length cells
  valid : ∀ c ∈ cells, c.token.lexeme.Valid boundary
  apart : cells.IsChain fun c d => c.gap = [] → c.token.kind.clashes boundary d.token.kind = false

namespace Segmentation

variable {boundary : Bool} {source front : Text} {cells : List Cell}

theorem pieces (h : Segmentation boundary source front cells) :
    Segments boundary (cells.map Cell.piece) where
  sound := by
    intro p hp
    obtain ⟨c, hc, rfl⟩ := List.mem_map.mp hp
    exact ⟨h.valid c hc, h.gaps c hc⟩
  apart := (List.isChain_map Cell.piece).mpr h.apart

theorem scan (h : Segmentation boundary source front cells) :
    scanFrom boundary 0 source = .ok (cells.map Cell.token) := by
  rw [h.text, scanFrom_blanks h.blank, Cell.text_eq, Nat.zero_add, scanFrom_text h.pieces,
    ← Cell.map_token_place, h.places.eq]

end Segmentation

variable {boundary : Bool} {source : Text}

theorem exists_segmentation {ts : List Token} (h : scanFrom boundary 0 source = .ok ts) :
    ∃ front cells, Segmentation boundary source front cells ∧ cells.map Cell.token = ts := by
  obtain ⟨g, ps, hg, hps, rfl, rfl⟩ := exists_segments h
  have hpiece : (Cell.place g.length ps).map Cell.piece = ps := Cell.map_piece_place _ ps
  refine ⟨g, Cell.place g.length ps, ⟨?_, hg, ?_, Cell.placed_place _ ps, ?_, ?_⟩, ?_⟩
  · rw [Cell.text_eq, hpiece]
  · intro c hc
    exact (hps.sound c.piece (hpiece ▸ List.mem_map_of_mem hc)).blank
  · intro c hc
    exact (hps.sound c.piece (hpiece ▸ List.mem_map_of_mem hc)).valid
  · have hapart := hps.apart
    rw [← hpiece] at hapart
    exact (List.isChain_map Cell.piece).mp hapart
  · rw [Cell.map_token_place, Nat.zero_add]

theorem Segmentation.unique {front front' : Text} {cells cells' : List Cell}
    (h : Segmentation boundary source front cells)
    (h' : Segmentation boundary source front' cells') : front = front' ∧ cells = cells' := by
  have hfair : ∀ p ∈ cells.map Cell.piece, p.Fair := fun p hp => (h.pieces.sound p hp).fair
  have hfair' : ∀ p ∈ cells'.map Cell.piece, p.Fair := fun p hp => (h'.pieces.sound p hp).fair
  have e : front ++ Piece.text (cells.map Cell.piece) =
      front' ++ Piece.text (cells'.map Cell.piece) := by
    rw [← Cell.text_eq, ← Cell.text_eq, ← h.text, ← h'.text]
  obtain ⟨rfl, hrest⟩ := blanks_append_inj h.blank h'.blank (head_text hfair) (head_text hfair') e
  -- both cuts are scanned into their tokens, so these are the same, and with them the lexemes
  have htokens : cells.map Cell.token = cells'.map Cell.token :=
    Except.ok.inj (h.scan.symm.trans h'.scan)
  have hlexemes : (cells.map Cell.piece).map Piece.lexeme =
      (cells'.map Cell.piece).map Piece.lexeme := by
    have hl := congrArg (List.map Token.lexeme) htokens
    rw [List.map_map, List.map_map] at hl ⊢
    exact hl
  have hpieces : cells.map Cell.piece = cells'.map Cell.piece :=
    Cuts.eq ⟨hfair, hfair', hrest⟩ hlexemes
  refine ⟨rfl, ?_⟩
  rw [← h.places.eq, hpieces, h'.places.eq]

/-- **Scanning gives the tokens of the one cut that a source has.**  A source is scanned exactly if
it can be cut into valid lexemes with blanks between them such that no two of them run together;
there is only one such cut, and its tokens are the result. -/
theorem scan_iff_segmentation (o : Options) (source : Text) :
    (∀ ts, scan o source = .ok ts ↔ ∃ front cells,
      Segmentation o.keywordBoundary source front cells ∧ cells.map Cell.token = ts) ∧
    ∀ front cells front' cells', Segmentation o.keywordBoundary source front cells →
      Segmentation o.keywordBoundary source front' cells' → front = front' ∧ cells = cells' := by
  refine ⟨fun ts => ⟨exists_segmentation, ?_⟩, fun _ _ _ _ h h' => h.unique h'⟩
  rintro ⟨front, cells, h, rfl⟩
  exact h.scan

/-- Without word boundaries a keyword may stand directly in front of a name, and a string directly
in front of a number. -/
theorem scan_iff_segmentation_legacy : ∃ front cells,
    Segmentation false " returnx\"( \"12\n".toList front cells ∧ cells.map Cell.token =
      [⟨.keywordReturn, "return".toList, 1⟩, ⟨.name, ['x'], 7⟩, ⟨.string, "\"( \"".toList, 8⟩,
        ⟨.number, "12".toList, 12⟩] ∧
    ∀ front' cells', Segmentation false " returnx\"( \"12\n".toList front' cells' →
      front = front' ∧ cells = cells' := by
  obtain ⟨hiff, hunique⟩ := scan_iff_segmentation ⟨false, true⟩ " returnx\"( \"12\n".toList
  obtain ⟨front, cells, h, htokens⟩ := (hiff [⟨.keywordReturn, "return".toList, 1⟩,
    ⟨.name, ['x'], 7⟩, ⟨.string, "\"( \"".toList, 8⟩, ⟨.number, "12".toList, 12⟩]).mp
      (by decide +kernel)
  exact ⟨front, cells, h, htokens, fun _ _ h' => hunique _ _ _ _ h h'⟩

end TypeStrip
