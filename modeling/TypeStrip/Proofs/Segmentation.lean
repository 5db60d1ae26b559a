import Mathlib.Data.List.Chain
import TypeStrip.Proofs.Lexeme
import TypeStrip.Token.Scan

/-!
# Segmentations

A text cut into lexemes, each with the blanks behind it.

* `Piece`             a lexeme and the gap behind it;
* `Segments`          valid lexemes, blank gaps, and no two lexemes that run together;
* `Halts`             texts whose first character no lexeme goes on with;
* `scanFrom_text`     the text of a segmentation is scanned into its lexemes, also in front of a
                      text that halts them (`scanFrom_text_append`);
* `exists_segments`   a text that is scanned has a segmentation;
* `scanFrom_append`   and is scanned in the same way in front of a text that halts it.
-/

namespace TypeStrip

def Blanks (g : Text) : Prop := ∀ c ∈ g, isBlank c = true

theorem Blanks.nil : Blanks [] := by
  intro c hc
  cases hc

/-- The kinds that are spelled with letters. -/
def Kind.isWord : Kind → Bool
  | name | keywordReturn | keywordFunction => true
  | _ => false

/-- The kinds of lexemes that go on as long as they can. -/
def Kind.isRun (k : Kind) : Bool := k == .number || k.isWord

/-- Whether a lexeme of the first kind runs into one of the second that directly follows it. -/
def Kind.clashes (boundary : Bool) (k l : Kind) : Bool :=
  match k with
  | number => l == number
  | name => l.isWord
  | keywordReturn | keywordFunction => boundary && l.isWord
  | _ => false

structure Piece where
  lexeme : Lexeme
  gap : Text
  deriving DecidableEq, Repr

namespace Piece

def text (ps : List Piece) : Text := ps.flatMap fun p => p.lexeme.text ++ p.gap

theorem text_nil : text [] = [] := rfl
theorem text_cons (p : Piece) (ps : List Piece) :
    text (p :: ps) = p.lexeme.text ++ (p.gap ++ text ps) := by
  simp [text]
theorem text_append (ps qs : List Piece) : text (ps ++ qs) = text ps ++ text qs := by
  simp [text]

/-- The tokens of pieces whose text begins at the offset `pos`. -/
def tokens (pos : Nat) : List Piece → List Token
  | [] => []
  | p :: ps =>
    ⟨p.lexeme.kind, p.lexeme.text, pos⟩ :: tokens (pos + p.lexeme.text.length + p.gap.length) ps

theorem map_lexeme_tokens (pos : Nat) (ps : List Piece) :
    (tokens pos ps).map Token.lexeme = ps.map Piece.lexeme := by
  induction ps generalizing pos with
  | nil => rfl
  | cons p ps ih => rw [tokens, List.map_cons, ih, List.map_cons]; rfl

/-- Two neighbours with nothing between them do not clash. -/
def Apart (clash : Kind → Kind → Bool) (p q : Piece) : Prop :=
  p.gap = [] → clash p.lexeme.kind q.lexeme.kind = false

/-- A valid lexeme and a gap of blanks. -/
structure Sound (boundary : Bool) (p : Piece) : Prop where
  valid : p.lexeme.Valid boundary
  blank : Blanks p.gap

end Piece

/-- Pieces into which a scan may cut a text. -/
structure Segments (boundary : Bool) (ps : List Piece) : Prop where
  sound : ∀ p ∈ ps, p.Sound boundary
  apart : ps.IsChain (Piece.Apart (Kind.clashes boundary))

variable {boundary : Bool}

/-! ### First characters -/

/-- A lexeme is not empty, and its first character tells numbers, words and the rest apart. -/
theorem Lexeme.Valid.head {l : Lexeme} (h : l.Valid boundary) : ∃ c s, l.text = c :: s ∧
    isBlank c = false ∧ isDigit c = (l.kind == .number) ∧ isLetter c = l.kind.isWord := by
  obtain ⟨k, w⟩ := l
  cases k with
  | number =>
    obtain ⟨c, s, rfl⟩ := List.exists_cons_of_ne_nil h.1
    have hd := h.2 c List.mem_cons_self
    have hl : isLetter c = false := by
      cases hc : isLetter c with
      | false => rfl
      | true => rw [isDigit_of_isLetter hc] at hd; contradiction
    exact ⟨c, s, rfl, isBlank_of_isDigit hd, hd, hl⟩
  | name =>
    obtain ⟨c, s, rfl⟩ := List.exists_cons_of_ne_nil h.1
    have hl := h.2.1 c List.mem_cons_self
    exact ⟨c, s, rfl, isBlank_of_isLetter hl, isDigit_of_isLetter hl, hl⟩
  | string =>
    obtain ⟨s, rfl, -⟩ := h
    exact ⟨'"', s ++ ['"'], rfl, by decide, rfl, rfl⟩
  | operator =>
    obtain ⟨c, hc, rfl⟩ := h
    obtain ⟨-, hb, hd, hl, -⟩ := classes_of_isOperator hc
    exact ⟨c, [], rfl, hb, hd, hl⟩
  | keywordReturn | keywordFunction | parenOpen | parenClose | braceOpen | braceClose | colon
  | comma | semicolon =>
    cases h
    exact ⟨_, _, rfl, by decide, by decide, by decide⟩

/-- No lexeme goes on with the first character of the text. -/
def Halts (r : Text) : Prop := ∀ c ∈ r.head?, isDigit c = false ∧ isLetter c = false

theorem Kind.goesOn_eq_false {k : Kind} {c : Char} (hd : isDigit c = false)
    (hl : isLetter c = false) : k.goesOn boundary c = false := by
  cases k <;> simp [Kind.goesOn, hd, hl]

theorem Kind.goesOn_of_isBlank {k : Kind} {c : Char} (h : isBlank c = true) :
    k.goesOn boundary c = false :=
  Kind.goesOn_eq_false (isDigit_of_isBlank h) (isLetter_of_isBlank h)

theorem halts_of_isBlank {r : Text} (h : ∀ c ∈ r.head?, isBlank c = true) : Halts r :=
  fun c hc => ⟨isDigit_of_isBlank (h c hc), isLetter_of_isBlank (h c hc)⟩

/-- A kind goes on with the first character of a lexeme exactly if it runs into that lexeme. -/
theorem Kind.goesOn_head {k l : Kind} {c : Char} (hd : isDigit c = (l == .number))
    (hl : isLetter c = l.isWord) : k.goesOn boundary c = k.clashes boundary l := by
  cases k <;> simp only [Kind.goesOn, Kind.clashes, hd, hl]

/-- A lexeme stops at the gap behind it or, where that is empty, at a neighbour that it does not
run into. -/
theorem Segments.stops {p : Piece} {ps : List Piece} (h : Segments boundary (p :: ps)) :
    p.lexeme.Stops boundary (p.gap ++ Piece.text ps) := by
  intro c hc
  cases hg : p.gap with
  | cons d g =>
    rw [hg, List.cons_append, List.head?_cons, Option.mem_some_iff] at hc
    exact Kind.goesOn_of_isBlank ((h.sound p List.mem_cons_self).blank c (by rw [hg, hc]; simp))
  | nil =>
    rw [hg, List.nil_append] at hc
    cases ps with
    | nil => cases hc
    | cons q ps =>
      have hno := (List.isChain_cons_cons.mp h.apart).1 hg
      obtain ⟨d, s, hd, -, hdig, hlet⟩ :=
        (h.sound q (List.mem_cons_of_mem _ List.mem_cons_self)).valid.head
      rw [Piece.text_cons, hd, List.cons_append, List.head?_cons, Option.mem_some_iff] at hc
      subst hc
      rw [Kind.goesOn_head hdig hlet, hno]

/-- Pieces in front of which a lexeme stops do not run together with it. -/
theorem apart_of_stops {p q : Piece} {ps : List Piece} (hq : q.Sound boundary)
    (h : p.lexeme.Stops boundary (p.gap ++ Piece.text (q :: ps))) :
    p.Apart (Kind.clashes boundary) q := by
  intro hg
  obtain ⟨d, s, hd, -, hdig, hlet⟩ := hq.valid.head
  rw [← Kind.goesOn_head hdig hlet]
  exact h d (by rw [hg, List.nil_append, Piece.text_cons, hd]; rfl)

/-! ### Scanning pieces -/

theorem Segments.tail {p : Piece} {ps : List Piece} (h : Segments boundary (p :: ps)) :
    Segments boundary ps :=
  ⟨fun q hq => h.sound q (List.mem_cons_of_mem _ hq), h.apart.tail⟩

theorem scanFrom_blanks {g : Text} (hg : Blanks g) (pos : Nat) (s : Text) :
    scanFrom boundary pos (g ++ s) = scanFrom boundary (pos + g.length) s := by
  induction g generalizing pos with
  | nil => rfl
  | cons c g ih =>
    rw [List.cons_append, scanFrom_blank pos (Item.read_blank (hg c List.mem_cons_self)),
      ih (fun d hd => hg d (List.mem_cons_of_mem _ hd)), List.length_cons]
    congr 1
    omega

/-- A valid lexeme in front of a text is its first token. -/
theorem scanFrom_valid {l : Lexeme} {r : Text} (hl : l.Valid boundary)
    (hs : l.Stops boundary r) (pos : Nat) : scanFrom boundary pos (l.text ++ r) =
      (scanFrom boundary (pos + l.text.length) r).map (⟨l.kind, l.text, pos⟩ :: ·) := by
  obtain ⟨c, s, hcs, hread⟩ := Item.read_of_valid hl hs
  rw [hcs, scanFrom_lexeme pos hread]

/-- What halts every lexeme stops the last one as well. -/
theorem Segments.stops_append {p : Piece} {ps : List Piece} (h : Segments boundary (p :: ps))
    {r : Text} (hr : Halts r) :
    p.lexeme.Stops boundary (p.gap ++ (Piece.text ps ++ r)) := by
  intro c hc
  rw [← List.append_assoc, List.head?_append] at hc
  cases hhead : (p.gap ++ Piece.text ps).head? with
  | none =>
    rw [hhead, Option.none_or] at hc
    exact Kind.goesOn_eq_false (hr c hc).1 (hr c hc).2
  | some d =>
    rw [hhead, Option.some_or, Option.mem_some_iff] at hc
    exact h.stops c (hc ▸ hhead)

theorem scanFrom_text_append {ps : List Piece} (h : Segments boundary ps) {r : Text}
    (hr : Halts r) (pos : Nat) :
    scanFrom boundary pos (Piece.text ps ++ r) =
      (scanFrom boundary (pos + (Piece.text ps).length) r).map (Piece.tokens pos ps ++ ·) := by
  induction ps generalizing pos with
  | nil =>
    show scanFrom boundary pos r = (scanFrom boundary pos r).map fun us => us
    cases scanFrom boundary pos r <;> rfl
  | cons p ps ih =>
    have hp := h.sound p List.mem_cons_self
    have hfirst := scanFrom_valid hp.valid (h.stops_append hr) pos
    have hlength : pos + (Piece.text (p :: ps)).length =
        pos + p.lexeme.text.length + p.gap.length + (Piece.text ps).length := by
      rw [Piece.text_cons, List.length_append, List.length_append]
      omega
    rw [hlength, Piece.text_cons, List.append_assoc, List.append_assoc, hfirst,
      scanFrom_blanks hp.blank, ih h.tail]
    cases scanFrom boundary _ r <;> rfl

theorem scanFrom_text {ps : List Piece} (h : Segments boundary ps) (pos : Nat) :
    scanFrom boundary pos (Piece.text ps) = .ok (Piece.tokens pos ps) := by
  have hall := scanFrom_text_append (r := []) h nofun pos
  rw [List.append_nil, scanFrom_nil] at hall
  rw [hall]
  exact congrArg Except.ok (List.append_nil _)

/-- A text that is scanned has a segmentation, perhaps behind some blanks. -/
theorem exists_segments {s : Text} {pos : Nat} {ts : List Token}
    (h : scanFrom boundary pos s = .ok ts) : ∃ g ps, Blanks g ∧ Segments boundary ps ∧
      s = g ++ Piece.text ps ∧ ts = Piece.tokens (pos + g.length) ps := by
  induction hn : s.length using Nat.strong_induction_on generalizing s pos ts with
  | _ n ih =>
  cases s with
  | nil =>
    rw [scanFrom_nil] at h
    cases h
    exact ⟨[], [], Blanks.nil, ⟨by simp, by simp⟩, rfl, rfl⟩
  | cons c s =>
    cases hread : Item.read boundary c s with
    | error e =>
      rw [scanFrom_fault pos hread] at h
      cases h
    | ok i =>
      have hlt := Item.length_rest_read hread
      cases i with
      | blank r =>
        obtain ⟨hc, rfl⟩ := Item.blank_of_read hread
        rw [scanFrom_blank pos hread] at h
        obtain ⟨g, ps, hg, hps, hs, hts⟩ := ih _ (hn ▸ hlt) h rfl
        refine ⟨c :: g, ps, ?_, hps, by rw [hs]; rfl, ?_⟩
        · intro d hd
          rcases List.mem_cons.mp hd with rfl | hd
          · exact hc
          · exact hg d hd
        · rw [hts, List.length_cons]
          congr 1
          omega
      | lexeme k w r =>
        obtain ⟨hsplit, hvalid, hstops⟩ := Item.valid_of_read hread
        rw [scanFrom_lexeme pos hread] at h
        cases hrest : scanFrom boundary (pos + w.length) r with
        | error e => rw [hrest] at h; cases h
        | ok us =>
          rw [hrest] at h
          cases h
          obtain ⟨g, ps, hg, hps, rfl, rfl⟩ := ih _ (hn ▸ hlt) hrest rfl
          refine ⟨[], ⟨⟨k, w⟩, g⟩ :: ps, Blanks.nil, ⟨?_, ?_⟩, ?_, rfl⟩
          · intro p hp
            rcases List.mem_cons.mp hp with rfl | hp
            · exact ⟨hvalid, hg⟩
            · exact hps.sound p hp
          · cases ps with
            | nil => exact List.isChain_singleton _
            | cons q ps =>
              exact List.isChain_cons_cons.mpr
                ⟨apart_of_stops (hps.sound q List.mem_cons_self) hstops, hps.apart⟩
          · rw [hsplit, Piece.text_cons]
            rfl

/-- A text that is scanned is scanned in the same way in front of what halts its last lexeme. -/
theorem scanFrom_append {s : Text} {pos : Nat} {ts : List Token}
    (h : scanFrom boundary pos s = .ok ts) {r : Text} (hr : Halts r) :
    scanFrom boundary pos (s ++ r) =
      (scanFrom boundary (pos + s.length) r).map (ts ++ ·) := by
  obtain ⟨g, ps, hg, hps, rfl, rfl⟩ := exists_segments h
  rw [List.append_assoc, scanFrom_blanks hg, scanFrom_text_append hps hr, List.length_append,
    Nat.add_assoc]

end TypeStrip
