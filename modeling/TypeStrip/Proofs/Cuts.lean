import TypeStrip.Proofs.Segmentation

/-!
# Cuts of one text

Two sequences of pieces with the same text.  Their lexemes need not be the same, but where a lexeme
is the same, so are the gap behind it and what is left of the text.

* `Lexeme.Spelled`            valid up to keywords, which a name may spell here;
* `Cuts`                      two cuts of one text into such lexemes;
* `Cuts.step`                 where both begin with one lexeme, they agree on the first piece;
* `Cuts.eq`                   two cuts of one text into the same lexemes have the same gaps;
* `map_lexeme_scanFrom_iff`   a cut into valid lexemes is read back exactly if it is a
                              segmentation.
-/

namespace TypeStrip

variable {boundary : Bool}

/-! ### Lexemes up to keywords -/

/-- Valid, except that a name may spell a keyword. -/
def Lexeme.Spelled (l : Lexeme) : Prop :=
  match l.kind with
  | .name => l.text ≠ [] ∧ ∀ c ∈ l.text, isLetter c = true
  | _ => l.Valid true

theorem Lexeme.valid_iff {l : Lexeme} : l.Valid boundary ↔
    l.Spelled ∧ (l.kind = .name → KeywordFree boundary l.text) := by
  obtain ⟨k, w⟩ := l
  cases k <;> simp [Lexeme.Valid, Lexeme.Spelled, and_assoc]

namespace Lexeme.Spelled

variable {l : Lexeme}

theorem valid (h : l.Spelled) (hk : l.kind ≠ .name) : l.Valid boundary :=
  Lexeme.valid_iff.mpr ⟨h, fun hn => absurd hn hk⟩

theorem head (h : l.Spelled) : ∃ c s, l.text = c :: s ∧ isBlank c = false ∧
    isDigit c = (l.kind == .number) ∧ isLetter c = l.kind.isWord := by
  by_cases hk : l.kind = .name
  · obtain ⟨k, w⟩ := l
    cases hk
    obtain ⟨c, s, rfl⟩ := List.exists_cons_of_ne_nil h.1
    have hl := h.2 c List.mem_cons_self
    exact ⟨c, s, rfl, isBlank_of_isLetter hl, isDigit_of_isLetter hl, hl⟩
  · have hvalid : l.Valid true := h.valid hk
    exact hvalid.head

theorem text_ne_nil (h : l.Spelled) : l.text ≠ [] := by
  obtain ⟨c, s, hcs, -⟩ := h.head
  rw [hcs]
  exact List.cons_ne_nil _ _

theorem letters (h : l.Spelled) (hw : l.kind.isWord = true) : ∀ c ∈ l.text, isLetter c = true := by
  obtain ⟨k, w⟩ := l
  cases k with
  | name => exact h.2
  | keywordReturn | keywordFunction => cases h; exact List.all_eq_true.mp (by decide)
  | _ => cases hw

end Lexeme.Spelled

/-- Reading gives one lexeme only. -/
theorem Lexeme.eq_of_append_eq {l m : Lexeme} {r t : Text} (hl : l.Valid boundary)
    (hr : l.Stops boundary r) (hm : m.Valid boundary) (ht : m.Stops boundary t)
    (e : l.text ++ r = m.text ++ t) : l = m := by
  obtain ⟨c, s, hcs, hread⟩ := Item.read_of_valid hl hr
  obtain ⟨d, s', hds, hread'⟩ := Item.read_of_valid hm ht
  have hsame : c :: s = d :: s' := by rw [← hcs, e, hds]
  obtain ⟨rfl, rfl⟩ := List.cons.inj hsame
  rw [hread] at hread'
  obtain ⟨k, w⟩ := l
  obtain ⟨k', w'⟩ := m
  cases hread'
  rfl

/-! ### Pieces up to keywords -/

/-- A lexeme that is valid up to keywords, and a gap of blanks. -/
structure Piece.Fair (p : Piece) : Prop where
  spelled : p.lexeme.Spelled
  blank : Blanks p.gap

theorem Piece.Sound.fair {p : Piece} (h : p.Sound boundary) : p.Fair :=
  ⟨(Lexeme.valid_iff.mp h.valid).1, h.blank⟩

theorem head_text {ps : List Piece} (h : ∀ p ∈ ps, p.Fair) :
    ∀ c ∈ (Piece.text ps).head?, isBlank c = false := by
  cases ps with
  | nil => intro c hc; cases hc
  | cons p ps =>
    obtain ⟨d, s, hd, hb, -⟩ := (h p List.mem_cons_self).spelled.head
    intro c hc
    rw [Piece.text_cons, hd, List.cons_append, List.head?_cons, Option.mem_some_iff] at hc
    exact hc ▸ hb

/-- Blanks in front of what is not blank are cut off in one way only. -/
theorem blanks_append_inj {g h s t : Text} (hg : Blanks g) (hh : Blanks h)
    (hs : ∀ c ∈ s.head?, isBlank c = false) (ht : ∀ c ∈ t.head?, isBlank c = false)
    (e : g ++ s = h ++ t) : g = h ∧ s = t := by
  obtain ⟨h1, h2⟩ := takeWhile_append_stop hg hs
  obtain ⟨h3, h4⟩ := takeWhile_append_stop hh ht
  rw [e] at h1 h2
  exact ⟨h1.symm.trans h3, h2.symm.trans h4⟩

/-! ### Two cuts -/

/-- Two cuts of one text. -/
structure Cuts (ps qs : List Piece) : Prop where
  left : ∀ p ∈ ps, p.Fair
  right : ∀ q ∈ qs, q.Fair
  same : Piece.text ps = Piece.text qs

theorem Kind.goesOn_of_isRun {k : Kind} (h : k.isRun = false) (c : Char) :
    k.goesOn boundary c = false := by
  cases k <;> first | rfl | cases h

namespace Cuts

variable {p q : Piece} {ps qs : List Piece}

theorem symm (h : Cuts ps qs) : Cuts qs ps := ⟨h.right, h.left, h.same.symm⟩

theorem fair_left (h : Cuts (p :: ps) qs) : p.Fair := h.left p List.mem_cons_self

theorem fair_right (h : Cuts ps (q :: qs)) : q.Fair := h.right q List.mem_cons_self

theorem text_eq (h : Cuts (p :: ps) (q :: qs)) :
    p.lexeme.text ++ (p.gap ++ Piece.text ps) = q.lexeme.text ++ (q.gap ++ Piece.text qs) := by
  rw [← Piece.text_cons, ← Piece.text_cons]
  exact h.same

/-- Behind the same word both cuts have the same gap, and go on as cuts of one text. -/
theorem rest (h : Cuts (p :: ps) (q :: qs)) (ht : p.lexeme.text = q.lexeme.text) :
    p.gap = q.gap ∧ Cuts ps qs := by
  have hps : ∀ r ∈ ps, r.Fair := fun r hr => h.left r (List.mem_cons_of_mem _ hr)
  have hqs : ∀ r ∈ qs, r.Fair := fun r hr => h.right r (List.mem_cons_of_mem _ hr)
  have e := h.text_eq
  rw [ht] at e
  obtain ⟨hgap, hrest⟩ := blanks_append_inj h.fair_left.blank h.fair_right.blank (head_text hps)
    (head_text hqs) (List.append_cancel_left e)
  exact ⟨hgap, hps, hqs, hrest⟩

theorem step (h : Cuts (p :: ps) (q :: qs)) (hl : p.lexeme = q.lexeme) : p = q ∧ Cuts ps qs := by
  obtain ⟨hgap, hrest⟩ := h.rest (congrArg Lexeme.text hl)
  obtain ⟨l, g⟩ := p
  obtain ⟨l', g'⟩ := q
  cases hl
  cases hgap
  exact ⟨rfl, hrest⟩

theorem eq_nil (h : Cuts [] qs) : qs = [] := by
  cases qs with
  | nil => rfl
  | cons q qs =>
    have e := h.same
    obtain ⟨c, s, hcs, -⟩ := h.fair_right.spelled.head
    rw [Piece.text_cons, hcs] at e
    cases e

protected theorem eq (h : Cuts ps qs) (hl : ps.map Piece.lexeme = qs.map Piece.lexeme) :
    ps = qs := by
  induction ps generalizing qs with
  | nil => exact h.eq_nil.symm
  | cons p ps ih =>
    obtain ⟨q, qs, rfl, hq, hl'⟩ := List.map_eq_cons_iff.mp hl.symm
    obtain ⟨rfl, hrest⟩ := h.step hq.symm
    rw [ih hrest hl'.symm]

theorem kinds (h : Cuts (p :: ps) (q :: qs)) :
    (p.lexeme.kind == .number) = (q.lexeme.kind == .number) ∧
      p.lexeme.kind.isWord = q.lexeme.kind.isWord := by
  obtain ⟨c, s, hcs, -, hd, hl⟩ := h.fair_left.spelled.head
  obtain ⟨c', s', hcs', -, hd', hl'⟩ := h.fair_right.spelled.head
  have e := h.text_eq
  rw [hcs, hcs', List.cons_append, List.cons_append] at e
  obtain ⟨rfl, -⟩ := List.cons.inj e
  exact ⟨hd.symm.trans hd', hl.symm.trans hl'⟩

/-- Lexemes that do not go on are the same in both cuts. -/
theorem lexeme_eq (h : Cuts (p :: ps) (q :: qs)) (hp : p.lexeme.kind.isRun = false) :
    p.lexeme = q.lexeme := by
  obtain ⟨hnumber, hword⟩ := h.kinds
  have hq : q.lexeme.kind.isRun = false := by
    rw [Kind.isRun, ← hnumber, ← hword]
    exact hp
  have hname : ∀ k : Kind, k.isRun = false → k ≠ .name := by
    rintro k hk rfl
    cases hk
  have hvalid : p.lexeme.Valid true := h.fair_left.spelled.valid (hname _ hp)
  exact Lexeme.eq_of_append_eq hvalid (fun c _ => Kind.goesOn_of_isRun hp c)
    (h.fair_right.spelled.valid (hname _ hq)) (fun c _ => Kind.goesOn_of_isRun hq c) h.text_eq

end Cuts

/-! ### Scans -/

/-- A scan of the text of some pieces cuts it without blanks in front. -/
theorem exists_segments_text {ps : List Piece} {pos : Nat} {ts : List Token}
    (hps : ∀ p ∈ ps, p.Fair) (h : scanFrom boundary pos (Piece.text ps) = .ok ts) :
    ∃ qs, Segments boundary qs ∧ Cuts ps qs ∧ ts = Piece.tokens pos qs := by
  obtain ⟨g, qs, hg, hqs, hs, hts⟩ := exists_segments h
  have hfair : ∀ q ∈ qs, q.Fair := fun q hq => (hqs.sound q hq).fair
  have e : [] ++ Piece.text ps = g ++ Piece.text qs := hs
  obtain ⟨rfl, hrest⟩ := blanks_append_inj Blanks.nil hg (head_text hps) (head_text hfair) e
  exact ⟨qs, hqs, ⟨hps, hfair, hrest⟩, hts⟩

theorem map_lexeme_scanFrom_iff {ps : List Piece} {pos : Nat} {ts : List Token}
    (hps : ∀ p ∈ ps, p.Sound boundary) (h : scanFrom boundary pos (Piece.text ps) = .ok ts) :
    ts.map Token.lexeme = ps.map Piece.lexeme ↔
      ps.IsChain (Piece.Apart (Kind.clashes boundary)) := by
  constructor
  · intro hts
    obtain ⟨qs, hqs, hcuts, rfl⟩ := exists_segments_text (fun p hp => (hps p hp).fair) h
    rw [Piece.map_lexeme_tokens] at hts
    rw [hcuts.eq hts.symm]
    exact hqs.apart
  · intro hchain
    rw [scanFrom_text ⟨hps, hchain⟩ pos] at h
    cases h
    exact Piece.map_lexeme_tokens pos ps

end TypeStrip
