import TypeStrip.Proofs.Joining

/-!
# What stands behind words

A written program has a space behind every keyword, and behind a name only in front of a brace that
closes a body.  With that, a text shows where keywords stand even if some of its names run into
keywords or spell them.

* `Regular`                 the rule, for pieces;
* `Node.regular_pieces`     written programs keep to it;
* `eq_of_regular`           two cuts of one text that keep to it are equal, if one of them is a
                            segmentation and in the other no neighbours are one number or one name.
-/

namespace TypeStrip

variable {boundary : Bool}

def Kind.isKeyword : Kind → Bool
  | keywordReturn | keywordFunction => true
  | _ => false

/-- The next piece is a brace that closes a body. -/
def Closing (ps : List Piece) : Prop := ∃ q ∈ ps.head?, q.lexeme.kind = .braceClose

/-- What follows a word. -/
structure Follows (p : Piece) (ps : List Piece) : Prop where
  keyword : p.lexeme.kind.isKeyword = true →
    p.gap = [' '] ∧ ∃ q ∈ ps.head?, q.lexeme.kind ≠ .braceClose
  name : p.lexeme.kind = .name → p.gap = [' '] → Closing ps

def Regular : List Piece → Prop
  | [] => True
  | p :: ps => Follows p ps ∧ Regular ps

/-! ### Written programs -/

theorem Follows.of_isWord {p : Piece} {ps : List Piece} (h : p.lexeme.kind.isWord = false) :
    Follows p ps := by
  constructor
  · intro hk
    cases hp : p.lexeme.kind <;> simp [hp, Kind.isKeyword, Kind.isWord] at hk h
  · intro hn
    rw [hn] at h
    cases h

theorem Follows.of_name {p : Piece} {ps : List Piece} (h : p.lexeme.kind = .name)
    (hgap : p.gap = [' '] → Closing ps) : Follows p ps := by
  refine ⟨?_, fun _ => hgap⟩
  intro hk
  rw [h] at hk
  cases hk

theorem regular_paramPieces (params : List Param) {ps : List Piece} (h : Regular ps) :
    Regular (paramPieces params ++ ps) := by
  induction params using paramPieces.induct with
  | case1 => exact h
  | case2 p => exact ⟨.of_name rfl (by simp), h⟩
  | case3 p q params ih => exact ⟨.of_name rfl (by simp), .of_isWord rfl, ih⟩

theorem regular_headPieces (name : Text) (params : List Param) {ps : List Piece} (h : Regular ps) :
    Regular (headPieces name params ++ ps) := by
  have htail : Regular (paramPieces params ++
      (⟨.mark .parenClose, [' ']⟩ :: ⟨.mark .braceOpen, [' ']⟩ :: ps)) :=
    regular_paramPieces params ⟨.of_isWord rfl, .of_isWord rfl, h⟩
  have hsplit : headPieces name params ++ ps = ⟨.mark .keywordFunction, [' ']⟩ ::
      ⟨⟨.name, name⟩, []⟩ :: ⟨.mark .parenOpen, []⟩ :: (paramPieces params ++
        (⟨.mark .parenClose, [' ']⟩ :: ⟨.mark .braceOpen, [' ']⟩ :: ps)) := by
    simp [headPieces]
  rw [hsplit]
  refine ⟨⟨fun _ => ⟨rfl, _, rfl, nofun⟩, nofun⟩, .of_name rfl nofun, .of_isWord rfl, htail⟩

theorem Node.firstKind_ne_braceClose {n : Node} (h : n.WellMade) : n.firstKind ≠ .braceClose := by
  cases n with
  | punctuation k s => rcases h with rfl | rfl | rfl <;> exact nofun
  | _ => exact nofun

mutual

/-- Pieces of a node in front of others, where a single space is only written behind the node if a
brace follows. -/
theorem Node.regular_pieces (gap : Text) : (n : Node) → n.WellMade → ∀ ps, Regular ps →
    (gap = [' '] → Closing ps) → Regular (n.pieces gap ++ ps)
  | .number _, _, _, h, _ | .string _, _, _, h, _ | .operator _, _, _, h, _ =>
    ⟨.of_isWord rfl, h⟩
  | .punctuation k s, hw, _, h, _ => by
    refine ⟨.of_isWord ?_, h⟩
    rcases hw with rfl | rfl | rfl <;> rfl
  | .identifier _, _, _, h, hgap => ⟨.of_name rfl hgap, h⟩
  | .returns values, hw, ps, h, hgap => by
    have htail : Regular (Node.piecesList [] [] values ++ ⟨.mark .semicolon, gap⟩ :: ps) :=
      Node.regular_piecesList [] [] nofun values hw.2.2 _ ⟨.of_isWord rfl, h⟩ nofun
    rw [Node.pieces, List.append_assoc]
    refine ⟨⟨fun _ => ⟨rfl, ?_⟩, nofun⟩, htail⟩
    obtain ⟨v, vs, rfl⟩ := List.exists_cons_of_ne_nil hw.1
    obtain ⟨q, qs, hqs, hq⟩ := v.exists_pieces (if vs.isEmpty then [] else [])
    refine ⟨q, ?_, hq ▸ Node.firstKind_ne_braceClose hw.2.2.1⟩
    rw [Node.piecesList, hqs]
    rfl
  | .function name params _ body, hw, ps, h, hgap => by
    have htail : Regular (Node.piecesList ['\n'] [' '] body ++ ⟨.mark .braceClose, gap⟩ :: ps) :=
      Node.regular_piecesList ['\n'] [' '] (by decide) body hw _ ⟨.of_isWord rfl, h⟩
        fun _ => ⟨_, rfl, rfl⟩
    rw [Node.pieces, List.append_assoc, List.append_assoc]
    exact regular_headPieces _ _ htail

theorem Node.regular_piecesList (sep last : Text) (hsep : sep ≠ [' ']) : (ns : List Node) →
    Node.WellMadeList ns → ∀ ps, Regular ps → (last = [' '] → Closing ps) →
      Regular (Node.piecesList sep last ns ++ ps)
  | [], _, _, h, _ => h
  | n :: ns, hw, ps, h, hlast => by
    rw [Node.piecesList, List.append_assoc]
    refine Node.regular_pieces _ n hw.1 _
      (Node.regular_piecesList sep last hsep ns hw.2 ps h hlast) ?_
    intro hgap
    cases ns with
    | nil => exact hlast hgap
    | cons m ns => exact absurd hgap hsep

end

theorem Program.regular_pieces {p : Program} (h : Node.WellMadeList p.statements) :
    Regular p.pieces := by
  have h2 := Node.regular_piecesList ['\n'] [] (by decide) p.statements h [] True.intro nofun
  rw [List.append_nil] at h2
  exact h2

/-! ### Words of two cuts -/

theorem Kind.isWord_iff {k : Kind} : k.isWord = true ↔ k = .name ∨ k.isKeyword = true := by
  cases k <;> simp [Kind.isWord, Kind.isKeyword]

/-- No keyword is the end of a longer one. -/
theorem Kind.word_eq_append {k l : Kind} {w : Text} (hk : k.isKeyword = true)
    (hl : l.isKeyword = true) (e : k.word = w ++ l.word) : w = [] := by
  have hmem : ∀ k : Kind, k.isKeyword = true → k ∈ [Kind.keywordReturn, .keywordFunction] := by
    intro k hk
    cases k with
    | keywordReturn | keywordFunction => decide
    | _ => cases hk
  have hends : ∀ k ∈ [Kind.keywordReturn, .keywordFunction],
      ∀ l ∈ [Kind.keywordReturn, .keywordFunction], l.word <:+ k.word → k = l := by decide
  cases hends k (hmem k hk) l (hmem l hl) ⟨w, e.symm⟩
  exact List.self_eq_append_left.mp e

theorem Lexeme.Spelled.text_keyword {l : Lexeme} (h : l.Spelled) (hk : l.kind.isKeyword = true) :
    l.text = l.kind.word := by
  obtain ⟨k, w⟩ := l
  cases k with
  | keywordReturn | keywordFunction => exact h
  | _ => cases hk

/-- The first character of a text tells the kind of its first lexeme. -/
theorem exists_of_head?_text {ps : List Piece} (h : ∀ p ∈ ps, p.Fair) {c : Char}
    (hc : c ∈ (Piece.text ps).head?) : ∃ q qs, ps = q :: qs ∧
      isDigit c = (q.lexeme.kind == .number) ∧ isLetter c = q.lexeme.kind.isWord := by
  cases ps with
  | nil => cases hc
  | cons q qs =>
    obtain ⟨d, s, hds, -, hdigit, hletter⟩ := (h q List.mem_cons_self).spelled.head
    rw [Piece.text_cons, hds, List.cons_append, List.head?_cons, Option.mem_some_iff] at hc
    subst hc
    exact ⟨q, qs, rfl, hdigit, hletter⟩

theorem head?_gap {p : Piece} {s : Text} (h : Blanks p.gap) (hg : p.gap ≠ []) :
    ∀ c ∈ (p.gap ++ s).head?, isBlank c = true := by
  obtain ⟨d, g, hd⟩ := List.exists_cons_of_ne_nil hg
  intro c hc
  rw [hd, List.cons_append, List.head?_cons, Option.mem_some_iff] at hc
  exact h c (by rw [hd, hc]; exact List.mem_cons_self)

/-- Two words as one. -/
def Piece.fused (p q : Piece) : Piece := ⟨⟨.name, p.lexeme.text ++ q.lexeme.text⟩, q.gap⟩

theorem Piece.text_fused {p q : Piece} (h : p.gap = []) (ps : List Piece) :
    Piece.text (p.fused q :: ps) = Piece.text (p :: q :: ps) := by
  simp [Piece.text_cons, Piece.fused, h]

theorem Piece.Fair.fused {p q : Piece} (hp : p.Fair) (hq : q.Fair)
    (hpw : p.lexeme.kind.isWord = true) (hqw : q.lexeme.kind.isWord = true) : (p.fused q).Fair := by
  refine ⟨⟨List.append_ne_nil_of_left_ne_nil hp.spelled.text_ne_nil _, ?_⟩, hq.blank⟩
  exact List.forall_mem_append.mpr ⟨hp.spelled.letters hpw, hq.spelled.letters hqw⟩

namespace Cuts

variable {p q : Piece} {ps qs : List Piece}

theorem closing (h : Cuts ps qs) (hps : Closing ps) : Closing qs := by
  obtain ⟨p, hp, hk⟩ := hps
  obtain ⟨ps, rfl⟩ := List.head?_eq_some_iff.mp hp
  cases qs with
  | nil => cases h.symm.eq_nil
  | cons q qs => exact ⟨q, rfl, h.lexeme_eq (by rw [hk]; rfl) ▸ hk⟩

/-- Words that end where their letters end begin a text in one way only. -/
theorem text_eq_of_letters (h : Cuts (p :: ps) (q :: qs)) (hp : p.lexeme.kind.isWord = true)
    (hps : ∀ c ∈ (p.gap ++ Piece.text ps).head?, isLetter c = false)
    (hq : q.lexeme.kind.isWord = true)
    (hqs : ∀ c ∈ (q.gap ++ Piece.text qs).head?, isLetter c = false) :
    p.lexeme.text = q.lexeme.text := by
  have hp' := takeWhile_append_stop (h.fair_left.spelled.letters hp) hps
  have hq' := takeWhile_append_stop (h.fair_right.spelled.letters hq) hqs
  rw [← hp'.1, h.text_eq, hq'.1]

/-- A name that stops at what follows it is no keyword of the other cut: there a keyword would be
followed by a space and no brace, here the same space would be followed by a brace. -/
theorem not_keyword_of_name (h : Cuts (p :: ps) (q :: qs)) (hp : Follows p ps) (hq : Follows q qs)
    (hname : p.lexeme.kind = .name) (htext : p.lexeme.text = q.lexeme.text) :
    ¬ q.lexeme.kind.isKeyword = true := by
  intro hkey
  obtain ⟨hgap, r, hr, hne⟩ := hq.keyword hkey
  obtain ⟨hsame, hrest⟩ := h.rest htext
  obtain ⟨r', hr', hk⟩ := hrest.closing (hp.name hname (hsame.trans hgap))
  cases hr.symm.trans hr'
  exact hne hk

end Cuts

/-! ### Words of a regular cut -/

theorem Segments.letters {q : Piece} {qs : List Piece} (h : Segments boundary (q :: qs))
    (hreg : Follows q qs) (hw : q.lexeme.kind.isWord = true) :
    ∀ c ∈ (q.gap ++ Piece.text qs).head?, isLetter c = false := by
  intro c hc
  rcases Kind.isWord_iff.mp hw with hname | hkey
  · have hstop := h.stops c hc
    rw [hname] at hstop
    exact hstop
  · have hgap := (hreg.keyword hkey).1
    have hblank := head?_gap (h.sound q List.mem_cons_self).blank (by simp [hgap]) c hc
    exact isLetter_of_isBlank hblank

section
variable {p q : Piece} {ps qs : List Piece}

/-- A lexeme that is no name stops at the next one. -/
theorem stops_of_regular (hps : ∀ r ∈ p :: ps, r.Fair) (hreg : Follows p ps)
    (hjoin : (p :: ps).IsChain (Piece.Apart Kind.joins)) (hname : p.lexeme.kind ≠ .name) :
    p.lexeme.Stops boundary (p.gap ++ Piece.text ps) := by
  intro c hc
  by_cases hg : p.gap = []
  · by_cases hn : p.lexeme.kind = .number
    · rw [hg, List.nil_append] at hc
      obtain ⟨q, qs, rfl, hdigit, -⟩ :=
        exists_of_head?_text (fun r hr => hps r (List.mem_cons_of_mem _ hr)) hc
      have hq : Kind.joins .number q.lexeme.kind = false :=
        hn ▸ (List.isChain_cons_cons.mp hjoin).1 hg
      show Kind.goesOn boundary p.lexeme.kind c = false
      rw [hn, Kind.goesOn, hdigit]
      cases hk : q.lexeme.kind with
      | number => rw [hk] at hq; cases hq
      | _ => rfl
    · have hkey : ¬ p.lexeme.kind.isKeyword = true := by
        intro hkey
        rw [(hreg.keyword hkey).1] at hg
        cases hg
      have hrun : p.lexeme.kind.isRun = false := by
        have hword := mt Kind.isWord_iff.mp (not_or.mpr ⟨hname, hkey⟩)
        simp [Kind.isRun, hn, hword]
      exact Kind.goesOn_of_isRun hrun c
  · exact Kind.goesOn_of_isBlank (head?_gap (hps p List.mem_cons_self).blank hg c hc)

/-- A name with a letter directly behind it stands in front of a keyword. -/
theorem keyword_of_letter {c : Char} (hps : ∀ r ∈ p :: ps, r.Fair)
    (hjoin : (p :: ps).IsChain (Piece.Apart Kind.joins)) (hname : p.lexeme.kind = .name)
    (hc : c ∈ (p.gap ++ Piece.text ps).head?) (hletter : isLetter c = true) :
    p.gap = [] ∧ ∃ q qs, ps = q :: qs ∧ q.lexeme.kind.isKeyword = true := by
  have hgap : p.gap = [] := by
    by_contra hg
    have hblank := head?_gap (hps p List.mem_cons_self).blank hg c hc
    rw [isLetter_of_isBlank hblank] at hletter
    cases hletter
  rw [hgap, List.nil_append] at hc
  obtain ⟨q, qs, rfl, -, hword⟩ :=
    exists_of_head?_text (fun r hr => hps r (List.mem_cons_of_mem _ hr)) hc
  refine ⟨hgap, q, qs, rfl, ?_⟩
  rcases Kind.isWord_iff.mp (hword.symm.trans hletter) with hn | hkey
  · have hno := (List.isChain_cons_cons.mp hjoin).1 hgap
    rw [hname, hn] at hno
    cases hno
  · exact hkey

/-- A name does not run into a keyword of its own cut: the other cut would have both as one word
with a space behind it, which a brace follows behind a name and no brace behind a keyword. -/
theorem letters_of_regular (h : Cuts (p :: ps) (q :: qs)) (hreg : Regular (p :: ps))
    (hjoin : (p :: ps).IsChain (Piece.Apart Kind.joins)) (hsegs : Segments boundary (q :: qs))
    (hq : Follows q qs) (hname : p.lexeme.kind = .name) (hword : q.lexeme.kind.isWord = true) :
    ∀ c ∈ (p.gap ++ Piece.text ps).head?, isLetter c = false := by
  intro c hc
  by_contra hletter
  rw [Bool.not_eq_false] at hletter
  obtain ⟨hgap, k, ps, rfl, hkey⟩ := keyword_of_letter h.left hjoin hname hc hletter
  obtain ⟨hspace, r, hr, hne⟩ := hreg.2.1.keyword hkey
  have hk := h.left k (List.mem_cons_of_mem _ List.mem_cons_self)
  have hboth := h.fair_left.fused hk (by rw [hname]; rfl) (Kind.isWord_iff.mpr (.inr hkey))
  have hcuts : Cuts (p.fused k :: ps) (q :: qs) := by
    refine ⟨List.forall_mem_cons.mpr ⟨hboth, ?_⟩, h.right, ?_⟩
    · exact fun r hr => h.left r (List.mem_cons_of_mem _ (List.mem_cons_of_mem _ hr))
    · rw [Piece.text_fused hgap]
      exact h.same
  have htext : (p.fused k).lexeme.text = q.lexeme.text := by
    refine hcuts.text_eq_of_letters rfl ?_ hword (hsegs.letters hq hword)
    intro d hd
    have hblank := head?_gap hboth.blank (by simp [Piece.fused, hspace]) d hd
    exact isLetter_of_isBlank hblank
  obtain ⟨hsame, hrest⟩ := hcuts.rest htext
  rcases Kind.isWord_iff.mp hword with hqname | hqkey
  · obtain ⟨r', hr', hbrace⟩ := hrest.symm.closing (hq.name hqname (hsame.symm.trans hspace))
    cases hr.symm.trans hr'
    exact hne hbrace
  · refine h.fair_left.spelled.text_ne_nil (Kind.word_eq_append hqkey hkey ?_)
    rw [← h.fair_right.spelled.text_keyword hqkey, ← hk.spelled.text_keyword hkey]
    exact htext.symm

theorem lexeme_eq_of_regular (h : Cuts (p :: ps) (q :: qs)) (hreg : Regular (p :: ps))
    (hjoin : (p :: ps).IsChain (Piece.Apart Kind.joins)) (hsegs : Segments boundary (q :: qs))
    (hreg' : Regular (q :: qs)) : p.lexeme = q.lexeme := by
  by_cases hname : p.lexeme.kind = .name
  · have hpword : p.lexeme.kind.isWord = true := Kind.isWord_iff.mpr (.inl hname)
    have hqword : q.lexeme.kind.isWord = true := h.kinds.2 ▸ hpword
    have htext : p.lexeme.text = q.lexeme.text :=
      h.text_eq_of_letters hpword (letters_of_regular h hreg hjoin hsegs hreg'.1 hname hqword)
        hqword (hsegs.letters hreg'.1 hqword)
    have hkind : q.lexeme.kind = .name := (Kind.isWord_iff.mp hqword).resolve_right
      (h.not_keyword_of_name hreg.1 hreg'.1 hname htext)
    obtain ⟨⟨k, w⟩, g⟩ := p
    obtain ⟨⟨k', w'⟩, g'⟩ := q
    cases hname
    cases hkind
    cases htext
    rfl
  · exact Lexeme.eq_of_append_eq (h.fair_left.spelled.valid hname)
      (stops_of_regular h.left hreg.1 hjoin hname) (hsegs.sound q List.mem_cons_self).valid
      hsegs.stops h.text_eq

theorem eq_of_regular (h : Cuts ps qs) (hreg : Regular ps)
    (hjoin : ps.IsChain (Piece.Apart Kind.joins)) (hsegs : Segments boundary qs)
    (hreg' : Regular qs) : ps = qs := by
  induction ps generalizing qs with
  | nil => exact h.eq_nil.symm
  | cons p ps ih =>
    cases qs with
    | nil => exact h.symm.eq_nil
    | cons q qs =>
      obtain ⟨rfl, hrest⟩ := h.step (lexeme_eq_of_regular h hreg hjoin hsegs hreg')
      rw [ih hrest hreg.2 hjoin.tail hsegs.tail hreg'.2]

end

end TypeStrip
