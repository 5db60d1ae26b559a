import TypeStrip.Proofs.Regularity
import TypeStrip.Proofs.Rereading

/-!
# Compiling an output again

Compiling an output again should change nothing.  It does where the values of a `return` run
together: two neighbouring numbers or names are harmless, since they are read as one and written in
the same way, but a name in front of a keyword swallows it, and names may spell a keyword together.

* `Spells.pieces`        a text that is its own output is cut by a scan as it is written;
* `compile_stable_iff`   exactly when an output is its own output;
* `compile_not_stable`   a source for which it is not.
-/

namespace TypeStrip

variable {o : Options}

/-! ### Texts that are their own output -/

/-- A token of a kind with only one text matches what is written for that kind. -/
theorem Cuts.step_mark {p : Piece} {ps qs : List Piece} {k : Kind} {g : Text} {t : Token}
    (h : Cuts (p :: ps) (⟨.mark k, g⟩ :: qs)) (hp : p.lexeme = t.lexeme) (ht : t.kind = k)
    (hw : k.word ≠ []) : p = ⟨.mark k, g⟩ ∧ Cuts ps qs := by
  have hk : p.lexeme.kind = k := by rw [hp]; exact ht
  have hname : p.lexeme.kind ≠ .name := by
    intro hn
    rw [← hk, hn] at hw
    exact hw rfl
  have hvalid : p.lexeme.Valid true := h.fair_left.spelled.valid hname
  exact h.step (hvalid.eq_mark hk hw)

section
variable {ps qs rs rs' : List Piece} {k b b' : Piece}

/-- No type is read where none is written. -/
theorem SpellsType.pieces {ts : List Token} {type : Option Text} (h : SpellsType ts type)
    (hps : ps.map Piece.lexeme = ts.map Token.lexeme) (hc : Cuts (ps ++ rs) (k :: qs))
    (hk : k.lexeme.kind ≠ .colon) : ps = [] := by
  cases h with
  | none => exact List.map_eq_nil_iff.mp hps
  | @some c t hcolon _ =>
    obtain ⟨p, ps, rfl, hp, -⟩ := List.map_eq_cons_iff.mp hps
    have hpk : p.lexeme.kind = .colon := by rw [hp]; exact hcolon
    have hsame := hc.lexeme_eq (by rw [hpk]; rfl)
    exact absurd (hsame ▸ hpk) hk

theorem SpellsComma.pieces {ts : List Token} (h : SpellsComma ts)
    (hps : ps.map Piece.lexeme = ts.map Token.lexeme) (hc : Cuts (ps ++ rs) (k :: qs))
    (hk : k.lexeme.kind ≠ .comma) : ps = [] := by
  cases h with
  | absent => exact List.map_eq_nil_iff.mp hps
  | @present c hcomma =>
    obtain ⟨p, ps, rfl, hp, -⟩ := List.map_eq_cons_iff.mp hps
    have hpk : p.lexeme.kind = .comma := by rw [hp]; exact hcomma
    have hsame := hc.lexeme_eq (by rw [hpk]; rfl)
    exact absurd (hsame ▸ hpk) hk

theorem SpellsComma.pieces_comma {ts : List Token} (h : SpellsComma ts)
    (hps : ps.map Piece.lexeme = ts.map Token.lexeme)
    (hc : Cuts (ps ++ rs) (⟨.mark .comma, [' ']⟩ :: qs))
    (hr : ∀ r ∈ rs.head?, r.lexeme.kind ≠ .comma) :
    ps = [⟨.mark .comma, [' ']⟩] ∧ Cuts rs qs := by
  cases h with
  | absent =>
    cases List.map_eq_nil_iff.mp hps
    cases rs with
    | nil => cases hc.eq_nil
    | cons r rs =>
      have hsame := hc.symm.lexeme_eq rfl
      exact absurd (congrArg Lexeme.kind hsame.symm) (hr r rfl)
  | @present c hcomma =>
    obtain ⟨p, rfl, hp⟩ := List.map_eq_singleton_iff.mp hps
    obtain ⟨rfl, hrest⟩ := hc.step_mark hp hcomma (by decide)
    exact ⟨rfl, hrest⟩

/-- A cut into tokens that spell parameters has the pieces of these parameters, if it is a cut of
what is written for them. -/
theorem SpellsParams.pieces {ts : List Token} {params : List Param} (h : SpellsParams ts params)
    (hps : ps.map Piece.lexeme = ts.map Token.lexeme) (hb' : b'.lexeme.kind = .parenClose)
    (hc : Cuts (ps ++ b :: rs) (paramPieces params ++ b' :: rs')) :
    ps = paramPieces params ∧ Cuts (b :: rs) (b' :: rs') := by
  induction h generalizing ps with
  | nil =>
    cases List.map_eq_nil_iff.mp hps
    exact ⟨rfl, hc⟩
  | @cons n name type ts us vs params hn hname ht hcomma hparams ih =>
    rw [List.map_append] at hps
    obtain ⟨ps, pv, rfl, hps, hpv⟩ := List.map_eq_append_iff.mp hps
    obtain ⟨p, ps, rfl, hp, hps⟩ := List.map_eq_cons_iff.mp hps
    rw [List.map_append] at hps
    obtain ⟨pt, pu, rfl, hpt, hpu⟩ := List.map_eq_append_iff.mp hps
    have hlex : p.lexeme = (⟨name, type⟩ : Param).lexeme := by
      rw [hp, Token.lexeme, Param.lexeme, hn, hname]
    simp only [List.cons_append, List.append_assoc] at hc ⊢
    cases params with
    | nil =>
      cases hparams
      have hc' : Cuts (p :: (pt ++ (pu ++ (pv ++ b :: rs)))) (⟨_, []⟩ :: b' :: rs') := hc
      obtain ⟨hpiece, hrest⟩ := hc'.step hlex
      cases ht.pieces hpt hrest (by simp [hb'])
      cases hcomma.pieces hpu hrest (by simp [hb'])
      cases List.map_eq_nil_iff.mp hpv
      exact ⟨by rw [hpiece]; rfl, hrest⟩
    | cons param params =>
      have hc' : Cuts (p :: (pt ++ (pu ++ (pv ++ b :: rs)))) (⟨_, []⟩ :: ⟨.mark .comma, [' ']⟩ ::
        (paramPieces (param :: params) ++ b' :: rs')) := hc
      obtain ⟨hpiece, hrest⟩ := hc'.step hlex
      cases ht.pieces hpt hrest (by simp [Lexeme.mark])
      have hfirst : ∀ r ∈ (pv ++ b :: rs).head?, r.lexeme.kind ≠ .comma := by
        cases hparams with
        | cons hn' _ _ _ _ =>
          obtain ⟨r, pv, rfl, hr, -⟩ := List.map_eq_cons_iff.mp hpv
          intro r' hr'
          cases hr'
          rw [hr]
          simp [Token.lexeme, hn']
      obtain ⟨hpu, hrest⟩ := hcomma.pieces_comma hpu hrest hfirst
      obtain ⟨hpv, hrest⟩ := ih hpv hrest
      exact ⟨by rw [hpiece, hpu, hpv]; rfl, hrest⟩

theorem SpellsHead.pieces {ts : List Token} {name : Text} {params : List Param}
    {type : Option Text} (h : SpellsHead o ts name params type)
    (hps : ps.map Piece.lexeme = ts.map Token.lexeme)
    (hc : Cuts (ps ++ rs) (headPieces name params ++ rs')) :
    ps = headPieces name params ∧ Cuts rs rs' := by
  cases h with
  | @mk f n a b c ts us params type hf hn ha hparams hb ht hreq hbrace =>
    simp only [List.cons_append, List.nil_append, List.append_assoc, List.map_cons] at hps
    obtain ⟨pf, ps, rfl, hpf, hps⟩ := List.map_eq_cons_iff.mp hps
    obtain ⟨pn, ps, rfl, hpn, hps⟩ := List.map_eq_cons_iff.mp hps
    obtain ⟨pa, ps, rfl, hpa, hps⟩ := List.map_eq_cons_iff.mp hps
    rw [List.map_append] at hps
    obtain ⟨pp, ps, rfl, hpp, hps⟩ := List.map_eq_append_iff.mp hps
    obtain ⟨pb, ps, rfl, hpb, hps⟩ := List.map_eq_cons_iff.mp hps
    rw [List.map_append] at hps
    obtain ⟨pt, ps, rfl, hpt, hps⟩ := List.map_eq_append_iff.mp hps
    obtain ⟨pc, rfl, hpc⟩ := List.map_eq_singleton_iff.mp hps
    simp only [headPieces, List.cons_append, List.nil_append, List.append_assoc] at hc
    have hpn' : pn.lexeme = ⟨.name, n.text⟩ := by rw [hpn, Token.lexeme, hn]
    obtain ⟨hpf, hc⟩ := hc.step_mark hpf hf (by decide)
    obtain ⟨hpn, hc⟩ := hc.step hpn'
    obtain ⟨hpa, hc⟩ := hc.step_mark hpa ha (by decide)
    obtain ⟨hpp, hc⟩ := hparams.pieces hpp rfl hc
    obtain ⟨hpb, hc⟩ := hc.step_mark hpb hb (by decide)
    cases ht.pieces hpt hc (by simp [Lexeme.mark])
    obtain ⟨hpc, hc⟩ := hc.step_mark hpc hbrace (by decide)
    refine ⟨?_, hc⟩
    rw [hpf, hpn, hpa, hpp, hpb, hpc, headPieces]
    simp

end

/-- A cut into tokens that spell nodes has the pieces of these nodes, if it is a cut of what is
written for them. -/
theorem Spells.pieces {ts : List Token} {ns : List Node} (h : Spells o ts ns) (sep last : Text)
    {ps rs rs' : List Piece} (hps : ps.map Piece.lexeme = ts.map Token.lexeme)
    (hc : Cuts (ps ++ rs) (Node.piecesList sep last ns ++ rs')) :
    ps = Node.piecesList sep last ns ∧ Cuts rs rs' := by
  induction h generalizing sep last ps rs rs' with
  | nil =>
    cases List.map_eq_nil_iff.mp hps
    exact ⟨rfl, hc⟩
  | @leaf t n us ns hn _ ih =>
    obtain ⟨p, ps, rfl, hp, hps⟩ := List.map_eq_cons_iff.mp hps
    have hpieces : ∀ gap, n.pieces gap = [⟨t.lexeme, gap⟩] := by
      intro gap
      cases hn with
      | number h | string h | identifier h => rw [Token.lexeme, h]; rfl
      | operator h ht => rw [Token.lexeme, h, ht]; rfl
      | punctuation h => rfl
    rw [Node.piecesList, hpieces] at hc ⊢
    have hc' : Cuts (p :: (ps ++ rs)) (⟨t.lexeme, _⟩ :: (Node.piecesList sep last ns ++ rs')) := hc
    obtain ⟨hpiece, hrest⟩ := hc'.step hp
    obtain ⟨hps, hrest⟩ := ih sep last hps hrest
    exact ⟨by rw [hpiece, hps]; rfl, hrest⟩
  | @returns r e ts us values ns hr _ hne hs he _ ihv ihn =>
    rw [List.map_append] at hps
    obtain ⟨front, back, rfl, hfront, hback⟩ := List.map_eq_append_iff.mp hps
    obtain ⟨pr, pv, rfl, hpr, hpv⟩ := List.map_eq_cons_iff.mp hfront
    obtain ⟨pe, pn, rfl, hpe, hpn⟩ := List.map_eq_cons_iff.mp hback
    simp only [Node.piecesList, Node.pieces, List.cons_append, List.nil_append, List.append_assoc]
      at hc ⊢
    obtain ⟨hpr, hc⟩ := hc.step_mark hpr hr (by decide)
    obtain ⟨hpv, hc⟩ := ihv [] [] hpv hc
    obtain ⟨hpe, hc⟩ := hc.step_mark hpe he (by decide)
    obtain ⟨hpn, hc⟩ := ihn sep last hpn hc
    exact ⟨by rw [hpr, hpv, hpe, hpn], hc⟩
  | @function e hs ts us name params type body ns hh _ he _ ihb ihn =>
    rw [List.map_append, List.map_append] at hps
    obtain ⟨front, back, rfl, hfront, hback⟩ := List.map_eq_append_iff.mp hps
    obtain ⟨ph, pb, rfl, hph, hpb⟩ := List.map_eq_append_iff.mp hfront
    obtain ⟨pe, pn, rfl, hpe, hpn⟩ := List.map_eq_cons_iff.mp hback
    simp only [Node.piecesList, Node.pieces, List.cons_append, List.nil_append, List.append_assoc]
      at hc ⊢
    obtain ⟨hph, hc⟩ := hh.pieces hph hc
    obtain ⟨hpb, hc⟩ := ihb ['\n'] [' '] hpb hc
    obtain ⟨hpe, hc⟩ := hc.step_mark hpe he (by decide)
    obtain ⟨hpn, hc⟩ := ihn sep last hpn hc
    exact ⟨by rw [hph, hpb, hpe, hpn], hc⟩

/-- A text that is its own output is segmented as it is written. -/
theorem segments_of_compile {s : Text} {c : Compilation} (h : compile o s = .ok c)
    (hout : c.output = s) : Segments o.keywordBoundary c.tree.pieces := by
  obtain ⟨hscan, -, huntyped⟩ := compile_eq_ok_iff.mp h
  obtain ⟨hsp, -, -, hvalid⟩ := compile_tree h
  have hfair : ∀ q ∈ c.tree.pieces, q.Fair := fun q hq => (Program.sound_pieces hvalid q hq).fair
  rw [← hout, huntyped, ← c.tree.text_pieces] at hscan
  obtain ⟨qs, hqs, hcuts, htokens⟩ := exists_segments_text hfair hscan
  have hmap : qs.map Piece.lexeme = c.tokens.map Token.lexeme := by
    rw [htokens, Piece.map_lexeme_tokens]
  have hcuts' : Cuts (qs ++ []) (Node.piecesList ['\n'] [] c.tree.statements ++ []) := by
    rw [List.append_nil, List.append_nil]
    exact hcuts.symm
  rw [Program.pieces, ← (hsp.pieces ['\n'] [] hmap hcuts').1]
  exact hqs

/-! ### Stable outputs -/

/-- Once neighbouring numbers and names are joined, no name spells a keyword and no value runs into
the next, which then can only be a name in front of a keyword. -/
def Program.Stable (boundary : Bool) (p : Program) : Prop :=
  p.joined.Separate ∧ ∀ l ∈ p.joined.skeleton, l.kind = .name → KeywordFree boundary l.text

instance (boundary : Bool) (p : Program) : Decidable (p.Stable boundary) := by
  unfold Program.Stable
  infer_instance

/-- **When an output is its own output.**  A second run that does not ask for types succeeds with
the same output exactly if the tree of the first run is stable. -/
theorem compile_stable_iff (o : Options) (s : Text) (c : Compilation) (h : compile o s = .ok c) :
    (∃ c', compile { o with requireReturnType := false } c.output = .ok c' ∧
      c'.output = c.output) ↔ c.tree.Stable o.keywordBoundary := by
  obtain ⟨-, -, hout⟩ := compile_eq_ok_iff.mp h
  obtain ⟨hsp, hnest, -, hvalid⟩ := compile_tree h
  have hwell : Node.WellMadeList c.tree.joined.statements :=
    Node.wellMadeList_joinedList _ hsp.wellMade
  have hspelled : ∀ l ∈ c.tree.joined.skeleton, l.Spelled :=
    Node.spelled_joinedList _ fun l hl => (Lexeme.valid_iff.mp (hvalid l hl)).1
  constructor
  · rintro ⟨c', hc', hout'⟩
    have hsegs := segments_of_compile hc' hout'
    obtain ⟨-, -, huntyped⟩ := compile_eq_ok_iff.mp hc'
    obtain ⟨hsp', -⟩ := compile_tree hc'
    have hcuts : Cuts c.tree.joined.pieces c'.tree.pieces := by
      refine ⟨fun q hq => ⟨hspelled _ (Program.mem_skeleton hq), ?_⟩,
        fun q hq => (hsegs.sound q hq).fair, ?_⟩
      · exact (c.tree.joined.spacing_pieces q hq).blanks
      · rw [Program.text_pieces, Program.untyped_joined, Program.text_pieces, ← huntyped, hout',
          hout]
    have hsame := eq_of_regular hcuts (Program.regular_pieces hwell)
      (Program.isChain_joined hsp.wellMade) hsegs (Program.regular_pieces hsp'.wellMade)
    rw [← hsame] at hsegs
    refine ⟨(Program.isChain_pieces hwell).mp hsegs.apart, ?_⟩
    intro l hl
    rw [← Program.map_lexeme_pieces] at hl
    obtain ⟨q, hq, rfl⟩ := List.mem_map.mp hl
    exact (Lexeme.valid_iff.mp (hsegs.sound q hq).valid).2
  · rintro ⟨hsep, hfree⟩
    have hvalid' : ∀ l ∈ c.tree.joined.skeleton, l.Valid o.keywordBoundary := fun l hl =>
      Lexeme.valid_iff.mpr ⟨hspelled l hl, hfree l hl⟩
    have hnest' : c.tree.joined.nesting ≤ 100 := by
      show Node.nestingList (Node.joinedList c.tree.statements) ≤ 100
      rw [Node.nestingList_joinedList]
      exact hnest
    have hagain := compile_untyped hwell hvalid' hsep hnest'
    rw [Program.untyped_joined, ← hout] at hagain
    exact ⟨_, hagain, rfl⟩

/-- Names and numbers that are read as one the second time. -/
theorem compile_stable_joined : ∃ c,
    compile {} "function f(a: t): u \x7b return a b 1 2 function g(): u \x7b \x7d; \x7d".toList = .ok c ∧
    (c.output, decide (c.tree.Stable true)) =
      ("function f(a) \x7b return ab12function g() \x7b \x7d; \x7d".toList, true) ∧
    ∃ c', compile ⟨true, false⟩ c.output = .ok c' ∧ c'.output = c.output := by
  refine exists_run (f := fun c => (c.output, decide (c.tree.Stable true))) ?_ ?_
  · decide +kernel
  · intro c hc hf
    exact (compile_stable_iff _ _ c hc).mpr (of_decide_eq_true (Prod.mk.inj hf).2)

/-- A name that swallows the keyword behind it: the second output is `return xreturn1;` and a
semicolon on the next line. -/
theorem compile_not_stable : ∃ c, compile {} "return x return 1;;".toList = .ok c ∧
    c.output = "return xreturn 1;;".toList ∧
    ¬ ∃ c', compile ⟨true, false⟩ c.output = .ok c' ∧ c'.output = c.output := by
  refine exists_run ?_ ?_
  · decide +kernel
  · rintro c - hout ⟨c', hc', hsame⟩
    rw [hout] at hc' hsame
    have hagain : (compile ⟨true, false⟩ "return xreturn 1;;".toList).toOption.map
        Compilation.output = some "return xreturn1;\n;".toList := by decide +kernel
    rw [hc'] at hagain
    have hne : c'.output = "return xreturn1;\n;".toList := Option.some.inj hagain
    rw [hsame] at hne
    exact absurd hne (by decide)

end TypeStrip
