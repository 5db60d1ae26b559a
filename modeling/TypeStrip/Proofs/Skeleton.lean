import TypeStrip.Proofs.Grammar
import TypeStrip.Proofs.Lexeme

/-!
# Programs without annotations

The lexemes of a program without its types, once read off the tokens of a source and once off a
tree.

* `eraseTypes`              the lexemes of a source without the annotations of its function headers
                            and with one comma between parameters;
* `Node.skeleton`           the lexemes of a tree without its types;
* `Spells.eraseTypes`       where tokens spell a tree, the two agree.
-/

namespace TypeStrip

/-! ### Lexemes of a source -/

/-- Where a lexeme stands, as far as function headers are concerned. -/
inductive Zone where
  | outside
  /-- between `function` and the parenthesis behind the name -/
  | head
  /-- between the parentheses, where a parameter may begin; `first` as long as none has -/
  | params (first : Bool)
  /-- directly behind the name of a parameter -/
  | param
  /-- behind the colon of a parameter -/
  | paramType
  /-- directly behind the closing parenthesis -/
  | closed
  /-- behind the colon of the return type -/
  | returnType
  deriving DecidableEq, Repr

namespace Zone

def next (k : Kind) : Zone → Zone
  | outside => if k = .keywordFunction then head else outside
  | head => if k = .parenOpen then params true else head
  | params first =>
    if k = .name then param else if k = .parenClose then closed else params first
  | param =>
    if k = .colon then paramType
    else if k = .name then param else if k = .parenClose then closed else params false
  | paramType => params false
  | closed => if k = .colon then returnType else outside
  | returnType => outside

/-- A lexeme between the parentheses: commas are dropped, and every name but the first gets one in
front. -/
def separate (first : Bool) (l : Lexeme) : List Lexeme :=
  if l.kind = .comma then []
  else if l.kind = .name ∧ first = false then [.mark .comma, l]
  else [l]

/-- What is left of a lexeme: nothing of a colon that begins an annotation and of the name behind
that colon. -/
def keep (l : Lexeme) : Zone → List Lexeme
  | outside | head => [l]
  | params first => separate first l
  | param => if l.kind = .colon then [] else separate false l
  | paramType | returnType => []
  | closed => if l.kind = .colon then [] else [l]

end Zone

def eraseFrom (z : Zone) : List Lexeme → List Lexeme
  | [] => []
  | l :: ls => z.keep l ++ eraseFrom (z.next l.kind) ls

theorem eraseFrom_cons (z : Zone) (l : Lexeme) (ls : List Lexeme) :
    eraseFrom z (l :: ls) = z.keep l ++ eraseFrom (z.next l.kind) ls := rfl

/-- The lexemes of a source without annotations in function headers, and with exactly one comma
between the parameters of a function. -/
def eraseTypes (ls : List Lexeme) : List Lexeme := eraseFrom .outside ls

/-! ### Lexemes of a tree -/

def Param.lexeme (p : Param) : Lexeme := ⟨.name, p.name.text⟩

def paramsSkeleton (params : List Param) : List Lexeme :=
  List.intercalate [.mark .comma] (params.map fun p => [p.lexeme])

theorem paramsSkeleton_cons (p : Param) (ps : List Param) :
    paramsSkeleton (p :: ps) = p.lexeme :: ps.flatMap fun q => [.mark .comma, q.lexeme] := by
  induction ps generalizing p with
  | nil => rfl
  | cons q ps ih =>
    have h : paramsSkeleton (p :: q :: ps) =
        p.lexeme :: .mark .comma :: paramsSkeleton (q :: ps) := by
      simp [paramsSkeleton]
    rw [h, ih, List.flatMap_cons]
    rfl

mutual

def Node.skeleton : Node → List Lexeme
  | .number s => [⟨.number, s⟩]
  | .string s => [⟨.string, s⟩]
  | .identifier s => [⟨.name, s⟩]
  | .operator op => [⟨.operator, [op.sign]⟩]
  | .punctuation k s => [⟨k, s⟩]
  | .returns values => .mark .keywordReturn :: Node.skeletonList values ++ [.mark .semicolon]
  | .function name params _ body =>
    [.mark .keywordFunction, ⟨.name, name.text⟩, .mark .parenOpen] ++ paramsSkeleton params ++
      [.mark .parenClose, .mark .braceOpen] ++ Node.skeletonList body ++ [.mark .braceClose]

def Node.skeletonList : List Node → List Lexeme
  | [] => []
  | n :: ns => n.skeleton ++ Node.skeletonList ns

end

def Program.skeleton (p : Program) : List Lexeme := Node.skeletonList p.statements

/-! ### Agreement -/

variable {boundary : Bool} {o : Options}

/-- A valid lexeme of a kind with only one text. -/
theorem Lexeme.Valid.eq_mark {l : Lexeme} {k : Kind} (h : l.Valid boundary) (hk : l.kind = k)
    (hw : k.word ≠ []) : l = .mark k := by
  obtain ⟨k', w⟩ := l
  cases hk
  cases k' with
  | number | name | string | operator => exact absurd rfl hw
  | _ => cases h; rfl

/-- The type and the comma of a parameter leave nothing behind. -/
theorem eraseFrom_param {ts us : List Token} {type : Option Text} (ht : SpellsType ts type)
    (hc : SpellsComma us) : ∃ z, (z = .param ∨ z = .params false) ∧ ∀ ls,
      eraseFrom .param ((ts ++ us).map Token.lexeme ++ ls) = eraseFrom z ls := by
  cases ht with
  | none =>
    cases hc with
    | absent => exact ⟨.param, .inl rfl, fun _ => rfl⟩
    | @present c hk =>
      refine ⟨.params false, .inr rfl, fun ls => ?_⟩
      simp [eraseFrom, Zone.keep, Zone.next, Zone.separate, Token.lexeme, hk]
  | some hcolon hname =>
    cases hc with
    | absent =>
      refine ⟨.params false, .inr rfl, fun ls => ?_⟩
      simp [eraseFrom, Zone.keep, Zone.next, Token.lexeme, hcolon]
    | present hk =>
      refine ⟨.params false, .inr rfl, fun ls => ?_⟩
      simp [eraseFrom, Zone.keep, Zone.next, Zone.separate, Token.lexeme, hcolon, hk]

/-- Parameters behind other parameters, and the parenthesis behind them. -/
theorem eraseFrom_moreParams {ts : List Token} {ps : List Param} (h : SpellsParams ts ps)
    {b : Lexeme} (hb : b.kind = .parenClose) {z : Zone} (hz : z = .param ∨ z = .params false)
    (ls : List Lexeme) : eraseFrom z (ts.map Token.lexeme ++ b :: ls) =
      (ps.flatMap fun p => [.mark .comma, p.lexeme]) ++ b :: eraseFrom .closed ls := by
  induction h generalizing z with
  | nil =>
    rcases hz with rfl | rfl <;> simp [eraseFrom, Zone.keep, Zone.next, Zone.separate, hb]
  | @cons n nm type ts us vs ps hn hname ht hc _ ih =>
    obtain ⟨z', hz', herase⟩ := eraseFrom_param ht hc
    have hlex : n.lexeme = (⟨nm, type⟩ : Param).lexeme := by
      rw [Token.lexeme, Param.lexeme, hn, hname]
    have hfirst : ∀ ls, eraseFrom z (n.lexeme :: ls) =
        .mark .comma :: n.lexeme :: eraseFrom .param ls := by
      intro ls
      rcases hz with rfl | rfl <;>
        simp [eraseFrom, Zone.keep, Zone.next, Zone.separate, Token.lexeme, hn]
    rw [List.cons_append, List.map_cons, List.cons_append, List.map_append, List.append_assoc,
      hfirst, herase, ih hz', List.flatMap_cons, hlex]
    rfl

theorem eraseFrom_params {ts : List Token} {ps : List Param} (h : SpellsParams ts ps)
    {b : Lexeme} (hb : b.kind = .parenClose) (ls : List Lexeme) :
    eraseFrom (.params true) (ts.map Token.lexeme ++ b :: ls) =
      paramsSkeleton ps ++ b :: eraseFrom .closed ls := by
  cases h with
  | nil => simp [eraseFrom, Zone.keep, Zone.next, Zone.separate, hb, paramsSkeleton]
  | @cons n nm type ts us vs ps hn hname ht hc hps =>
    obtain ⟨z', hz', herase⟩ := eraseFrom_param ht hc
    have hlex : n.lexeme = (⟨nm, type⟩ : Param).lexeme := by
      rw [Token.lexeme, Param.lexeme, hn, hname]
    have hfirst : ∀ ls, eraseFrom (.params true) (n.lexeme :: ls) =
        n.lexeme :: eraseFrom .param ls := by
      intro ls
      simp [eraseFrom, Zone.keep, Zone.next, Zone.separate, Token.lexeme, hn]
    rw [List.cons_append, List.map_cons, List.cons_append, List.map_append, List.append_assoc,
      hfirst, herase, eraseFrom_moreParams hps hb hz', paramsSkeleton_cons, hlex]
    rfl

theorem eraseFrom_head {hs : List Token} {name : Text} {params : List Param} {type : Option Text}
    (h : SpellsHead o hs name params type) (hv : ∀ t ∈ hs, t.lexeme.Valid boundary)
    (ls : List Lexeme) : eraseFrom .outside (hs.map Token.lexeme ++ ls) =
      [.mark .keywordFunction, ⟨.name, name⟩, .mark .parenOpen] ++ paramsSkeleton params ++
        [.mark .parenClose, .mark .braceOpen] ++ eraseFrom .outside ls := by
  cases h with
  | @mk f n a b c ts us params type hf hn ha hps hb ht hreq hc =>
    have hf' : f.lexeme = .mark .keywordFunction := (hv f (by simp)).eq_mark hf (by decide)
    have ha' : a.lexeme = .mark .parenOpen := (hv a (by simp)).eq_mark ha (by decide)
    have hb' : b.lexeme = .mark .parenClose := (hv b (by simp)).eq_mark hb (by decide)
    have hc' : c.lexeme = .mark .braceOpen := (hv c (by simp)).eq_mark hc (by decide)
    have hn' : n.lexeme = ⟨.name, n.text⟩ := by rw [Token.lexeme, hn]
    have htype : eraseFrom .closed (us.map Token.lexeme ++ .mark .braceOpen :: ls) =
        .mark .braceOpen :: eraseFrom .outside ls := by
      cases ht with
      | none => rfl
      | some hcolon hname =>
        simp [eraseFrom, Zone.keep, Zone.next, Token.lexeme, hcolon, Lexeme.mark]
    have hopen : ∀ ls, eraseFrom .outside
        (.mark .keywordFunction :: ⟨.name, n.text⟩ :: .mark .parenOpen :: ls) =
        .mark .keywordFunction :: ⟨.name, n.text⟩ :: .mark .parenOpen ::
          eraseFrom (.params true) ls := fun _ => rfl
    simp only [List.map_append, List.map_cons, List.map_nil, List.cons_append, List.nil_append,
      List.append_assoc, hf', ha', hb', hc', hn', hopen]
    rw [eraseFrom_params hps rfl, htype]

/-- Tokens that spell nodes leave the skeletons of these nodes. -/
theorem Spells.eraseFrom {ts : List Token} {ns : List Node} (h : Spells o ts ns)
    (hv : ∀ t ∈ ts, t.lexeme.Valid boundary) (ls : List Lexeme) :
    eraseFrom .outside (ts.map Token.lexeme ++ ls) =
      Node.skeletonList ns ++ TypeStrip.eraseFrom .outside ls := by
  induction h generalizing ls with
  | nil => rfl
  | @leaf t n us ns hn _ ih =>
    have hlex : n.skeleton = [t.lexeme] := by
      cases hn with
      | number h | string h | identifier h => rw [Token.lexeme, h]; rfl
      | operator h ht => rw [Token.lexeme, h, ht]; rfl
      | punctuation h => rfl
    have hout : Zone.outside.next t.kind = .outside := by
      have hk : t.kind ≠ .keywordFunction := by
        intro hk
        cases hn with
        | punctuation h => simp [hk] at h
        | number h | string h | identifier h | operator h _ => rw [hk] at h; cases h
      exact if_neg hk
    rw [List.map_cons, List.cons_append, eraseFrom_cons]
    show [t.lexeme] ++ TypeStrip.eraseFrom (Zone.outside.next t.kind) _ = _
    rw [hout, ih (fun t ht => hv t (List.mem_cons_of_mem _ ht)), Node.skeletonList, hlex,
      List.append_assoc]
  | @returns r e ts us values ns hr _ hne hs he _ ihv ihn =>
    have hr' : r.lexeme = .mark .keywordReturn := (hv r (by simp)).eq_mark hr (by decide)
    have he' : e.lexeme = .mark .semicolon := (hv e (by simp)).eq_mark he (by decide)
    have hfirst : ∀ ls, TypeStrip.eraseFrom .outside (.mark .keywordReturn :: ls) =
        .mark .keywordReturn :: TypeStrip.eraseFrom .outside ls := fun _ => rfl
    have hlast : ∀ ls, TypeStrip.eraseFrom .outside (.mark .semicolon :: ls) =
        .mark .semicolon :: TypeStrip.eraseFrom .outside ls := fun _ => rfl
    simp only [List.map_append, List.map_cons, List.cons_append, List.append_assoc, hr', he', hfirst]
    rw [ihv fun t ht => hv t (by simp [ht]), hlast, ihn fun t ht => hv t (by simp [ht])]
    simp [Node.skeletonList, Node.skeleton]
  | @function e hs ts us name params type body ns hh _ he _ ihb ihn =>
    have he' : e.lexeme = .mark .braceClose := (hv e (by simp)).eq_mark he (by decide)
    have hlast : ∀ ls, TypeStrip.eraseFrom .outside (.mark .braceClose :: ls) =
        .mark .braceClose :: TypeStrip.eraseFrom .outside ls := fun _ => rfl
    simp only [List.map_append, List.map_cons, List.cons_append, List.append_assoc, he']
    rw [eraseFrom_head hh fun t ht => hv t (by simp [ht]), ihb fun t ht => hv t (by simp [ht]),
      hlast, ihn fun t ht => hv t (by simp [ht])]
    simp [Node.skeletonList, Node.skeleton]

theorem Spells.eraseTypes {ts : List Token} {ns : List Node} (h : Spells o ts ns)
    (hv : ∀ t ∈ ts, t.lexeme.Valid boundary) :
    eraseTypes (ts.map Token.lexeme) = Node.skeletonList ns := by
  have h2 := h.eraseFrom hv []
  rw [List.append_nil, TypeStrip.eraseFrom, List.append_nil] at h2
  exact h2

end TypeStrip
