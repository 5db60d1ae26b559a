import TypeStrip.Parse
import TypeStrip.Proofs.Grammar

/-!
# Passes along a spelling

* `Runs`            a pass over some tokens that is never refused;
* `Fits`            nodes that keep within the number of constructs allowed;
* `runs_head`       a function header opens the body of the function;
* `Spells.runs`     a spelling takes a pass from any place where its nodes may stand to the state
                    with these nodes added.
-/

namespace TypeStrip

variable {o : Options} {room : Int}

/-! ### Passes without a refusal -/

/-- A pass over `ts` from `s` ends in `s'`, whatever was read before. -/
def Runs (o : Options) (room : Int) (s : ParseState) (ts : List Token) (s' : ParseState) : Prop :=
  ∀ p, feed o room s p ts = .ok s'

theorem Runs.nil (s : ParseState) : Runs o room s [] s := fun _ => rfl

theorem Runs.cons {s s₁ s₂ : ParseState} {t : Token} {ts : List Token}
    (h : s.step o room t = .ok s₁) (h' : Runs o room s₁ ts s₂) : Runs o room s (t :: ts) s₂ := by
  intro p
  rw [feed, h]
  exact h' (p + 1)

theorem Runs.single {s s' : ParseState} {t : Token} (h : s.step o room t = .ok s') :
    Runs o room s [t] s' := Runs.cons h (Runs.nil s')

theorem Runs.append {s s₁ s₂ : ParseState} {ts us : List Token} (h : Runs o room s ts s₁)
    (h' : Runs o room s₁ us s₂) : Runs o room s (ts ++ us) s₂ := by
  intro p
  rw [feed_append, h p]
  exact h' (p + ts.length)

/-! ### Nodes at a place -/

def ParseState.returning (s : ParseState) : Bool :=
  match s.opened with
  | .returning _ :: _ => true
  | _ => false

def Frame.fill (ns : List Node) : Frame → Frame
  | .returning _ => .returning ns
  | .body name params type _ => .body name params type ns

/-- Finished nodes added one after the other. -/
def ParseState.addAll (s : ParseState) (ns : List Node) : ParseState :=
  ns.foldl (fun s n => s.add n) s

namespace ParseState

theorem header_add (s : ParseState) (n : Node) : (s.add n).header = s.header := by
  unfold add
  split <;> rfl

theorem length_opened_add (s : ParseState) (n : Node) :
    (s.add n).opened.length = s.opened.length := by
  unfold add
  split
  · rfl
  · next hs => rw [hs]; rfl

theorem returning_add (s : ParseState) (n : Node) : (s.add n).returning = s.returning := by
  obtain ⟨done, opened, header⟩ := s
  cases opened with
  | nil => rfl
  | cons f fs => cases f <;> rfl

theorem addAll_done (done ns : List Node) (header : Option Header) :
    addAll ⟨done, [], header⟩ ns = ⟨ns.reverse ++ done, [], header⟩ := by
  induction ns generalizing done with
  | nil => rfl
  | cons n ns ih =>
    show addAll ⟨n :: done, [], header⟩ ns = _
    rw [ih, List.reverse_cons, List.append_assoc, List.singleton_append]

theorem addAll_opened (done ns : List Node) (f : Frame) (fs : List Frame)
    (header : Option Header) : addAll ⟨done, f :: fs, header⟩ ns =
      ⟨done, f.fill (ns.reverse ++ f.nodes) :: fs, header⟩ := by
  induction ns generalizing f with
  | nil => cases f <;> rfl
  | cons n ns ih =>
    show addAll ⟨done, f.add n :: fs, header⟩ ns = _
    rw [ih, List.reverse_cons, List.append_assoc, List.singleton_append]
    cases f <;> rfl

end ParseState

/-- Nodes inside of `depth` constructs keep within `room` of them. -/
def Fits (room : Int) (depth : Nat) (ns : List Node) : Prop :=
  Node.nestingList ns = 0 ∨ (depth + Node.nestingList ns : Int) ≤ room

theorem Fits.nil (depth : Nat) : Fits room depth [] := .inl rfl

theorem fits_cons {depth : Nat} {n : Node} {ns : List Node} :
    Fits room depth (n :: ns) ↔ Fits room depth [n] ∧ Fits room depth ns := by
  simp only [Fits, Node.nestingList]
  omega

theorem fits_leaf {depth : Nat} {t : Token} {n : Node} (h : SpellsLeaf t n) :
    Fits room depth [n] := by
  left
  rw [Node.nestingList, h.nesting]
  rfl

/-- A construct fits if there is room for itself and its nodes fit one level further in. -/
theorem fits_construct {depth : Nat} {n : Node} {ns : List Node}
    (hn : n.nesting = 1 + Node.nestingList ns) :
    Fits room depth [n] ↔ (depth : Int) < room ∧ Fits room (depth + 1) ns := by
  simp only [Fits, Node.nestingList, hn]
  omega

theorem fits_reverse {depth : Nat} {ns : List Node} :
    Fits room depth ns.reverse ↔ Fits room depth ns := by
  rw [Fits, Node.nestingList_reverse]
  rfl

/-! ### Texts that make names and operators -/

theorem Name.ofText?_eq_some_iff {s : Text} {name : Name} :
    Name.ofText? s = some name ↔ s = name.text := by
  unfold Name.ofText?
  constructor
  · intro h
    split at h
    · cases h
      rfl
    · cases h
  · rintro rfl
    rw [dif_pos name.nonempty]

theorem Operator.ofText?_eq_some_iff {s : Text} {op : Operator} :
    Operator.ofText? s = some op ↔ s = [op.sign] := by
  constructor
  · intro h
    have hs := List.find?_some h
    exact (beq_iff_eq.mp hs).symm
  · rintro rfl
    exact Operator.ofText?_sign op

/-! ### One token of a spelling -/

namespace ParseState

/-- A token that closes nothing begins a node. -/
theorem bodyStep_eq_nodeStep {s : ParseState} {t : Token}
    (hs : s.returning = true → t.kind ≠ .semicolon) (hb : t.kind ≠ .braceClose) :
    bodyStep room s t = nodeStep room s t := by
  obtain ⟨done, opened, header⟩ := s
  cases opened with
  | nil => rfl
  | cons f fs =>
    cases f with
    | returning vs =>
      show (if t.kind = .semicolon then _ else _) = _
      rw [if_neg (hs rfl)]
    | body name params type ns =>
      show (if t.kind = .braceClose then _ else _) = _
      rw [if_neg hb]

theorem step_eq_nodeStep {s : ParseState} {t : Token} (hh : s.header = none)
    (hs : s.returning = true → t.kind ≠ .semicolon) (hb : t.kind ≠ .braceClose) :
    s.step o room t = nodeStep room s t := by
  unfold step
  rw [hh]
  exact bodyStep_eq_nodeStep hs hb

theorem nodeStep_leaf (s : ParseState) {t : Token} {n : Node} (h : SpellsLeaf t n) :
    nodeStep room s t = .ok (s.add n) := by
  unfold nodeStep
  cases h with
  | number h => rw [h]
  | string h => rw [h]
  | identifier h => rw [h]
  | operator h ht => rw [h, Operator.ofText?_eq_some_iff.mpr ht]
  | punctuation h => rcases h with h | h | h <;> rw [h]

theorem step_leaf {s : ParseState} {t : Token} {n : Node} (h : SpellsLeaf t n)
    (hh : s.header = none) (hs : s.returning = true → n.isSemicolon = false) :
    s.step o room t = .ok (s.add n) := by
  have hb : t.kind ≠ .braceClose := by
    intro hk
    cases h with
    | punctuation h => simp [hk] at h
    | number h | string h | identifier h | operator h _ => rw [hk] at h; cases h
  have hsemi : s.returning = true → t.kind ≠ .semicolon := by
    intro hr hk
    have hn := hs hr
    cases h with
    | punctuation _ => rw [hk] at hn; cases hn
    | number h | string h | identifier h | operator h _ => rw [hk] at h; cases h
  rw [step_eq_nodeStep hh hsemi hb, nodeStep_leaf s h]

theorem step_return {s : ParseState} {t : Token} (hh : s.header = none)
    (ht : t.kind = .keywordReturn) (hroom : (s.opened.length : Int) < room) :
    s.step o room t = .ok { s with opened := .returning [] :: s.opened } := by
  rw [step_eq_nodeStep hh (by simp [ht]) (by simp [ht])]
  unfold nodeStep
  rw [ht]
  exact if_neg (by omega)

theorem step_function {s : ParseState} {t : Token} (hh : s.header = none)
    (ht : t.kind = .keywordFunction) (hroom : (s.opened.length : Int) < room) :
    s.step o room t = .ok { s with header := some .start } := by
  rw [step_eq_nodeStep hh (by simp [ht]) (by simp [ht])]
  unfold nodeStep
  rw [ht]
  exact if_neg (by omega)

theorem step_semicolon {done vs : List Node} {fs : List Frame} {t : Token}
    (ht : t.kind = .semicolon) (hne : vs ≠ []) :
    step o room ⟨done, .returning vs :: fs, none⟩ t =
      .ok (add (.returns vs.reverse) ⟨done, fs, none⟩) := by
  show (if t.kind = .semicolon then _ else _) = _
  rw [if_pos ht, if_neg (by simpa using hne)]

theorem step_braceClose {done ns : List Node} {fs : List Frame} {name : Name}
    {params : List Param} {type : Option Text} {t : Token} (ht : t.kind = .braceClose) :
    step o room ⟨done, .body name.text params type ns :: fs, none⟩ t =
      .ok (add (.function name params type ns.reverse) ⟨done, fs, none⟩) := by
  show (if t.kind = .braceClose then _ else _) = _
  rw [if_pos ht, Name.ofText?_eq_some_iff.mpr rfl]

theorem step_more {done : List Node} {fs : List Frame} {h h' : Header} {t : Token}
    (ht : h.step o t = .ok (.more h')) :
    step o room ⟨done, fs, some h⟩ t = .ok ⟨done, fs, some h'⟩ := by
  simp only [step, ht]

theorem step_opens {done : List Node} {fs : List Frame} {h : Header} {t : Token} {name : Text}
    {params : List Param} {type : Option Text} (ht : h.step o t = .ok (.opens name params type)) :
    step o room ⟨done, fs, some h⟩ t =
      .ok ⟨done, .body name params.reverse type [] :: fs, none⟩ := by
  simp only [step, ht]

end ParseState

/-! ### Headers -/

/-- Stages at which the parameters `ps` (latest first) are complete, whether or not the last of
them has been settled: a token that does not belong to the last parameter is looked at as where a
parameter may begin. -/
def Header.Behind (o : Options) (h : Header) (name : Text) (ps : List Param) : Prop :=
  ∀ t : Token, t.kind ≠ .colon → t.kind ≠ .comma → h.step o t = Header.paramsStep name ps t

theorem Header.behind_params (name : Text) (ps : List Param) :
    (Header.params name ps).Behind o name ps := fun _ _ _ => rfl

theorem Header.settle_eq {name : Text} {ps : List Param} {p : Text} {n : Name}
    {type : Option Text} {t : Token} (hp : p = n.text) (ht : t.kind ≠ .comma) :
    Header.settle name ps p type t = Header.paramsStep name (⟨n, type⟩ :: ps) t := by
  unfold Header.settle
  rw [Name.ofText?_eq_some_iff.mpr hp]
  exact if_neg ht

theorem Header.settle_comma {name : Text} {ps : List Param} {p : Text} {n : Name}
    {type : Option Text} {t : Token} (hp : p = n.text) (ht : t.kind = .comma) :
    Header.settle name ps p type t = .ok (.more (.params name (⟨n, type⟩ :: ps))) := by
  unfold Header.settle
  rw [Name.ofText?_eq_some_iff.mpr hp]
  exact if_pos ht

section
variable (done : List Node) (fs : List Frame)

/-- From behind the name of a parameter, its type and comma lead to a stage behind it. -/
theorem runs_param {ts us : List Token} {type : Option Text} (ht : SpellsType ts type)
    (hc : SpellsComma us) {name p : Text} {n : Name} (hp : p = n.text) (ps : List Param) :
    ∃ h : Header, h.Behind o name (⟨n, type⟩ :: ps) ∧
      Runs o room ⟨done, fs, some (.param name ps p)⟩ (ts ++ us) ⟨done, fs, some h⟩ := by
  cases ht with
  | none =>
    cases hc with
    | absent =>
      refine ⟨.param name ps p, fun t h1 h2 => ?_, Runs.nil _⟩
      show (if t.kind = .colon then _ else _) = _
      rw [if_neg h1, Header.settle_eq hp h2]
    | present hk =>
      refine ⟨.params name (⟨n, none⟩ :: ps), Header.behind_params _ _, ?_⟩
      refine Runs.single (ParseState.step_more ?_)
      show (if _ = Kind.colon then _ else _) = _
      rw [if_neg (by simp [hk]), Header.settle_comma hp hk]
  | @some c t hcolon hname =>
    have hstep : Runs o room ⟨done, fs, some (.param name ps p)⟩ [c, t]
        ⟨done, fs, some (.paramTyped name ps p t.text)⟩ :=
      Runs.cons (ParseState.step_more (if_pos hcolon))
        (Runs.single (ParseState.step_more (if_pos hname)))
    cases hc with
    | absent =>
      exact ⟨.paramTyped name ps p t.text, fun u _ h2 => Header.settle_eq hp h2, hstep⟩
    | present hk =>
      refine ⟨.params name (⟨n, some t.text⟩ :: ps), Header.behind_params _ _, ?_⟩
      exact hstep.append (Runs.single (ParseState.step_more (Header.settle_comma hp hk)))

theorem runs_params {ts : List Token} {params : List Param} (h : SpellsParams ts params)
    {b : Token} (hb : b.kind = .parenClose) (name : Text) (ps : List Param) {hd : Header}
    (hbehind : hd.Behind o name ps) : Runs o room ⟨done, fs, some hd⟩ (ts ++ [b])
      ⟨done, fs, some (.closed name (params.reverse ++ ps))⟩ := by
  induction h generalizing ps hd with
  | nil =>
    refine Runs.single (ParseState.step_more ?_)
    rw [hbehind b (by simp [hb]) (by simp [hb])]
    unfold Header.paramsStep
    rw [hb]
    rfl
  | @cons n nm type ts us vs params hn hname ht hc _ ih =>
    have hstep : hd.step o n = .ok (.more (.param name ps n.text)) := by
      rw [hbehind n (by simp [hn]) (by simp [hn])]
      unfold Header.paramsStep
      rw [hn]
    obtain ⟨h', hbehind', hrun⟩ : ∃ h' : Header, h'.Behind o name (⟨nm, type⟩ :: ps) ∧
        Runs o room ⟨done, fs, some (.param name ps n.text)⟩ (ts ++ us) ⟨done, fs, some h'⟩ :=
      runs_param done fs ht hc hname ps
    have hall := Runs.cons (ParseState.step_more hstep)
      (hrun.append (ih (⟨nm, type⟩ :: ps) hbehind'))
    simpa using hall

theorem runs_type {us : List Token} {type : Option Text} (ht : SpellsType us type)
    (hreq : o.requireReturnType = true → type ≠ none) {c : Token} (hc : c.kind = .braceOpen)
    (name : Text) (ps : List Param) : Runs o room ⟨done, fs, some (.closed name ps)⟩ (us ++ [c])
      ⟨done, .body name ps.reverse type [] :: fs, none⟩ := by
  cases ht with
  | none =>
    have hreq' : o.requireReturnType = false := by simpa using hreq
    refine Runs.single (ParseState.step_opens ?_)
    show (if c.kind = .colon then _ else _) = _
    rw [if_neg (by simp [hc]), if_pos (by simp [hreq', hc])]
  | some hcolon hname =>
    exact Runs.cons (ParseState.step_more (if_pos hcolon))
      (Runs.cons (ParseState.step_more (if_pos hname))
        (Runs.single (ParseState.step_opens (if_pos hc))))

theorem runs_head {hs : List Token} {name : Text} {params : List Param} {type : Option Text}
    (h : SpellsHead o hs name params type) (hroom : (fs.length : Int) < room) :
    Runs o room ⟨done, fs, none⟩ hs ⟨done, .body name params type [] :: fs, none⟩ := by
  cases h with
  | @mk f n a b c ts us params type hf hn ha hps hb ht hreq hc =>
    have h1 : Runs o room ⟨done, fs, none⟩ [f, n, a] ⟨done, fs, some (.params n.text [])⟩ :=
      Runs.cons (ParseState.step_function rfl hf hroom)
        (Runs.cons (ParseState.step_more (if_pos hn))
          (Runs.single (ParseState.step_more (if_pos ha))))
    have h2 := h1.append (runs_params done fs hps hb n.text [] (Header.behind_params _ _))
    have h3 := h2.append (runs_type done fs ht hreq hc n.text _)
    simpa using h3

end

/-! ### Completeness -/

/-- A place where some nodes may stand. -/
structure ParseState.Admits (room : Int) (s : ParseState) (ns : List Node) : Prop where
  header : s.header = none
  values : s.returning = true → ∀ n ∈ ns, n.isSemicolon = false
  fits : Fits room s.opened.length ns

theorem ParseState.Admits.tail {s : ParseState} {n : Node} {ns : List Node}
    (h : s.Admits room (n :: ns)) : (s.add n).Admits room ns where
  header := by rw [ParseState.header_add, h.header]
  values hr m hm := by
    rw [ParseState.returning_add] at hr
    exact h.values hr m (List.mem_cons_of_mem _ hm)
  fits := by
    rw [ParseState.length_opened_add]
    exact (fits_cons.mp h.fits).2

theorem Spells.runs {ts : List Token} {ns : List Node} (h : Spells o ts ns) {s : ParseState}
    (hs : s.Admits room ns) : Runs o room s ts (s.addAll ns) := by
  induction h generalizing s with
  | nil => exact Runs.nil s
  | @leaf t n us ns hn _ ih =>
    have hstep : s.step o room t = .ok (s.add n) :=
      ParseState.step_leaf hn hs.header fun hr => hs.values hr n List.mem_cons_self
    exact Runs.cons hstep (ih hs.tail)
  | @returns r e ts us values ns hr _ hne hsemi he _ ihv ihn =>
    obtain ⟨done, fs, header⟩ := s
    cases hs.header
    have hnest : (Node.returns values).nesting = 1 + Node.nestingList values := rfl
    obtain ⟨hroom, hvalues⟩ := (fits_construct hnest).mp (fits_cons.mp hs.fits).1
    have h1 : Runs o room ⟨done, .returning [] :: fs, none⟩ ts
        ⟨done, .returning values.reverse :: fs, none⟩ := by
      have h := ihv (s := ⟨done, .returning [] :: fs, none⟩) ⟨rfl, fun _ => hsemi, hvalues⟩
      rw [ParseState.addAll_opened, Frame.nodes, List.append_nil] at h
      exact h
    have h2 : ParseState.step o room ⟨done, .returning values.reverse :: fs, none⟩ e =
        .ok (ParseState.add (.returns values) ⟨done, fs, none⟩) := by
      rw [ParseState.step_semicolon he (by simpa using hne), List.reverse_reverse]
    exact Runs.cons (ParseState.step_return rfl hr hroom) (h1.append (Runs.cons h2 (ihn hs.tail)))
  | @function e hts ts us name params type body ns hhead _ he _ ihb ihn =>
    obtain ⟨done, fs, header⟩ := s
    cases hs.header
    have hnest : (Node.function name params type body).nesting = 1 + Node.nestingList body := rfl
    obtain ⟨hroom, hbody⟩ := (fits_construct hnest).mp (fits_cons.mp hs.fits).1
    have h1 : Runs o room ⟨done, .body name.text params type [] :: fs, none⟩ ts
        ⟨done, .body name.text params type body.reverse :: fs, none⟩ := by
      have h := ihb (s := ⟨done, .body name.text params type [] :: fs, none⟩) ⟨rfl, nofun, hbody⟩
      rw [ParseState.addAll_opened, Frame.nodes, List.append_nil] at h
      exact h
    have h2 : ParseState.step o room ⟨done, .body name.text params type body.reverse :: fs, none⟩ e
        = .ok (ParseState.add (.function name params type body) ⟨done, fs, none⟩) := by
      rw [ParseState.step_braceClose he, List.reverse_reverse]
    exact ((runs_head done fs hhead hroom).append h1).append (Runs.cons h2 (ihn hs.tail))

end TypeStrip
