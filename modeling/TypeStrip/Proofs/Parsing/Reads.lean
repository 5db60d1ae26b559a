import TypeStrip.Proofs.Parsing.Runs

/-!
# States and the tokens that lead to them

* `ParseState.bodyStep_eq_ok`   what a token outside of headers can do;
* `Header.Reads`                the tokens that lead to a stage of a header;
* `Reads`, `ParseState.Reads`   the tokens that lead to a state: spellings of its finished nodes
                                between the openings of its constructs;
* `ParseState.Reads.step`       a token that is not refused leads to a state that is read again;
* `ParseState.Reads.feed`       and so does a whole pass.
-/

namespace TypeStrip

variable {o : Options} {room : Int}

/-! ### What a token can do -/

namespace ParseState

/-- A token where a node begins is a leaf, or it opens a construct for which there is room. -/
theorem nodeStep_eq_ok {s s' : ParseState} {t : Token} (h : nodeStep room s t = .ok s') :
    (∃ n, SpellsLeaf t n ∧ s' = s.add n) ∨
    (t.kind = .keywordReturn ∧ (s.opened.length : Int) < room ∧
      s' = { s with opened := .returning [] :: s.opened }) ∨
    (t.kind = .keywordFunction ∧ (s.opened.length : Int) < room ∧
      s' = { s with header := some .start }) := by
  unfold nodeStep at h
  split at h
  · next hk => exact .inl ⟨_, .number hk, (Except.ok.inj h).symm⟩
  · next hk =>
    split at h
    · cases h
    · next op hop =>
      exact .inl ⟨_, .operator hk (Operator.ofText?_eq_some_iff.mp hop), (Except.ok.inj h).symm⟩
  · next hk => exact .inl ⟨_, .string hk, (Except.ok.inj h).symm⟩
  · next hk => exact .inl ⟨_, .identifier hk, (Except.ok.inj h).symm⟩
  · next hk => exact .inl ⟨_, .punctuation (.inl hk), (Except.ok.inj h).symm⟩
  · next hk => exact .inl ⟨_, .punctuation (.inr (.inl hk)), (Except.ok.inj h).symm⟩
  · next hk => exact .inl ⟨_, .punctuation (.inr (.inr hk)), (Except.ok.inj h).symm⟩
  · next hk =>
    split at h
    · cases h
    · exact .inr (.inl ⟨hk, by omega, (Except.ok.inj h).symm⟩)
  · next hk =>
    split at h
    · cases h
    · exact .inr (.inr ⟨hk, by omega, (Except.ok.inj h).symm⟩)
  all_goals cases h

/-- A token outside of headers closes the innermost construct or begins a node. -/
theorem bodyStep_eq_ok {s s' : ParseState} {t : Token} (h : bodyStep room s t = .ok s') :
    (∃ vs fs, s.opened = .returning vs :: fs ∧ t.kind = .semicolon ∧ vs ≠ [] ∧
      s' = add (.returns vs.reverse) { s with opened := fs }) ∨
    (∃ name params type ns fs, s.opened = .body (Name.text name) params type ns :: fs ∧
      t.kind = .braceClose ∧
      s' = add (.function name params type ns.reverse) { s with opened := fs }) ∨
    ((s.returning = true → t.kind ≠ .semicolon) ∧ nodeStep room s t = .ok s') := by
  unfold bodyStep at h
  split at h
  · next vs fs hs =>
    split at h
    · next hk =>
      split at h
      · cases h
      · next hne => exact .inl ⟨vs, fs, hs, hk, by simpa using hne, (Except.ok.inj h).symm⟩
    · next hk => exact .inr (.inr ⟨fun _ => hk, h⟩)
  · next name params type ns fs hs =>
    split at h
    · next hk =>
      split at h
      · cases h
      · next nm hnm =>
        rw [Name.ofText?_eq_some_iff.mp hnm] at hs
        exact .inr (.inl ⟨nm, params, type, ns, fs, hs, hk, (Except.ok.inj h).symm⟩)
    · exact .inr (.inr ⟨fun hr => by simp [returning, hs] at hr, h⟩)
  · next hs => exact .inr (.inr ⟨fun hr => by simp [returning, hs] at hr, h⟩)

end ParseState

/-! ### Headers read so far -/

/-- A function header up to a place where a parameter may begin. -/
inductive SpellsOpening : List Token → Text → List Param → Prop where
  | mk {f n a : Token} {ts : List Token} {params : List Param} (hf : f.kind = .keywordFunction)
      (hn : n.kind = .name) (ha : a.kind = .parenOpen) (hps : SpellsParams ts params) :
      SpellsOpening ([f, n, a] ++ ts) n.text params

theorem SpellsOpening.snoc {ts us vs : List Token} {name : Text} {ps : List Param} {p : Token}
    {n : Name} {type : Option Text} (h : SpellsOpening ts name ps.reverse) (hp : p.kind = .name)
    (hn : p.text = n.text) (ht : SpellsType us type) (hc : SpellsComma vs) :
    SpellsOpening (ts ++ p :: (us ++ vs)) name (⟨n, type⟩ :: ps).reverse := by
  generalize hrev : ps.reverse = qs at h
  cases h with
  | mk hf hm ha hps =>
    rw [List.reverse_cons, hrev, List.append_assoc]
    exact .mk hf hm ha (hps.snoc hp hn ht hc)

theorem SpellsOpening.head {ts us : List Token} {name : Text} {params : List Param}
    {type : Option Text} {b c : Token} (h : SpellsOpening ts name params)
    (hb : b.kind = .parenClose) (ht : SpellsType us type)
    (hreq : o.requireReturnType = true → type ≠ none) (hc : c.kind = .braceOpen) :
    SpellsHead o (ts ++ b :: us ++ [c]) name params type := by
  cases h with
  | mk hf hn ha hps => exact .mk hf hn ha hps hb ht hreq hc

inductive Header.Reads : Header → List Token → Prop where
  | start {f : Token} (hf : f.kind = .keywordFunction) : Reads .start [f]
  | named {f n : Token} (hf : f.kind = .keywordFunction) (hn : n.kind = .name) :
      Reads (.named n.text) [f, n]
  | params {ts : List Token} {name : Text} {ps : List Param}
      (h : SpellsOpening ts name ps.reverse) : Reads (.params name ps) ts
  | param {ts : List Token} {name : Text} {ps : List Param} {p : Token}
      (h : SpellsOpening ts name ps.reverse) (hp : p.kind = .name) :
      Reads (.param name ps p.text) (ts ++ [p])
  | paramColon {ts : List Token} {name : Text} {ps : List Param} {p c : Token}
      (h : SpellsOpening ts name ps.reverse) (hp : p.kind = .name) (hc : c.kind = .colon) :
      Reads (.paramColon name ps p.text) (ts ++ [p, c])
  | paramTyped {ts : List Token} {name : Text} {ps : List Param} {p c t : Token}
      (h : SpellsOpening ts name ps.reverse) (hp : p.kind = .name) (hc : c.kind = .colon)
      (ht : t.kind = .name) : Reads (.paramTyped name ps p.text t.text) (ts ++ [p, c, t])
  | closed {ts : List Token} {name : Text} {ps : List Param} {b : Token}
      (h : SpellsOpening ts name ps.reverse) (hb : b.kind = .parenClose) :
      Reads (.closed name ps) (ts ++ [b])
  | returnColon {ts : List Token} {name : Text} {ps : List Param} {b c : Token}
      (h : SpellsOpening ts name ps.reverse) (hb : b.kind = .parenClose) (hc : c.kind = .colon) :
      Reads (.returnColon name ps) (ts ++ [b, c])
  | typed {ts : List Token} {name : Text} {ps : List Param} {b c t : Token}
      (h : SpellsOpening ts name ps.reverse) (hb : b.kind = .parenClose) (hc : c.kind = .colon)
      (ht : t.kind = .name) : Reads (.typed name ps t.text) (ts ++ [b, c, t])

/-- What a token of a header leads to, in terms of the tokens read. -/
def HeaderStep.Reads (o : Options) (ts : List Token) : HeaderStep → Prop
  | more h => h.Reads ts
  | opens name params type => SpellsHead o ts name params.reverse type

theorem Header.Reads.paramsStep {ts : List Token} {name : Text} {ps : List Param} {t : Token}
    {r : HeaderStep} (h : SpellsOpening ts name ps.reverse)
    (hstep : Header.paramsStep name ps t = .ok r) : r.Reads o (ts ++ [t]) := by
  unfold Header.paramsStep at hstep
  split at hstep
  · next hk =>
    cases hstep
    exact .closed h hk
  · next hk =>
    cases hstep
    exact .param h hk
  · cases hstep

theorem Header.Reads.settle {ts us : List Token} {name : Text} {ps : List Param} {p t : Token}
    {type : Option Text} {r : HeaderStep} (h : SpellsOpening ts name ps.reverse)
    (hp : p.kind = .name) (ht : SpellsType us type)
    (hstep : Header.settle name ps p.text type t = .ok r) :
    r.Reads o (ts ++ p :: us ++ [t]) := by
  unfold Header.settle at hstep
  split at hstep
  · cases hstep
  · next n hn =>
    have hname := Name.ofText?_eq_some_iff.mp hn
    split at hstep
    · next hk =>
      cases hstep
      have h2 := h.snoc hp hname ht (.present hk)
      exact .params (by simpa using h2)
    · have h2 := h.snoc hp hname ht .absent
      rw [List.append_nil] at h2
      exact Header.Reads.paramsStep h2 hstep

theorem Header.Reads.step {h : Header} {hs : List Token} {t : Token} {r : HeaderStep}
    (hr : h.Reads hs) (hstep : h.step o t = .ok r) : r.Reads o (hs ++ [t]) := by
  cases hr with
  | start hf =>
    simp only [Header.step] at hstep
    split at hstep <;> cases hstep
    next hn => exact .named hf hn
  | named hf hn =>
    simp only [Header.step] at hstep
    split at hstep <;> cases hstep
    next ha => exact .params (.mk hf hn ha .nil)
  | params h => exact Header.Reads.paramsStep h hstep
  | param h hp =>
    simp only [Header.step] at hstep
    split at hstep
    · next hc =>
      cases hstep
      have h2 := Header.Reads.paramColon h hp hc
      show Header.Reads _ _
      simpa using h2
    · exact Header.Reads.settle h hp .none hstep
  | paramColon h hp hc =>
    simp only [Header.step] at hstep
    split at hstep <;> cases hstep
    next ht =>
    have h2 := Header.Reads.paramTyped h hp hc ht
    show Header.Reads _ _
    simpa using h2
  | paramTyped h hp hc ht => exact Header.Reads.settle h hp (.some hc ht) hstep
  | closed h hb =>
    simp only [Header.step] at hstep
    split at hstep
    · next hc =>
      cases hstep
      have h2 := Header.Reads.returnColon h hb hc
      show Header.Reads _ _
      simpa using h2
    · split at hstep <;> cases hstep
      next hc =>
      simp only [Bool.and_eq_true, Bool.not_eq_true', decide_eq_true_eq] at hc
      exact h.head hb .none (by simp [hc.1]) hc.2
  | returnColon h hb hc =>
    simp only [Header.step] at hstep
    split at hstep <;> cases hstep
    next ht =>
    have h2 := Header.Reads.typed h hb hc ht
    show Header.Reads _ _
    simpa using h2
  | typed h hb hc ht =>
    simp only [Header.step] at hstep
    split at hstep <;> cases hstep
    next ho => exact h.head hb (.some hc ht) (by simp) ho

/-! ### Soundness -/

/-- The tokens that lead to the finished nodes `done` and the open constructs; all of these keep
within the room there is. -/
inductive Reads (o : Options) (room : Int) (done : List Node) : List Frame → List Token → Prop where
  | done {ts : List Token} (h : Spells o ts done.reverse) (hfit : Fits room 0 done) :
      Reads o room done [] ts
  | returning {fs : List Frame} {ts us : List Token} {r : Token} {vs : List Node}
      (hf : Reads o room done fs ts) (hr : r.kind = .keywordReturn)
      (hroom : (fs.length : Int) < room) (hv : Spells o us vs.reverse)
      (hs : ∀ v ∈ vs, v.isSemicolon = false) (hfit : Fits room (fs.length + 1) vs) :
      Reads o room done (.returning vs :: fs) (ts ++ r :: us)
  | body {fs : List Frame} {ts us hs : List Token} {name : Text} {params : List Param}
      {type : Option Text} {ns : List Node} (hf : Reads o room done fs ts)
      (hh : SpellsHead o hs name params type) (hroom : (fs.length : Int) < room)
      (hb : Spells o us ns.reverse) (hfit : Fits room (fs.length + 1) ns) :
      Reads o room done (.body name params type ns :: fs) (ts ++ (hs ++ us))

def ParseState.Reads (o : Options) (room : Int) (s : ParseState) (ts : List Token) : Prop :=
  match s.header with
  | none => TypeStrip.Reads o room s.done s.opened ts
  | some h => (s.opened.length : Int) < room ∧ ∃ us hs, ts = us ++ hs ∧
      TypeStrip.Reads o room s.done s.opened us ∧ h.Reads hs

theorem Reads.add {s : ParseState} {ts us : List Token} {n : Node} (hh : s.header = none)
    (h : Reads o room s.done s.opened ts) (hn : Spells o us [n])
    (hfit : Fits room s.opened.length [n]) (hs : s.returning = true → n.isSemicolon = false) :
    (s.add n).Reads o room (ts ++ us) := by
  obtain ⟨done, opened, header⟩ := s
  subst hh
  cases h with
  | done h hfit' =>
    refine .done ?_ (fits_cons.mpr ⟨hfit, hfit'⟩)
    show Spells o (ts ++ us) (n :: done).reverse
    rw [List.reverse_cons]
    exact h.append hn
  | @returning fs ts vs r values hf hr hroom hv hsemi hfit' =>
    have hv' : Spells o (vs ++ us) (n :: values).reverse := by
      rw [List.reverse_cons]
      exact hv.append hn
    have hsemi' : ∀ v ∈ n :: values, v.isSemicolon = false := by
      intro v hm
      rcases List.mem_cons.mp hm with rfl | hm
      · exact hs rfl
      · exact hsemi v hm
    have h2 := Reads.returning hf hr hroom hv' hsemi' (fits_cons.mpr ⟨hfit, hfit'⟩)
    show TypeStrip.Reads o room done (.returning (n :: values) :: fs) _
    simpa using h2
  | @body fs ts vs hs' name params type ns hf hhead hroom hb hfit' =>
    have hb' : Spells o (vs ++ us) (n :: ns).reverse := by
      rw [List.reverse_cons]
      exact hb.append hn
    have h2 := Reads.body hf hhead hroom hb' (fits_cons.mpr ⟨hfit, hfit'⟩)
    show TypeStrip.Reads o room done (.body name params type (n :: ns) :: fs) _
    simpa using h2

theorem Reads.nodeStep {s s' : ParseState} {ts : List Token} {t : Token} (hh : s.header = none)
    (h : Reads o room s.done s.opened ts) (hsemi : s.returning = true → t.kind ≠ .semicolon)
    (hstep : s.nodeStep room t = .ok s') : s'.Reads o room (ts ++ [t]) := by
  rcases ParseState.nodeStep_eq_ok hstep with ⟨n, hn, rfl⟩ | ⟨hk, hroom, rfl⟩ | ⟨hk, hroom, rfl⟩
  · refine Reads.add hh h (.leaf hn .nil) (fits_leaf hn) fun hr => ?_
    cases hn with
    | punctuation hk =>
      cases hkind : t.kind <;> simp_all [Node.isSemicolon]
    | number _ | string _ | identifier _ | operator _ _ => rfl
  · obtain ⟨done, opened, header⟩ := s
    subst hh
    exact .returning h hk hroom .nil (by simp) (Fits.nil _)
  · exact ⟨hroom, ts, [t], rfl, h, .start hk⟩

theorem Reads.bodyStep {s s' : ParseState} {ts : List Token} {t : Token} (hh : s.header = none)
    (h : Reads o room s.done s.opened ts) (hstep : s.bodyStep room t = .ok s') :
    s'.Reads o room (ts ++ [t]) := by
  obtain ⟨done, opened, header⟩ := s
  subst hh
  rcases ParseState.bodyStep_eq_ok hstep with
    ⟨vs, fs, hopen, hk, hne, rfl⟩ | ⟨name, params, type, ns, fs, hopen, hk, rfl⟩ | ⟨hsemi, hnode⟩
  · cases hopen
    cases h with
    | @returning _ ts us r _ hf hr hroom hv hs hfit =>
      have hnest : (Node.returns vs.reverse).nesting = 1 + Node.nestingList vs.reverse := rfl
      have hn := Spells.returns hr hv (by simpa using hne) (by simpa using hs) hk .nil
      have h2 := Reads.add (s := ⟨done, fs, none⟩) rfl hf hn
        ((fits_construct hnest).mpr ⟨hroom, fits_reverse.mpr hfit⟩) (fun _ => rfl)
      simpa using h2
  · cases hopen
    cases h with
    | @body _ ts us hs _ _ _ _ hf hhead hroom hb hfit =>
      have hnest : (Node.function name params type ns.reverse).nesting =
        1 + Node.nestingList ns.reverse := rfl
      have hn := Spells.function hhead hb hk .nil
      have h2 := Reads.add (s := ⟨done, fs, none⟩) rfl hf hn
        ((fits_construct hnest).mpr ⟨hroom, fits_reverse.mpr hfit⟩) (fun _ => rfl)
      simpa using h2
  · exact Reads.nodeStep rfl h hsemi hnode

theorem ParseState.Reads.step {s s' : ParseState} {ts : List Token} {t : Token}
    (h : s.Reads o room ts) (hstep : s.step o room t = .ok s') : s'.Reads o room (ts ++ [t]) := by
  obtain ⟨done, opened, header⟩ := s
  cases header with
  | none => exact TypeStrip.Reads.bodyStep rfl h hstep
  | some hd =>
    obtain ⟨hroom, us, hs, rfl, hread, hhead⟩ := h
    unfold ParseState.step at hstep
    cases hnext : hd.step o t with
    | error r => simp only [hnext] at hstep; cases hstep
    | ok r =>
      have hr := hhead.step hnext
      cases r with
      | more h' =>
        simp only [hnext] at hstep
        cases hstep
        exact ⟨hroom, us, hs ++ [t], by simp, hread, hr⟩
      | opens name params type =>
        simp only [hnext] at hstep
        cases hstep
        have h2 := TypeStrip.Reads.body hread hr hroom .nil (Fits.nil _)
        show TypeStrip.Reads _ _ _ _ _
        simpa using h2

theorem ParseState.Reads.feed {s s' : ParseState} {us ts : List Token} {p : Nat}
    (h : s.Reads o room us) (hfeed : feed o room s p ts = .ok s') :
    s'.Reads o room (us ++ ts) := by
  induction ts generalizing s us p with
  | nil =>
    cases hfeed
    rwa [List.append_nil]
  | cons t ts ih =>
    unfold TypeStrip.feed at hfeed
    split at hfeed
    · cases hfeed
    · next hstep =>
      have h2 := ih (h.step hstep) hfeed
      simpa using h2

end TypeStrip
