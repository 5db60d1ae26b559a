import TypeStrip.Diagnostic
import TypeStrip.Proofs.Cursors.Discipline

/-!
# The limit on nesting

Every construct begins with its keyword, so that the keywords of a node and its constructs stand in
the same order.  A walk with a limit that a node exceeds stops at the first keyword that is inside
of as many constructs as there is room for.

* `Node.depths`              the number of constructs around each construct of a node;
* `keywordDepths`            the keywords of some nodes with these numbers;
* `Node.keywordInside`       the first keyword inside of a given number of constructs;
* `Spells.refused`           a pass over nodes that do not fit stops there;
* `Cursor.walk_limit`        what a lower limit changes.
-/

namespace TypeStrip

variable {o : Options} {room : Int}

/-! ### Keywords and constructs -/

/-- The two keywords. -/
def Kind.opens : Kind → Bool
  | .keywordReturn | .keywordFunction => true
  | _ => false

/-- The tokens that begin a construct. -/
def openers (ts : List Token) : List Token := ts.filter fun t => t.kind.opens

mutual

/-- The number of constructs around each construct of a node that stands inside of `depth` others,
in the order in which they begin. -/
def Node.depths (depth : Nat) : Node → List Nat
  | .returns values => depth :: Node.depthsList (depth + 1) values
  | .function _ _ _ body => depth :: Node.depthsList (depth + 1) body
  | .number _ | .string _ | .identifier _ | .operator _ | .punctuation _ _ => []

def Node.depthsList (depth : Nat) : List Node → List Nat
  | [] => []
  | n :: ns => n.depths depth ++ Node.depthsList depth ns

end

/-- The keywords of the nodes that `ts` spells, each with the number of constructs around it.  There
are as many keywords as constructs (`Spells.length_openers`). -/
def keywordDepths (depth : Nat) (ns : List Node) (ts : List Token) : List (Token × Nat) :=
  (openers ts).zip (Node.depthsList depth ns)

/-- The first keyword of a node spelled by `ts` that is inside of `k` constructs of the node. -/
def Node.keywordInside (n : Node) (ts : List Token) (k : Nat) : Option Token :=
  ((keywordDepths 0 [n] ts).find? fun x => x.2 = k).map fun x => x.1

theorem openers_append (ts us : List Token) : openers (ts ++ us) = openers ts ++ openers us :=
  List.filter_append ..

theorem openers_cons {t : Token} (h : t.kind.opens = true) (ts : List Token) :
    openers (t :: ts) = t :: openers ts := List.filter_cons_of_pos h

theorem openers_eq_nil {ts : List Token} (h : ∀ t ∈ ts, t.kind.opens = false) :
    openers ts = [] := by
  refine List.filter_eq_nil_iff.mpr fun t ht => ?_
  rw [h t ht]
  exact Bool.false_ne_true

theorem SpellsLeaf.opens {t : Token} {n : Node} (h : SpellsLeaf t n) : t.kind.opens = false := by
  cases h with
  | number h | string h | identifier h | operator h _ => rw [h]; rfl
  | punctuation h => rcases h with h | h | h <;> rw [h] <;> rfl

theorem SpellsLeaf.depths {t : Token} {n : Node} (h : SpellsLeaf t n) (depth : Nat) :
    n.depths depth = [] := by
  cases h <;> rfl

theorem SpellsType.opens {ts : List Token} {type : Option Text} (h : SpellsType ts type) :
    ∀ t ∈ ts, t.kind.opens = false := by
  cases h with
  | none => nofun
  | some hc ht => simp [hc, ht, Kind.opens]

theorem SpellsComma.opens {ts : List Token} (h : SpellsComma ts) :
    ∀ t ∈ ts, t.kind.opens = false := by
  cases h with
  | absent => nofun
  | present hc => simp [hc, Kind.opens]

theorem SpellsParams.opens {ts : List Token} {params : List Param} (h : SpellsParams ts params) :
    ∀ t ∈ ts, t.kind.opens = false := by
  induction h with
  | nil => nofun
  | @cons n name type ts us vs ps hn hname ht hc hps ih =>
    have hname' : n.kind.opens = false := by rw [hn]; rfl
    intro t hmem
    simp only [List.cons_append, List.mem_cons, List.mem_append] at hmem
    rcases hmem with rfl | (hmem | hmem) | hmem
    · exact hname'
    · exact ht.opens t hmem
    · exact hc.opens t hmem
    · exact ih t hmem

/-- The only keyword of a header is its first token. -/
theorem SpellsHead.exists_keyword {hs : List Token} {name : Text} {params : List Param}
    {type : Option Text} (h : SpellsHead o hs name params type) :
    ∃ f hs', hs = f :: hs' ∧ f.kind = .keywordFunction ∧ openers hs' = [] := by
  cases h with
  | @mk f n a b c ts us params type hf hn ha hps hb ht hreq hc =>
    refine ⟨f, [n, a] ++ ts ++ b :: us ++ [c], by simp, hf, openers_eq_nil fun t hmem => ?_⟩
    simp only [List.append_assoc, List.cons_append, List.nil_append, List.mem_cons,
      List.mem_append, List.not_mem_nil, or_false] at hmem
    rcases hmem with rfl | rfl | hmem | rfl | hmem | rfl
    · rw [hn]; rfl
    · rw [ha]; rfl
    · exact hps.opens t hmem
    · rw [hb]; rfl
    · exact ht.opens t hmem
    · rw [hc]; rfl

theorem openers_cons_of_not {t : Token} (h : t.kind.opens = false) (ts : List Token) :
    openers (t :: ts) = openers ts := List.filter_cons_of_neg (by rw [h]; exact Bool.false_ne_true)

/-- There are as many keywords as constructs. -/
theorem Spells.length_openers {ts : List Token} {ns : List Node} (h : Spells o ts ns)
    (depth : Nat) : (openers ts).length = (Node.depthsList depth ns).length := by
  induction h generalizing depth with
  | nil => rfl
  | leaf hn _ ih =>
    rw [openers_cons_of_not hn.opens, Node.depthsList, hn.depths, List.nil_append, ih]
  | @returns r e ts us values ns hr _ _ _ he _ ihv ihn =>
    have hr' : r.kind.opens = true := by rw [hr]; rfl
    have he' : e.kind.opens = false := by rw [he]; rfl
    rw [List.cons_append, openers_cons hr', openers_append, openers_cons_of_not he',
      Node.depthsList, Node.depths]
    simp only [List.cons_append, List.length_cons, List.length_append, ihv (depth + 1), ihn depth]
  | @function e hs ts us name params type body ns hhead _ he _ ihb ihn =>
    obtain ⟨f, hs', rfl, hf, hhs'⟩ := hhead.exists_keyword
    have hf' : f.kind.opens = true := by rw [hf]; rfl
    have he' : e.kind.opens = false := by rw [he]; rfl
    rw [List.cons_append, List.cons_append, openers_cons hf', openers_append,
      openers_append, hhs', openers_cons_of_not he', Node.depthsList, Node.depths]
    simp only [List.nil_append, List.cons_append, List.length_cons, List.length_append,
      ihb (depth + 1), ihn depth]

/-! ### Keywords of nodes that fit -/

mutual

theorem Node.mem_depths {depth x : Nat} : (n : Node) → x ∈ n.depths depth →
    depth ≤ x ∧ x < depth + n.nesting
  | .returns values, h => by
    rcases List.mem_cons.mp h with rfl | h
    · exact ⟨Nat.le_refl x, by rw [Node.nesting]; omega⟩
    · have hx := Node.mem_depthsList values h
      rw [Node.nesting]
      omega
  | .function _ _ _ body, h => by
    rcases List.mem_cons.mp h with rfl | h
    · exact ⟨Nat.le_refl x, by rw [Node.nesting]; omega⟩
    · have hx := Node.mem_depthsList body h
      rw [Node.nesting]
      omega
  | .number _, h | .string _, h | .identifier _, h | .operator _, h | .punctuation _ _, h => by
    cases h

theorem Node.mem_depthsList {depth x : Nat} : (ns : List Node) → x ∈ Node.depthsList depth ns →
    depth ≤ x ∧ x < depth + Node.nestingList ns
  | [], h => by cases h
  | n :: ns, h => by
    rw [Node.nestingList]
    rcases List.mem_append.mp h with h | h
    · have hx := Node.mem_depths n h
      omega
    · have hx := Node.mem_depthsList ns h
      omega

end

theorem find?_keywordDepths_of_fits {depth : Nat} {ns : List Node} (h : Fits room depth ns)
    (ts : List Token) :
    (keywordDepths depth ns ts).find? (fun x => x.2 = room.toNat) = none := by
  refine List.find?_eq_none.mpr fun x hx => ?_
  have hlt := Node.mem_depthsList ns (List.of_mem_zip hx).2
  unfold Fits at h
  simp only [decide_eq_true_eq]
  omega

theorem keywordDepths_cons {n : Node} {us : List Token} (h : Spells o us [n]) (depth : Nat)
    (ns : List Node) (vs : List Token) :
    keywordDepths depth (n :: ns) (us ++ vs) =
      keywordDepths depth [n] us ++ keywordDepths depth ns vs := by
  have hlen := h.length_openers depth
  unfold keywordDepths
  rw [openers_append, Node.depthsList, ← List.zip_append hlen, Node.depthsList, Node.depthsList,
    List.append_nil]

/-- The keywords of a construct: its own, and those of its nodes one level further in. -/
theorem keywordDepths_construct {f : Token} {hs ts : List Token} {n : Node} {inner : List Node}
    (hf : f.kind.opens = true) (hhs : openers hs = []) (hts : Spells o ts inner) {depth : Nat}
    (hn : n.depths depth = depth :: Node.depthsList (depth + 1) inner) (ns : List Node)
    (vs : List Token) : ∃ rest, keywordDepths depth (n :: ns) (f :: hs ++ ts ++ vs) =
      (f, depth) :: keywordDepths (depth + 1) inner ts ++ rest := by
  have hlen := hts.length_openers (depth + 1)
  refine ⟨(openers vs).zip (Node.depthsList depth ns), ?_⟩
  unfold keywordDepths
  rw [List.cons_append, List.cons_append, openers_cons hf, openers_append,
    openers_append, hhs, Node.depthsList, hn, List.nil_append, List.cons_append, List.zip_cons_cons,
    List.zip_append hlen, List.cons_append]

/-! ### Passes that run out of room -/

/-- A pass over `ts`, which spells `ns`, stops at `t` for want of room, which is the first keyword
inside of as many constructs as there is room for. -/
structure Refused (o : Options) (room : Int) (s : ParseState) (ts : List Token) (ns : List Node)
    (t : Token) : Prop where
  stops : ∃ us vs s', ts = us ++ t :: vs ∧ Runs o room s us s' ∧ s'.done = s.done ∧
    s'.step o room t = .error (.unexpected .shallowerNesting)
  first : (keywordDepths s.opened.length ns ts).find? (fun x => x.2 = room.toNat) =
    some (t, room.toNat)

/-- A place where some nodes may stand, if only there is room for them.  Outside of every construct
there is but one node. -/
structure ParseState.Receives (room : Int) (s : ParseState) (ns : List Node) : Prop where
  header : s.header = none
  values : s.returning = true → ∀ n ∈ ns, n.isSemicolon = false
  single : s.opened = [] → ns.length ≤ 1
  depth : s.opened.length ≤ room.toNat

namespace ParseState.Receives

variable {s : ParseState} {n : Node} {ns : List Node}

theorem tail (h : s.Receives room (n :: ns)) : (s.add n).Receives room ns where
  header := by rw [header_add, h.header]
  values hr m hm := by
    rw [returning_add] at hr
    exact h.values hr m (List.mem_cons_of_mem _ hm)
  single hs := by
    have hlen := s.length_opened_add n
    rw [hs] at hlen
    have hsingle := h.single (List.eq_nil_of_length_eq_zero hlen.symm)
    rw [List.length_cons] at hsingle
    omega
  depth := by
    rw [length_opened_add]
    exact h.depth

theorem admits (h : s.Receives room (n :: ns)) (hfit : Fits room s.opened.length [n]) :
    s.Admits room [n] where
  header := h.header
  values hr m hm := by
    rw [List.mem_singleton.mp hm]
    exact h.values hr n List.mem_cons_self
  fits := hfit

end ParseState.Receives

/-- The first node fits, so that the pass stops behind it. -/
theorem Refused.exists_behind {s : ParseState} {us vs : List Token} {n : Node} {ns : List Node}
    (hs : s.Receives room (n :: ns)) (hsp : Spells o us [n]) (hn : Fits room s.opened.length [n])
    (hfit : ¬ Fits room s.opened.length (n :: ns))
    (hrest : ∀ s : ParseState, s.Receives room ns → ¬ Fits room s.opened.length ns →
      ∃ t, Refused o room s vs ns t) : ∃ t, Refused o room s (us ++ vs) (n :: ns) t := by
  have hns : ¬ Fits room s.opened.length ns := fun hns => hfit (fits_cons.mpr ⟨hn, hns⟩)
  obtain ⟨t, ⟨us', vs', s', rfl, hrun, hdone, hstep⟩, hfirst⟩ :=
    hrest (s.add n) hs.tail (by rwa [s.length_opened_add])
  have hrun' : Runs o room s us (s.add n) := hsp.runs (hs.admits hn)
  have hdone' : (s.add n).done = s.done := by
    rcases ParseState.add_done hs.header n with hd | hd
    · exact hd
    -- one node outside of every construct would be the last one
    · have hopen : s.opened = [] := by
        have hlen := s.length_opened_add n
        rw [hd] at hlen
        exact List.eq_nil_of_length_eq_zero hlen.symm
      cases ns with
      | nil => exact absurd (Fits.nil _) hns
      | cons m ms =>
        have hsingle := hs.single hopen
        rw [List.length_cons, List.length_cons] at hsingle
        omega
  refine ⟨t, ⟨us ++ us', vs', s', by simp, hrun'.append hrun, hdone.trans hdone', hstep⟩, ?_⟩
  rw [s.length_opened_add] at hfirst
  rw [keywordDepths_cons hsp, List.find?_append, find?_keywordDepths_of_fits hn, hfirst]
  rfl

/-- There is no room for the first node itself. -/
theorem Refused.here {s : ParseState} {f : Token} {vs : List Token} {n : Node} {ns : List Node}
    {ds : List Nat} (hs : s.Receives room (n :: ns)) (hf : f.kind.opens = true)
    (hn : n.depths s.opened.length = s.opened.length :: ds) (hroom : room ≤ s.opened.length) :
    Refused o room s (f :: vs) (n :: ns) f := by
  have hdepth : s.opened.length = room.toNat := by
    have hle := hs.depth
    omega
  have hstep : s.step o room f = .error (.unexpected .shallowerNesting) := by
    have hkind : f.kind = .keywordReturn ∨ f.kind = .keywordFunction := by
      cases hk : f.kind <;> simp [hk, Kind.opens] at hf ⊢
    rcases hkind with hk | hk
    · rw [ParseState.step_eq_nodeStep hs.header (by simp [hk]) (by simp [hk])]
      unfold ParseState.nodeStep
      rw [hk]
      exact if_pos hroom
    · rw [ParseState.step_eq_nodeStep hs.header (by simp [hk]) (by simp [hk])]
      unfold ParseState.nodeStep
      rw [hk]
      exact if_pos hroom
  refine ⟨⟨[], vs, s, rfl, Runs.nil s, rfl, hstep⟩, ?_⟩
  unfold keywordDepths
  rw [openers_cons hf, Node.depthsList, hn, List.cons_append, List.zip_cons_cons,
    List.find?_cons_of_pos (by simpa using hdepth), hdepth]

/-- There is room for the first node itself, but not for its nodes. -/
theorem Refused.inside {done : List Node} {fs : List Frame} {frame : Frame} {f t : Token}
    {hs ts : List Token} {n : Node} {inner : List Node} (vs : List Token) (ns : List Node)
    (hf : f.kind.opens = true) (hhs : openers hs = []) (hroom : (fs.length : Int) < room)
    (hrun : Runs o room ⟨done, fs, none⟩ (f :: hs) ⟨done, frame :: fs, none⟩)
    (hts : Spells o ts inner)
    (hn : n.depths fs.length = fs.length :: Node.depthsList (fs.length + 1) inner)
    (h : Refused o room ⟨done, frame :: fs, none⟩ ts inner t) :
    Refused o room ⟨done, fs, none⟩ (f :: hs ++ ts ++ vs) (n :: ns) t := by
  obtain ⟨⟨us, vs', s', rfl, hrun', hdone, hstep⟩, hfirst⟩ := h
  refine ⟨⟨f :: hs ++ us, vs' ++ vs, s', by simp, hrun.append hrun', hdone, hstep⟩, ?_⟩
  obtain ⟨rest, hrest⟩ := keywordDepths_construct hf hhs hts hn ns vs
  have hne : fs.length ≠ room.toNat := by omega
  simp only [List.length_cons] at hfirst
  rw [hrest, List.cons_append, List.find?_cons_of_neg (by simpa using hne), List.find?_append,
    hfirst]
  rfl

/-- A construct in front of other nodes.  The pass stops at its keyword, among its nodes, or behind
it. -/
theorem Refused.exists_construct {done : List Node} {fs : List Frame} {frame : Frame} {f e : Token}
    {hs ts us : List Token} {n : Node} {inner ns : List Node}
    (hplace : ParseState.Receives room ⟨done, fs, none⟩ (n :: ns)) (hf : f.kind.opens = true)
    (hhs : openers hs = []) (hsp : Spells o (f :: hs ++ ts ++ [e]) [n]) (hts : Spells o ts inner)
    (hnest : n.nesting = 1 + Node.nestingList inner)
    (hn : n.depths fs.length = fs.length :: Node.depthsList (fs.length + 1) inner)
    (hrun : (fs.length : Int) < room →
      Runs o room ⟨done, fs, none⟩ (f :: hs) ⟨done, frame :: fs, none⟩)
    (hvalues : frame.close = .semicolon → ∀ v ∈ inner, v.isSemicolon = false)
    (hfit : ¬ Fits room fs.length (n :: ns))
    (hinner : ∀ s : ParseState, s.Receives room inner → ¬ Fits room s.opened.length inner →
      ∃ t, Refused o room s ts inner t)
    (hrest : ∀ s : ParseState, s.Receives room ns → ¬ Fits room s.opened.length ns →
      ∃ t, Refused o room s us ns t) :
    ∃ t, Refused o room ⟨done, fs, none⟩ (f :: hs ++ ts ++ e :: us) (n :: ns) t := by
  by_cases hfirst : Fits room fs.length [n]
  · have hbehind := Refused.exists_behind hplace hsp hfirst hfit hrest
    simpa using hbehind
  by_cases hroom : room ≤ fs.length
  · exact ⟨f, Refused.here hplace hf hn hroom⟩
  have hlt : (fs.length : Int) < room := by omega
  have hinside : ParseState.Receives room ⟨done, frame :: fs, none⟩ inner := by
    refine ⟨rfl, fun hr => hvalues ?_, fun hopen => absurd hopen (List.cons_ne_nil _ _), ?_⟩
    · cases frame with
      | returning _ => rfl
      | body _ _ _ _ => cases hr
    · show fs.length + 1 ≤ room.toNat
      omega
  obtain ⟨t, ht⟩ := hinner _ hinside fun h => hfirst ((fits_construct hnest).mpr ⟨hlt, h⟩)
  exact ⟨t, Refused.inside (e :: us) ns hf hhs hlt (hrun hlt) hts hn ht⟩

theorem Spells.refused {ts : List Token} {ns : List Node} (h : Spells o ts ns) {s : ParseState}
    (hs : s.Receives room ns) (hfit : ¬ Fits room s.opened.length ns) :
    ∃ t, Refused o room s ts ns t := by
  induction h generalizing s with
  | nil => exact absurd (Fits.nil _) hfit
  | @leaf t n us ns hn _ ih =>
    -- a leaf fits anywhere
    exact Refused.exists_behind hs (.leaf hn .nil) (fits_leaf hn) hfit fun _ hs' => ih hs'
  | @returns r e ts us values ns hr hv hne hsemi he _ ihv ihn =>
    obtain ⟨done, fs, header⟩ := s
    cases hs.header
    have hr' : r.kind.opens = true := by rw [hr]; rfl
    have hsp : Spells o ([r] ++ ts ++ [e]) [.returns values] := .returns hr hv hne hsemi he .nil
    have hrun : (fs.length : Int) < room →
        Runs o room ⟨done, fs, none⟩ [r] ⟨done, .returning [] :: fs, none⟩ :=
      fun hlt => Runs.single (ParseState.step_return rfl hr hlt)
    exact Refused.exists_construct hs hr' rfl hsp hv rfl rfl hrun (fun _ => hsemi) hfit
      (fun _ hs' => ihv hs') fun _ hs' => ihn hs'
  | @function e hts ts us name params type body ns hhead hb he _ ihb ihn =>
    obtain ⟨done, fs, header⟩ := s
    cases hs.header
    have hsp : Spells o (hts ++ ts ++ [e]) [.function name params type body] :=
      .function hhead hb he .nil
    obtain ⟨f, hts', rfl, hf, hhts'⟩ := hhead.exists_keyword
    have hf' : f.kind.opens = true := by rw [hf]; rfl
    exact Refused.exists_construct hs hf' hhts' hsp hb rfl rfl (runs_head done fs hhead)
      (fun hclose => by cases hclose) hfit (fun _ hs' => ihb hs') fun _ hs' => ihn hs'

/-- A pass over a node that does not fit stops at its first keyword inside of as many constructs as
there is room for. -/
theorem walkFrom_refused {us : List Token} {n : Node} (h : Spells o us [n])
    (hfit : ¬ Fits room 0 [n]) (p : Nat) (vs : List Token) :
    ∃ t i s, n.keywordInside us room.toNat = some t ∧ us[i]? = some t ∧
      walkFrom o room .start p (us ++ vs) =
        .error ⟨.unexpected .shallowerNesting (some t), p + i, s⟩ := by
  have hs : ParseState.start.Receives room [n] :=
    ⟨rfl, nofun, fun _ => Nat.le_refl 1, Nat.zero_le _⟩
  obtain ⟨t, ⟨us, ws, s, rfl, hrun, hdone, hstep⟩, hfirst⟩ := h.refused hs hfit
  refine ⟨t, us.length, s, ?_, ?_, ?_⟩
  · unfold Node.keywordInside
    rw [show ParseState.start.opened.length = 0 from rfl] at hfirst
    rw [hfirst]
    rfl
  · rw [List.getElem?_append_right (Nat.le_refl _), Nat.sub_self]
    rfl
  · rw [List.append_assoc, walkFrom_append _ (hrun p) hdone, List.cons_append, walkFrom, hstep]
    rfl

/-! ### Limits -/

namespace Cursor

variable {c c' : Cursor}

/-- A walk under a limit that its node exceeds. -/
theorem walk_of_not_fits {us vs : List Token} {n : Node} (hrest : c.rest = us ++ vs)
    (h : Spells o us [n]) (hfit : ¬ Fits (c.limit - c.depth) 0 [n]) :
    ∃ t i, n.keywordInside us (c.limit - c.depth).toNat = some t ∧ us[i]? = some t ∧
      c.walk o = (.error (.unexpected .shallowerNesting (some t)),
        { c with position := c.position + i }) := by
  obtain ⟨t, i, s, hfirst, hi, hwalk⟩ := walkFrom_refused h hfit c.position vs
  rw [← hrest] at hwalk
  exact ⟨t, i, hfirst, hi, walk_eq_error_iff.mpr ⟨_, hwalk, rfl, rfl⟩⟩

/-- **The limit on nesting is exact, and nothing else depends on it.**  A node that is read under a
limit is read in the same way under a lower one, unless it exceeds that one; then the walk fails at
the first keyword of the node that is inside of as many of its constructs as there is room for.  A
walk that fails under a limit fails under a lower one as well, in the same way and at the same
place, or for want of room, and not any later. -/
theorem walk_limit (c : Cursor) (o : Options) (m M : Int) (hle : m ≤ M) :
    (∀ n c', walk { c with limit := M } o = (.ok n, c') →
      ((n.nesting = 0 ∨ c.depth + n.nesting ≤ m) →
        walk { c with limit := m } o = (.ok n, { c' with limit := m })) ∧
      (¬ (n.nesting = 0 ∨ c.depth + n.nesting ≤ m) →
        ∃ t i, n.keywordInside (c.tokens.extract c.position c'.position) (m - c.depth).toNat =
            some t ∧ c.position ≤ i ∧ i < c'.position ∧ c.tokens[i]? = some t ∧
          walk { c with limit := m } o = (.error (.unexpected .shallowerNesting (some t)),
            { c with limit := m, position := i }))) ∧
    (∀ e c', walk { c with limit := M } o = (.error e, c') →
      walk { c with limit := m } o = (.error e, { c' with limit := m }) ∨
      ∃ t i, i ≤ c'.position ∧
        walk { c with limit := m } o = (.error (.unexpected .shallowerNesting (some t)),
          { c with limit := m, position := i })) := by
  constructor
  -- the tokens of the node spell it under every limit, and only the room differs
  · intro n c' h
    obtain ⟨us, vs, hrest, rfl, hsp, -⟩ := walk_eq_ok_iff.mp h
    have hfit : Fits (m - c.depth) 0 [n] ↔ n.nesting = 0 ∨ c.depth + n.nesting ≤ m := by
      simp only [Fits, Node.nestingList]
      omega
    rw [← hfit]
    refine ⟨fun hn => walk_eq_ok_iff.mpr ⟨us, vs, hrest, rfl, hsp, hn⟩, fun hn => ?_⟩
    obtain ⟨t, i, hfirst, hi, hwalk⟩ := walk_of_not_fits (c := { c with limit := m }) hrest hsp hn
    have hdrop : c.tokens.drop c.position = us ++ vs := hrest
    have hread : c.tokens.extract c.position (c.position + us.length) = us := by
      rw [List.extract_eq_take_drop, hdrop, Nat.add_sub_cancel_left, List.take_left]
    have hlt : i < us.length := (List.getElem?_eq_some_iff.mp hi).1
    refine ⟨t, c.position + i, ?_, Nat.le_add_right _ _, Nat.add_lt_add_left hlt _, ?_, hwalk⟩
    · rw [hread]
      exact hfirst
    · rw [← List.getElem?_drop, hdrop, List.getElem?_append_left hlt, hi]
  · intro e c' h
    obtain ⟨stop, hstop, rfl, rfl⟩ := walk_eq_error_iff.mp h
    have hroom : m - c.depth ≤ M - c.depth := by omega
    rcases walkFrom_of_room_le hroom hstop with hsame | ⟨t, q, s, hq, hless⟩
    · exact .inl (walk_eq_error_iff.mpr ⟨stop, hsame, rfl, rfl⟩)
    · exact .inr ⟨t, q, hq, walk_eq_error_iff.mpr ⟨_, hless, rfl, rfl⟩⟩

/-- Of two `return`s the inner one is too much, where one construct is entered already and two are
allowed. -/
theorem walk_limit_nested :
    (walk ⟨[⟨.keywordReturn, "return".toList, 0⟩, ⟨.number, ['1'], 7⟩,
        ⟨.keywordReturn, "return".toList, 9⟩, ⟨.number, ['2'], 16⟩, ⟨.semicolon, [';'], 17⟩,
        ⟨.semicolon, [';'], 18⟩], 0, 1, 2⟩ ⟨true, true⟩).1 =
      .error (.unexpected .shallowerNesting (some ⟨.keywordReturn, "return".toList, 9⟩)) := by
  have hwalk : walk ⟨[⟨.keywordReturn, "return".toList, 0⟩, ⟨.number, ['1'], 7⟩,
      ⟨.keywordReturn, "return".toList, 9⟩, ⟨.number, ['2'], 16⟩, ⟨.semicolon, [';'], 17⟩,
      ⟨.semicolon, [';'], 18⟩], 0, 1, 3⟩ ⟨true, true⟩ =
      (.ok (.returns [.number ['1'], .returns [.number ['2']]]),
        ⟨[⟨.keywordReturn, "return".toList, 0⟩, ⟨.number, ['1'], 7⟩,
          ⟨.keywordReturn, "return".toList, 9⟩, ⟨.number, ['2'], 16⟩, ⟨.semicolon, [';'], 17⟩,
          ⟨.semicolon, [';'], 18⟩], 6, 1, 3⟩) := by
    rw [walk_eq]
    rfl
  obtain ⟨t, i, hfirst, -, -, -, hlow⟩ :=
    ((walk_limit ⟨_, 0, 1, 0⟩ _ 2 3 (by decide)).1 _ _ hwalk).2 (by decide)
  cases hfirst
  exact congrArg Prod.fst hlow

example (t : Token) : Expectation.shallowerNesting.diagnostic (some t) =
    .parse (.str "maximum nesting depth exceeded".toList) (.str t.describe) := rfl

end Cursor

end TypeStrip
