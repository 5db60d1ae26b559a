import TypeStrip.Proofs.Failures

/-!
# Sources one behind the other

A source that compiles leaves nothing open.  So with a blank behind it, any other source that
follows is compiled as if it stood alone, a few characters further on.

* `Token.shift`, `ScanFault.shift`, `ParseFault.shift`   the same at a later offset;
* `scanFrom_shift`      a text that begins later is scanned into later tokens;
* `scan_append`         two sources with a blank between them are scanned one by one;
* `ParseState.behind`   a state with other nodes in front of its own;
* `feed_behind`         a pass does not look at these nodes, nor at offsets;
* `parse_append`        a parse that could end goes on as if it began;
* `Program.untyped_append`   programs are written one by one;
* `compile_append`      and so they are compiled.
-/

namespace TypeStrip

variable {o : Options} {room : Int} {boundary : Bool}

/-! ### Later offsets -/

def Token.shift (n : Nat) (t : Token) : Token := { t with position := t.position + n }

def ScanFault.shift (n : Nat) (f : ScanFault) : ScanFault := { f with position := f.position + n }

/-- The end of the input is the end of the input wherever it is. -/
def ParseFault.shift (n : Nat) : ParseFault → ParseFault
  | .unexpected e found => .unexpected e (found.map (Token.shift n))
  | .flawed f => .flawed f

/-! ### Scanning -/

theorem scanFrom_shift (n pos : Nat) (s : Text) : scanFrom boundary (pos + n) s =
    match scanFrom boundary pos s with
    | .error f => .error (f.shift n)
    | .ok ts => .ok (ts.map (Token.shift n)) := by
  -- on the length of the text, of which every item takes at least one character
  induction hn : s.length using Nat.strong_induction_on generalizing s pos with
  | _ m ih =>
  cases s with
  | nil => rw [scanFrom_nil, scanFrom_nil]; rfl
  | cons c s =>
    cases hread : Item.read boundary c s with
    | error e => rw [scanFrom_fault _ hread, scanFrom_fault _ hread]; rfl
    | ok i =>
      have hlt : i.rest.length < m := hn ▸ Item.length_rest_read hread
      cases i with
      | blank r =>
        have hr := ih r.length hlt (pos + 1) r rfl
        rw [scanFrom_blank _ hread, scanFrom_blank _ hread, ← hr]
        congr 1
        omega
      | lexeme k w r =>
        have hr := ih r.length hlt (pos + w.length) r rfl
        rw [show pos + w.length + n = pos + n + w.length by omega] at hr
        rw [scanFrom_lexeme _ hread, scanFrom_lexeme _ hread, hr]
        cases scanFrom boundary (pos + w.length) r <;> rfl

theorem scan_append {s₁ w : Text} {ts₁ : List Token} (h : scan o s₁ = .ok ts₁) (hne : w ≠ [])
    (hw : Blanks w) (s₂ : Text) : scan o (s₁ ++ w ++ s₂) =
      match scan o s₂ with
      | .error f => .error (f.shift (s₁.length + w.length))
      | .ok ts₂ => .ok (ts₁ ++ ts₂.map (Token.shift (s₁.length + w.length))) := by
  have hhalts : Halts (w ++ s₂) := by
    apply halts_of_isBlank
    obtain ⟨d, v, rfl⟩ := List.exists_cons_of_ne_nil hne
    rintro c ⟨⟩
    exact hw d List.mem_cons_self
  unfold scan
  rw [List.append_assoc, scanFrom_append h hhalts, scanFrom_blanks hw, Nat.add_assoc,
    scanFrom_shift]
  cases scanFrom o.keywordBoundary 0 s₂ <;> rfl

/-! ### Parsing -/

namespace ParseState

variable {base : List Node}

/-- The state with other finished nodes in front of its own. -/
def behind (base : List Node) (s : ParseState) : ParseState := { s with done := s.done ++ base }

theorem add_behind (s : ParseState) (n : Node) :
    (s.behind base).add n = (s.add n).behind base := by
  obtain ⟨done, opened, header⟩ := s
  cases opened <;> rfl

theorem nodeStep_behind (s : ParseState) (t : Token) :
    nodeStep room (s.behind base) t = (nodeStep room s t).map (behind base) := by
  unfold nodeStep
  cases t.kind with
  | operator =>
    dsimp only
    cases Operator.ofText? t.text with
    | none => rfl
    | some op => exact congrArg Except.ok (s.add_behind _)
  | number | string | name | colon | comma | semicolon =>
    exact congrArg Except.ok (s.add_behind _)
  | keywordReturn | keywordFunction =>
    show (if room ≤ s.opened.length then _ else _) = _
    split <;> rfl
  | parenOpen | parenClose | braceOpen | braceClose => rfl

theorem bodyStep_behind (s : ParseState) (t : Token) :
    bodyStep room (s.behind base) t = (bodyStep room s t).map (behind base) := by
  obtain ⟨done, opened, header⟩ := s
  cases opened with
  | nil => exact nodeStep_behind _ t
  | cons f fs =>
    cases f with
    | returning values =>
      unfold bodyStep
      dsimp only [behind]
      split
      · split
        · rfl
        · exact congrArg Except.ok (add_behind ⟨done, fs, header⟩ _)
      · exact nodeStep_behind ⟨done, .returning values :: fs, header⟩ t
    | body name params type nodes =>
      unfold bodyStep
      dsimp only [behind]
      split
      · cases Name.ofText? name with
        | none => rfl
        | some name => exact congrArg Except.ok (add_behind ⟨done, fs, header⟩ _)
      · exact nodeStep_behind ⟨done, .body name params type nodes :: fs, header⟩ t

theorem step_behind (s : ParseState) (t : Token) :
    (s.behind base).step o room t = (s.step o room t).map (behind base) := by
  obtain ⟨done, opened, header⟩ := s
  cases header with
  | none => exact bodyStep_behind _ t
  | some h =>
    unfold step
    dsimp only [behind]
    cases h.step o t with
    | error r => rfl
    | ok next => cases next <;> rfl

/-- The place of a token does not matter for what it does. -/
theorem step_shift (s : ParseState) (n : Nat) (t : Token) :
    s.step o room (t.shift n) = s.step o room t := rfl

end ParseState

/-- The same stop, `k` tokens and `n` characters further on, with other nodes in front. -/
def ParseStop.behind (n k : Nat) (base : List Node) (e : ParseStop) : ParseStop :=
  ⟨e.fault.shift n, e.position + k, e.state.behind base⟩

theorem ParseStop.ofRefusal_behind (r : Refusal) (found : Option Token) (n k p : Nat)
    (base : List Node) (s : ParseState) :
    ParseStop.ofRefusal r (found.map (Token.shift n)) (p + k) (s.behind base) =
      (ParseStop.ofRefusal r found p s).behind n k base := by
  have hposition : p + k + r.length = p + r.length + k := by omega
  unfold ParseStop.ofRefusal ParseStop.behind
  rw [hposition]
  cases r <;> rfl

theorem feed_behind (n k : Nat) (base : List Node) (s : ParseState) (p : Nat) (ts : List Token) :
    feed o room (s.behind base) (p + k) (ts.map (Token.shift n)) =
      match feed o room s p ts with
      | .error e => .error (e.behind n k base)
      | .ok s' => .ok (s'.behind base) := by
  induction ts generalizing s p with
  | nil => rfl
  | cons t ts ih =>
    rw [List.map_cons, feed, feed, ParseState.step_shift, ParseState.step_behind]
    cases s.step o room t with
    | error r => exact congrArg Except.error (ParseStop.ofRefusal_behind r (some t) n k p base s)
    | ok s' =>
      rw [show p + k + 1 = p + 1 + k by omega]
      exact ih s' (p + 1)

theorem feed_of_parse {ts : List Token} {p : Program} (h : parse o ts = .ok p) :
    feed o maxDepth .start 0 ts = .ok (ParseState.start.behind p.statements.reverse) := by
  unfold parse parseFrom at h
  cases hfeed : feed o maxDepth .start 0 ts with
  | error e => rw [hfeed] at h; cases h
  | ok s =>
    simp only [hfeed] at h
    cases hfinish : s.finish with
    | error r => rw [hfinish] at h; cases h
    | ok u =>
      rw [hfinish] at h
      cases h
      obtain ⟨done, opened, header⟩ := s
      obtain ⟨rfl, rfl⟩ := finish_eq_ok hfinish
      show _ = Except.ok (ParseState.mk done.reverse.reverse [] none)
      rw [List.reverse_reverse]

theorem parse_append {ts : List Token} {p : Program} (h : parse o ts = .ok p) (n : Nat)
    (us : List Token) : parse o (ts ++ us.map (Token.shift n)) =
      match parse o us with
      | .error e => .error (e.behind n ts.length p.statements.reverse)
      | .ok q => .ok ⟨p.statements ++ q.statements⟩ := by
  have hlength : 0 + (ts ++ us.map (Token.shift n)).length = 0 + us.length + ts.length := by
    rw [List.length_append, List.length_map]
    omega
  unfold parse parseFrom
  -- the first pass ends where a parse begins, but for the nodes that are done
  rw [feed_append, feed_of_parse h]
  dsimp only
  rw [feed_behind, hlength]
  cases feed o maxDepth .start 0 us with
  | error e => rfl
  | ok s =>
    have hfinish : (s.behind p.statements.reverse).finish = s.finish := rfl
    dsimp only
    rw [hfinish]
    cases s.finish with
    | error r => exact congrArg Except.error (ParseStop.ofRefusal_behind r none n _ _ _ s)
    | ok u =>
      show Except.ok (Program.mk (s.done ++ p.statements.reverse).reverse) = _
      rw [List.reverse_append, List.reverse_reverse]

/-! ### Writing -/

theorem Node.untypedList_append (ns ms : List Node) :
    Node.untypedList (ns ++ ms) = Node.untypedList ns ++ Node.untypedList ms := by
  induction ns with
  | nil => rfl
  | cons n ns ih => rw [List.cons_append, Node.untypedList, ih, Node.untypedList, List.cons_append]

theorem programText_append {l l' : List Text} (h : l ≠ []) (h' : l' ≠ []) :
    programText (l ++ l') = programText l ++ '\n' :: programText l' := by
  unfold programText
  induction l with
  | nil => exact absurd rfl h
  | cons w l ih =>
    cases l with
    | nil =>
      obtain ⟨v, l', rfl⟩ := List.exists_cons_of_ne_nil h'
      simp [List.intercalate_cons_cons]
    | cons v l =>
      rw [List.cons_append, List.cons_append, List.intercalate_cons_cons, ← List.cons_append,
        ih (List.cons_ne_nil v l), List.intercalate_cons_cons]
      simp

/-- Programs are written one behind the other, each on lines of its own; an empty one has none. -/
theorem Program.untyped_append (p q : Program) :
    (Program.mk (p.statements ++ q.statements)).untyped =
      if p.statements = [] then q.untyped else if q.statements = [] then p.untyped
      else p.untyped ++ '\n' :: q.untyped := by
  have hne : ∀ ns : List Node, ns ≠ [] → Node.untypedList ns ≠ [] := by
    intro ns hns
    obtain ⟨n, ns, rfl⟩ := List.exists_cons_of_ne_nil hns
    exact List.cons_ne_nil _ _
  by_cases hp : p.statements = []
  · rw [if_pos hp, hp]
    rfl
  by_cases hq : q.statements = []
  · rw [if_neg hp, if_pos hq, hq, List.append_nil]
  · rw [if_neg hp, if_neg hq]
    show programText (Node.untypedList (p.statements ++ q.statements)) = _
    rw [Node.untypedList_append, programText_append (hne _ hp) (hne _ hq)]
    rfl

/-! ### Compiling -/

/-- The same failure `n` characters further on: the scanner stops at the same character for the same
reason, or the parser expects the same and finds the same token, or the end of the input again. -/
inductive CompileFault.Shifted (n : Nat) : CompileFault → CompileFault → Prop where
  | scan (f : ScanFault) : Shifted n (.scan f) (.scan ⟨f.fault, f.position + n⟩)
  | parse {stop stop' : ParseStop} {e : Expectation} {found : Option Token}
      (h : stop.fault = .unexpected e found)
      (h' : stop'.fault = .unexpected e (found.map (Token.shift n))) :
      Shifted n (.parse stop) (.parse stop')

/-- Both failures are of the same kind. -/
theorem CompileFault.Shifted.kind_eq {n : Nat} {e e' : CompileFault} (h : e.Shifted n e') :
    e'.failure.kind = e.failure.kind := by
  cases h with
  | scan f => rfl
  | @parse stop stop' e found h h' =>
    have hverdict : (CompileFault.parse stop).verdict = .diagnostic (e.diagnostic found) := by
      rw [CompileFault.verdict, h, ParseFault.verdict]
    have hverdict' : (CompileFault.parse stop').verdict =
        .diagnostic (e.diagnostic (found.map (Token.shift n))) := by
      rw [CompileFault.verdict, h', ParseFault.verdict]
    rw [CompileFault.failure_eq hverdict, CompileFault.failure_eq hverdict']
    rfl

section
variable {s₁ w s₂ : Text} {c₁ : Compilation}

theorem compile_append_ok {c₂ : Compilation} (h₁ : compile o s₁ = .ok c₁) (hne : w ≠ [])
    (hw : Blanks w) (h₂ : compile o s₂ = .ok c₂) : compile o (s₁ ++ w ++ s₂) =
      .ok ⟨c₁.tokens ++ c₂.tokens.map (Token.shift (s₁.length + w.length)),
        ⟨c₁.tree.statements ++ c₂.tree.statements⟩,
        if c₁.tree.statements = [] then c₂.output else if c₂.tree.statements = [] then c₁.output
        else c₁.output ++ '\n' :: c₂.output⟩ := by
  obtain ⟨hscan₁, hparse₁, hout₁⟩ := compile_eq_ok_iff.mp h₁
  obtain ⟨hscan₂, hparse₂, hout₂⟩ := compile_eq_ok_iff.mp h₂
  refine compile_eq_ok_iff.mpr ⟨?_, ?_, ?_⟩
  · rw [scan_append hscan₁ hne hw, hscan₂]
  · rw [parse_append hparse₁, hparse₂]
  · rw [hout₁, hout₂, Program.untyped_append]

theorem compile_append_error {e₂ : CompileFault} (h₁ : compile o s₁ = .ok c₁) (hne : w ≠ [])
    (hw : Blanks w) (h₂ : compile o s₂ = .error e₂) :
    ∃ e, compile o (s₁ ++ w ++ s₂) = .error e ∧ e₂.Shifted (s₁.length + w.length) e := by
  obtain ⟨hscan₁, hparse₁, -⟩ := compile_eq_ok_iff.mp h₁
  rcases compile_eq_error h₂ with ⟨f, hscan, rfl⟩ | ⟨ts, stop, hscan, hparse, rfl⟩
  · refine ⟨.scan (f.shift _), ?_, .scan f⟩
    rw [compile_eq, scan_append hscan₁ hne hw, hscan]
  · -- scanned tokens build every node, so the parser can only have met a token that does not fit
    obtain ⟨x, -, found, hfault⟩ := parse_unexpected (proper_of_scan hscan) hparse
    have herror := parse_append hparse₁ (s₁.length + w.length) ts
    rw [hparse] at herror
    refine ⟨.parse (stop.behind (s₁.length + w.length) c₁.tokens.length
      c₁.tree.statements.reverse), ?_, .parse hfault (congrArg (ParseFault.shift _) hfault)⟩
    rw [compile_eq, scan_append hscan₁ hne hw, hscan]
    dsimp only
    rw [herror]

end

/-- **Sources with a blank between them are compiled one by one.**  Behind a source that compiles,
any other source compiles exactly if it does so alone; it adds its tokens, statements, functions and
lines, or fails in the same way, further on by the characters in front of it. -/
theorem compile_append (o : Options) (s₁ w s₂ : Text) (c₁ : Compilation)
    (h₁ : compile o s₁ = .ok c₁) (hne : w ≠ []) (hw : Blanks w) :
    ((∃ c, compile o (s₁ ++ w ++ s₂) = .ok c) ↔ ∃ c₂, compile o s₂ = .ok c₂) ∧
    (∀ c₂, compile o s₂ = .ok c₂ → ∃ c, compile o (s₁ ++ w ++ s₂) = .ok c ∧
      c.tokens = c₁.tokens ++ c₂.tokens.map (Token.shift (s₁.length + w.length)) ∧
      c.tree.statements = c₁.tree.statements ++ c₂.tree.statements ∧
      c.tree.functionNames = c₁.tree.functionNames ++ c₂.tree.functionNames ∧
      c.output = if c₁.tree.statements = [] then c₂.output
        else if c₂.tree.statements = [] then c₁.output else c₁.output ++ '\n' :: c₂.output) ∧
    ∀ e₂, compile o s₂ = .error e₂ → ∃ e, compile o (s₁ ++ w ++ s₂) = .error e ∧
      e₂.Shifted (s₁.length + w.length) e ∧ e.failure.kind = e₂.failure.kind := by
  have hok : ∀ c₂, compile o s₂ = .ok c₂ → _ := fun c₂ h₂ => compile_append_ok h₁ hne hw h₂
  have herror : ∀ e₂, compile o s₂ = .error e₂ → _ := fun e₂ h₂ =>
    compile_append_error h₁ hne hw h₂
  refine ⟨⟨?_, fun ⟨c₂, h₂⟩ => ⟨_, hok c₂ h₂⟩⟩, fun c₂ h₂ => ?_, fun e₂ h₂ => ?_⟩
  · rintro ⟨c, hc⟩
    cases h₂ : compile o s₂ with
    | ok c₂ => exact ⟨c₂, rfl⟩
    | error e₂ =>
      obtain ⟨e, he, -⟩ := herror e₂ h₂
      rw [hc] at he
      cases he
  · exact ⟨_, hok c₂ h₂, rfl, rfl, List.filterMap_append, rfl⟩
  · obtain ⟨e, he, hshifted⟩ := herror e₂ h₂
    exact ⟨e, he, hshifted, hshifted.kind_eq⟩

/-- A function with a return behind it, and with a return that is cut off by a stray character. -/
theorem compile_append_lines :
    let source := "function f(a: s): t \x7b \x7d".toList
    (∃ c, compile {} (source ++ ['\t', '\n'] ++ "return 1;".toList) = .ok c ∧
      c.output = "function f(a) \x7b \x7d\nreturn 1;".toList) ∧
    ∃ e, compile {} (source ++ ['\t', '\n'] ++ "return #".toList) = .error e ∧
      CompileFault.Shifted 25 (.scan ⟨.unknown '#', 7⟩) e := by
  intro source
  have hblanks : Blanks ['\t', '\n'] :=
    List.forall_mem_cons.mpr ⟨by decide, List.forall_mem_singleton.mpr (by decide)⟩
  obtain ⟨c₁, h₁, hout₁, -⟩ : ∃ c, compile {} source = .ok c ∧
      (c.output, c.tree.statements.isEmpty) = ("function f(a) \x7b \x7d".toList, false) ∧ True :=
    exists_run (by decide +kernel) fun _ _ _ => trivial
  obtain ⟨c₂, h₂, hout₂, -⟩ : ∃ c, compile {} "return 1;".toList = .ok c ∧
      (c.output, c.tree.statements.isEmpty) = ("return 1;".toList, false) ∧ True :=
    exists_run (by decide +kernel) fun _ _ _ => trivial
  have h₃ : compile {} "return #".toList = .error (.scan ⟨.unknown '#', 7⟩) := by decide +kernel
  constructor
  · obtain ⟨-, hok, -⟩ := compile_append {} source ['\t', '\n'] "return 1;".toList c₁ h₁
      (by decide) hblanks
    obtain ⟨c, hc, -, -, -, hout⟩ := hok c₂ h₂
    refine ⟨c, hc, ?_⟩
    simp only [Prod.mk.injEq, List.isEmpty_eq_false_iff] at hout₁ hout₂
    rw [hout, if_neg hout₁.2, if_neg hout₂.2, hout₁.1, hout₂.1]
    rfl
  · obtain ⟨-, -, herror⟩ := compile_append {} source ['\t', '\n'] "return #".toList c₁ h₁
      (by decide) hblanks
    obtain ⟨e, he, hshifted, -⟩ := herror _ h₃
    exact ⟨e, he, hshifted⟩

end TypeStrip
