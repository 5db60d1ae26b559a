import TypeStrip.Proofs.Emission
import TypeStrip.Proofs.Parsing.Refusals
import TypeStrip.Session

/-!
# Failures of a compilation

A compilation fails only for a reason that lies in its source: a text that cannot be scanned, or
tokens that the grammar does not expect.

* `Lexeme.Valid.proper`        tokens of a source make nodes;
* `compile_eq_error`           the stages that can fail;
* `compile_diagnostic`         a failure is a report of the scanner or of the grammar;
* `compile_message_ne_nil`     a report says something;
* `CompileFault.failure`       what a session shows of a failure;
* `Session.request`            a compile request without a way to fail internally;
* `compile_failure_closed`     the failures of a compilation, and of a request.
-/

namespace TypeStrip

variable {o : Options}

/-! ### Stages -/

theorem Lexeme.Valid.proper {boundary : Bool} {t : Token} (h : t.lexeme.Valid boundary) :
    t.Proper := by
  obtain ⟨k, w, p⟩ := t
  constructor
  · rintro ⟨⟩
    obtain ⟨c, hc, rfl⟩ : ∃ c, isOperator c = true ∧ w = [c] := h
    simpa [isOperator, or_assoc] using hc
  · rintro ⟨⟩
    exact h.1

theorem proper_of_scan {s : Text} {ts : List Token} (h : scan o s = .ok ts) :
    ∀ t ∈ ts, t.Proper := fun t ht => (valid_of_scan h t ht).proper

/-- Only the scanner and the parser can fail. -/
theorem compile_eq_error {s : Text} {e : CompileFault} (h : compile o s = .error e) :
    (∃ f, scan o s = .error f ∧ e = .scan f) ∨
      ∃ ts stop, scan o s = .ok ts ∧ parse o ts = .error stop ∧ e = .parse stop := by
  rw [compile_eq] at h
  cases hscan : scan o s with
  | error f =>
    rw [hscan] at h
    exact .inl ⟨f, rfl, (Except.error.inj h).symm⟩
  | ok ts =>
    simp only [hscan] at h
    cases hparse : parse o ts with
    | error stop =>
      rw [hparse] at h
      exact .inr ⟨ts, stop, rfl, hparse, (Except.error.inj h).symm⟩
    | ok tree =>
      rw [hparse] at h
      cases h

/-! ### Reports -/

theorem compile_diagnostic {s : Text} {e : CompileFault} (h : compile o s = .error e) :
    (∃ f : ScanFault, e.verdict = .diagnostic f.diagnostic) ∨
      ∃ x ∈ Expectation.grammar, ∃ found, e.verdict = .diagnostic (x.diagnostic found) := by
  rcases compile_eq_error h with ⟨f, -, rfl⟩ | ⟨ts, stop, hscan, hparse, rfl⟩
  · exact .inl ⟨f, rfl⟩
  · obtain ⟨x, hx, found, hfault⟩ := parse_unexpected (proper_of_scan hscan) hparse
    refine .inr ⟨x, hx, found, ?_⟩
    rw [CompileFault.verdict, hfault, ParseFault.verdict]

theorem compile_reports {s : Text} {e : CompileFault} (h : compile o s = .error e) :
    ∃ d, e.verdict = .diagnostic d := by
  rcases compile_diagnostic h with ⟨f, hf⟩ | ⟨x, -, found, hx⟩
  · exact ⟨_, hf⟩
  · exact ⟨_, hx⟩

theorem ScanFault.message_ne_nil (f : ScanFault) : f.message ≠ [] := by
  unfold ScanFault.message
  split
  · rw [List.append_assoc, List.append_assoc]
    exact List.append_ne_nil_of_left_ne_nil (by decide) _
  · exact List.append_ne_nil_of_left_ne_nil (by decide) _

theorem Expectation.diagnostic_message_ne_nil (x : Expectation) (found : Option Token) :
    (x.diagnostic found).message ≠ [] := by
  have hmiddle : ", found ".toList ≠ [] := by decide
  show Json.display _ ++ ", found ".toList ++ Json.display _ ≠ []
  exact List.append_ne_nil_of_left_ne_nil (List.append_ne_nil_of_right_ne_nil _ hmiddle) _

/-- A report always says something. -/
theorem compile_message_ne_nil {s : Text} {e : CompileFault} {d : Diagnostic}
    (h : compile o s = .error e) (hd : e.verdict = .diagnostic d) : d.message ≠ [] := by
  rcases compile_diagnostic h with ⟨f, hf⟩ | ⟨x, -, found, hx⟩
  · rw [hf] at hd
    rw [← Verdict.diagnostic.inj hd]
    exact f.message_ne_nil
  · rw [hx] at hd
    rw [← Verdict.diagnostic.inj hd]
    exact x.diagnostic_message_ne_nil found

/-- Kind and message of the report on a failure. -/
def CompileFault.failure (e : CompileFault) : Failure :=
  match e.verdict with
  | .diagnostic d => ⟨d.kind.toList, d.message⟩
  | .rejection _ | .malformed _ => default

theorem CompileFault.failure_eq {e : CompileFault} {d : Diagnostic}
    (h : e.verdict = .diagnostic d) : e.failure = ⟨d.kind.toList, d.message⟩ := by
  rw [CompileFault.failure, h]

/-! ### Requests -/

/-- The end of a request with a given outcome, whose failures are all reports. -/
def Session.respond (react : React) (a : Nat) (source : Text) (ticks : Nat)
    (outcome : Except CompileFault Compilation) (s : Session) :
    Except ActionFault Bool × Session :=
  match outcome with
  | .ok c =>
    let s := s.update (s.workflowOf a) fun w =>
      { w with result := some c, failure := none,
               history := record w.history ⟨preview source, none, ticks⟩ }
    s.conclude react a .compiled (.compiled c.tokens.length c.tree.functionNames) true
  | .error e => s.fail react a ⟨preview source, some e.failure, ticks⟩ e.failure

/-- A compile request that ends in no other way. -/
def Session.request (react : React) (a : Nat) (source : Text) (ticks : Nat) (s : Session) :
    Except ActionFault Bool × Session :=
  match s.transition react a .compiling with
  | .error fault => (.error fault, s)
  | .ok s =>
    let s := s.update (s.workflowOf a) fun w => { w with source := source, result := none }
    let options := (s.workflow (s.workflowOf a)).options
    { s with log := s.log ++ compileLog options source }.respond react a source ticks
      (compile options source)

theorem Session.compileWith_eq_request (react : React) (a : Nat) (source : Text) (ticks : Nat)
    (s : Session) : s.compileWith react a source ticks none = s.request react a source ticks := by
  unfold compileWith request
  cases s.transition react a .compiling with
  | error fault => rfl
  | ok s' =>
    dsimp only
    generalize hc : compile _ source = outcome
    cases outcome with
    | ok c => rfl
    | error e =>
      obtain ⟨d, hd⟩ := compile_reports hc
      simp only [hd, respond, CompileFault.failure_eq hd]

/-- The texts that are reserved for callers which handle a cursor by themselves. -/
def Expectation.ofCursor : List Text :=
  ["more input expected", "statement expected", "'return' expected",
    "'function' expected"].map String.toList

theorem Expectation.message_not_mem_ofCursor :
    ∀ e ∈ Expectation.grammar, e.message ∉ Expectation.ofCursor := by decide +kernel

/-- **A compilation ends with a result, or with a report of the scanner or of the grammar.**  So a
compile request never ends as a failure of the compiler itself. -/
theorem compile_failure_closed (o : Options) (source : Text) :
    ((∃ c, compile o source = .ok c) ∨
      ∃ e d, compile o source = .error e ∧ e.verdict = .diagnostic d ∧
        (d.kind = "LexError" ∨ d.kind = "ParseError" ∧
          ∃ x ∈ Expectation.grammar, x.message ∉ Expectation.ofCursor ∧
            ∃ found, d = .parse (.str x.message) (.str (describeFound found)))) ∧
    ∀ (react : Session.React) (a ticks : Nat) (s : Session),
      s.compileWith react a source ticks none = s.request react a source ticks := by
  refine ⟨?_, fun react a ticks s => s.compileWith_eq_request react a source ticks⟩
  cases h : compile o source with
  | ok c => exact .inl ⟨c, rfl⟩
  | error e =>
    right
    rcases compile_diagnostic h with ⟨f, hf⟩ | ⟨x, hx, found, hd⟩
    · exact ⟨e, _, rfl, hf, .inl rfl⟩
    · have hgrammar := Expectation.message_not_mem_ofCursor x hx
      exact ⟨e, _, rfl, hd, .inr ⟨rfl, x, hx, hgrammar, found, rfl⟩⟩

end TypeStrip
