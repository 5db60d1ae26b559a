import TypeStrip.Proofs.Parsing.Reads

/-!
# Parsing by the grammar

* `parseFrom_eq_ok_iff`   a pass over a whole input succeeds exactly for the spellings that keep
                          within the room there is;
* `Spells.unique`         a token list spells at most one list of nodes;
* `parse_iff_grammar`     parsing accepts the grammar and builds its unique tree.
-/

namespace TypeStrip

variable {o : Options} {room : Int}

theorem finish_eq_ok {s : ParseState} (h : s.finish = .ok ()) :
    s.header = none ∧ s.opened = [] := by
  unfold ParseState.finish at h
  split at h
  · cases h
  · cases h
  · cases h
  · next hh ho => exact ⟨hh, ho⟩

theorem parseFrom_eq_ok_iff {ts : List Token} {s : ParseState} :
    parseFrom o room .start 0 ts = .ok s ↔
      ∃ ns, Spells o ts ns ∧ Fits room 0 ns ∧ s = ⟨ns.reverse, [], none⟩ := by
  unfold parseFrom
  constructor
  · intro h
    cases hfeed : feed o room .start 0 ts with
    | error e => rw [hfeed] at h; cases h
    | ok s' =>
      simp only [hfeed] at h
      split at h
      · cases h
      · next hfin =>
        cases h
        obtain ⟨done, opened, header⟩ := s
        obtain ⟨rfl, rfl⟩ := finish_eq_ok hfin
        have hstart : ParseState.start.Reads o room [] := Reads.done .nil (Fits.nil 0)
        cases hstart.feed hfeed with
        | done hsp hfit =>
          exact ⟨done.reverse, hsp, fits_reverse.mpr hfit, by rw [List.reverse_reverse]⟩
  · rintro ⟨ns, hsp, hfit, rfl⟩
    have hrun := hsp.runs (s := .start) ⟨rfl, nofun, hfit⟩ 0
    rw [ParseState.start, ParseState.addAll_done, List.append_nil] at hrun
    rw [ParseState.start, hrun]
    rfl

/-- A token list spells at most one list of nodes: a pass with room for both gives them both. -/
theorem Spells.unique {ts : List Token} {ns ms : List Node} (h : Spells o ts ns)
    (h' : Spells o ts ms) : ns = ms := by
  have hns : Fits (Node.nestingList ns + Node.nestingList ms) 0 ns := by
    right
    omega
  have hms : Fits (Node.nestingList ns + Node.nestingList ms) 0 ms := by
    right
    omega
  have h1 := parseFrom_eq_ok_iff.mpr ⟨ns, h, hns, rfl⟩
  have h2 := parseFrom_eq_ok_iff.mpr ⟨ms, h', hms, rfl⟩
  rw [h1] at h2
  have h3 := congrArg ParseState.done (Except.ok.inj h2)
  exact List.reverse_inj.mp h3

theorem parse_eq_ok_iff {ts : List Token} {p : Program} :
    parse o ts = .ok p ↔ Spells o ts p.statements ∧ p.nesting ≤ 100 := by
  have hfit : Fits maxDepth 0 p.statements ↔ p.nesting ≤ 100 := by
    unfold Fits maxDepth Program.nesting
    omega
  rw [← hfit]
  unfold parse
  constructor
  · intro h
    split at h
    · cases h
    · next s hs =>
      cases h
      obtain ⟨ns, hsp, hns, rfl⟩ := parseFrom_eq_ok_iff.mp hs
      rw [List.reverse_reverse]
      exact ⟨hsp, hns⟩
  · rintro ⟨hsp, hns⟩
    rw [parseFrom_eq_ok_iff.mpr ⟨_, hsp, hns, rfl⟩]
    exact congrArg (fun ns => Except.ok (Program.mk ns)) (List.reverse_reverse _)

/-- **Parsing accepts exactly the grammar, and builds its unique tree.**  Nothing is asked of the
texts of the tokens: where an operator or the name of a function or parameter has a text that does
not make one, there is no spelling and no tree. -/
theorem parse_iff_grammar (o : Options) (ts : List Token) :
    (∀ p : Program, parse o ts = .ok p ↔ Spells o ts p.statements ∧ p.nesting ≤ 100) ∧
      ∀ ns ms : List Node, Spells o ts ns → Spells o ts ms → ns = ms :=
  ⟨fun _ => parse_eq_ok_iff, fun _ _ h h' => h.unique h'⟩

/-- A value that is a function without a declared type, with a parameter that has one and a comma
behind it. -/
theorem parse_iff_grammar_nested : Spells ⟨true, false⟩
    [⟨.keywordReturn, "return".toList, 0⟩, ⟨.keywordFunction, "function".toList, 7⟩,
      ⟨.name, ['f'], 16⟩, ⟨.parenOpen, ['('], 17⟩, ⟨.name, ['a'], 18⟩, ⟨.colon, [':'], 19⟩,
      ⟨.name, ['t'], 20⟩, ⟨.comma, [','], 21⟩, ⟨.parenClose, [')'], 22⟩, ⟨.braceOpen, ['\x7b'], 23⟩,
      ⟨.semicolon, [';'], 24⟩, ⟨.braceClose, ['\x7d'], 25⟩, ⟨.semicolon, [';'], 26⟩]
    [.returns [.function ⟨['f'], by decide⟩ [⟨⟨['a'], by decide⟩, some ['t']⟩] none
      [.punctuation .semicolon [';']]]] :=
  (((parse_iff_grammar _ _).1 ⟨_⟩).mp rfl).1

end TypeStrip
