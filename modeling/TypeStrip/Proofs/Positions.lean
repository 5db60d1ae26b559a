import TypeStrip.Proofs.Failures

/-!
# What positions cannot change

The position of a token is printed where the token is reported, and plays no part anywhere else.  So
two token lists with the same lexemes have the same tree, or stop at the same token for the same
reason.

* `ParseState.step_of_lexeme`   one token is read by its kind and text;
* `feed_of_lexemes`             and so is any number of them;
* `parse_eq_error_iff`          a parse stops at the first refusal, and only there;
* `parse_ok_of_lexemes`, `parse_error_of_lexemes`   two parses of the same lexemes;
* `SameButOffset`               texts that differ in an offset at their end;
* `parse_positions`             what two such parses, or compilations, have in common.
-/

namespace TypeStrip

variable {o : Options} {room : Int} {ts us : List Token}

/-! ### Passes -/

theorem ParseState.step_of_lexeme {t u : Token} (h : t.lexeme = u.lexeme) (s : ParseState) :
    s.step o room t = s.step o room u := by
  obtain ⟨k, w, p⟩ := t
  obtain ⟨k', w', p'⟩ := u
  cases h
  rfl

theorem feed_of_lexemes (h : ts.map Token.lexeme = us.map Token.lexeme) {s s' : ParseState}
    {p : Nat} (hfeed : feed o room s p ts = .ok s') : feed o room s p us = .ok s' := by
  induction ts generalizing us s p with
  | nil =>
    rw [List.map_eq_nil_iff.mp h.symm]
    exact hfeed
  | cons t ts ih =>
    obtain ⟨u, us, rfl, htu, hrest⟩ := List.map_eq_cons_iff.mp h.symm
    rw [feed, ParseState.step_of_lexeme htu.symm] at hfeed
    rw [feed]
    cases hstep : s.step o room u with
    | error r =>
      rw [hstep] at hfeed
      cases hfeed
    | ok s₁ =>
      rw [hstep] at hfeed
      exact ih hrest.symm hfeed

/-! ### Parses -/

/-- The next token, or the end of the input, is refused. -/
def ParseState.Refuses (o : Options) (s : ParseState) (r : Refusal) (rest : List Token) : Prop :=
  (∃ t ws, rest = t :: ws ∧ s.step o maxDepth t = .error r) ∨ (rest = [] ∧ s.finish = .error r)

theorem parse_eq_error_iff {stop : ParseStop} : parse o ts = .error stop ↔
    ∃ read rest s r, ts = read ++ rest ∧ feed o maxDepth .start 0 read = .ok s ∧
      stop = .ofRefusal r rest.head? read.length s ∧ s.Refuses o r rest := by
  refine ⟨parse_eq_error, ?_⟩
  rintro ⟨read, rest, s, r, rfl, hfeed, rfl, hrefuses⟩
  unfold parse parseFrom
  rw [feed_append, hfeed]
  rcases hrefuses with ⟨t, ws, rfl, hr⟩ | ⟨rfl, hr⟩
  · simp only [feed, hr, Nat.zero_add]
    rfl
  · simp only [feed, hr, List.append_nil, Nat.zero_add]
    rfl

theorem ParseState.Refuses.of_lexemes {s : ParseState} {r : Refusal} (hs : s.Refuses o r ts)
    (h : ts.map Token.lexeme = us.map Token.lexeme) : s.Refuses o r us := by
  rcases hs with ⟨t, ws, rfl, hr⟩ | ⟨rfl, hr⟩
  · obtain ⟨u, vs, rfl, htu, -⟩ := List.map_eq_cons_iff.mp h.symm
    rw [step_of_lexeme htu.symm] at hr
    exact .inl ⟨u, vs, rfl, hr⟩
  · exact .inr ⟨List.map_eq_nil_iff.mp h.symm, hr⟩

theorem parse_ok_of_lexemes (h : ts.map Token.lexeme = us.map Token.lexeme) {p : Program}
    (hp : parse o ts = .ok p) : parse o us = .ok p := by
  unfold parse parseFrom at hp ⊢
  cases hfeed : feed o maxDepth .start 0 ts with
  | error e =>
    rw [hfeed] at hp
    cases hp
  | ok s =>
    rw [feed_of_lexemes h hfeed]
    simp only [hfeed] at hp ⊢
    cases hfinish : s.finish with
    | error r =>
      rw [hfinish] at hp
      cases hp
    | ok u =>
      rw [hfinish] at hp
      exact hp

/-- Both parses are refused at the same place, each with its own token there. -/
theorem parse_error_of_lexemes (h : ts.map Token.lexeme = us.map Token.lexeme) {stop : ParseStop}
    (hp : parse o ts = .error stop) : ∃ i r s, stop = .ofRefusal r ts[i]? i s ∧
      parse o us = .error (.ofRefusal r us[i]? i s) := by
  obtain ⟨read, rest, s, r, rfl, hfeed, rfl, hrefuses⟩ := parse_eq_error_iff.mp hp
  rw [List.map_append] at h
  obtain ⟨read', rest', rfl, hread, hrest⟩ := List.map_eq_append_iff.mp h.symm
  -- What was read before the refusal has as many tokens in both lists, so the indices agree.
  have hlength : read'.length = read.length := by
    simpa using congrArg List.length hread
  refine ⟨read.length, r, s, ?_, parse_eq_error_iff.mpr ⟨read', rest', s, r, rfl, ?_, ?_, ?_⟩⟩
  · rw [List.getElem?_append_right (Nat.le_refl _), Nat.sub_self, List.head?_eq_getElem?]
  · exact feed_of_lexemes hread.symm hfeed
  · rw [← hlength, List.getElem?_append_right (Nat.le_refl _), Nat.sub_self,
      List.head?_eq_getElem?]
  · exact hrefuses.of_lexemes hrest.symm

/-! ### What is found -/

/-- The same text, or two that differ in the offset at their end. -/
def SameButOffset (d d' : Text) : Prop :=
  d = d' ∨ ∃ w n n', d = w ++ " at offset ".toList ++ Text.decimal n ∧
    d' = w ++ " at offset ".toList ++ Text.decimal n'

theorem describeFound_of_lexeme {found found' : Option Token}
    (h : found.map Token.lexeme = found'.map Token.lexeme) :
    SameButOffset (describeFound found) (describeFound found') := by
  cases found with
  | none =>
    rw [Option.map_eq_none_iff.mp h.symm]
    exact .inl rfl
  | some t =>
    obtain ⟨u, rfl, htu⟩ := Option.map_eq_some_iff.mp h.symm
    obtain ⟨k, w, p⟩ := t
    obtain ⟨k', w', p'⟩ := u
    cases htu
    exact .inr ⟨k.label.toList ++ ' ' :: Text.quoted w, p, p', rfl, rfl⟩

/-! ### Two runs -/

/-- Scanned tokens make every node, so the parser can only stop at a token that does not fit. -/
theorem compile_error_of_lexemes {s s' : Text} (hs : scan o s = .ok ts) (hs' : scan o s' = .ok us)
    (h : ts.map Token.lexeme = us.map Token.lexeme) {stop : ParseStop}
    (hp : parse o ts = .error stop) :
    ∃ e i st, compile o s = .error (.parse ⟨.unexpected e ts[i]?, i, st⟩) ∧
      compile o s' = .error (.parse ⟨.unexpected e us[i]?, i, st⟩) := by
  obtain ⟨e, -, found, hfault⟩ := parse_unexpected (proper_of_scan hs) hp
  obtain ⟨i, r, st, rfl, hp'⟩ := parse_error_of_lexemes h hp
  cases r with
  | flawed flaw read => cases hfault
  | unexpected e =>
    refine ⟨e, i, st, ?_, ?_⟩
    · simp only [compile_eq, hs, hp]
      rfl
    · simp only [compile_eq, hs', hp']
      rfl

/-- **Positions decide nothing.**  Token lists with the same kinds and texts have the same tree, or
the same node that cannot be built, or the same expectation at the same index, where what was found
differs at most in its offset.  So sources that are scanned into the same kinds and texts have the
same tree and output, or fail at the same token with the same expectation. -/
theorem parse_positions (o : Options) :
    (∀ ts us : List Token, ts.map Token.lexeme = us.map Token.lexeme →
      (∃ p, parse o ts = .ok p ∧ parse o us = .ok p) ∨
      (∃ stop flaw, parse o ts = .error stop ∧ parse o us = .error stop ∧
        stop.fault = .flawed flaw) ∨
      (∃ e i st, parse o ts = .error ⟨.unexpected e ts[i]?, i, st⟩ ∧
        parse o us = .error ⟨.unexpected e us[i]?, i, st⟩ ∧
        SameButOffset (describeFound ts[i]?) (describeFound us[i]?))) ∧
    (∀ (s s' : Text) (ts us : List Token), scan o s = .ok ts → scan o s' = .ok us →
      ts.map Token.lexeme = us.map Token.lexeme →
      (∃ c c', compile o s = .ok c ∧ compile o s' = .ok c' ∧ c.tree = c'.tree ∧
        c.output = c'.output) ∨
      (∃ e i st, compile o s = .error (.parse ⟨.unexpected e ts[i]?, i, st⟩) ∧
        compile o s' = .error (.parse ⟨.unexpected e us[i]?, i, st⟩))) := by
  constructor
  · intro ts us h
    cases hp : parse o ts with
    | ok p => exact .inl ⟨p, rfl, parse_ok_of_lexemes h hp⟩
    | error stop =>
      right
      obtain ⟨i, r, st, rfl, hp'⟩ := parse_error_of_lexemes h hp
      cases r with
      | flawed flaw read => exact .inl ⟨_, flaw, rfl, hp', rfl⟩
      | unexpected e =>
        refine .inr ⟨e, i, st, rfl, hp', describeFound_of_lexeme ?_⟩
        rw [← List.getElem?_map, h, List.getElem?_map]
  · intro s s' ts us hs hs' h
    cases hp : parse o ts with
    | ok p =>
      have hc : compile o s = .ok ⟨ts, p, p.untyped⟩ := compile_eq_ok_iff.mpr ⟨hs, hp, rfl⟩
      have hp' : parse o us = .ok p := parse_ok_of_lexemes h hp
      have hc' : compile o s' = .ok ⟨us, p, p.untyped⟩ := compile_eq_ok_iff.mpr ⟨hs', hp', rfl⟩
      exact .inl ⟨_, _, hc, hc', rfl, rfl⟩
    | error stop => exact .inr (compile_error_of_lexemes hs hs' h hp)

/-- A brace where a value should be, at two places of which the later token has the smaller one; and
two layouts of a source. -/
theorem parse_positions_apart :
    let near : List Token := [⟨.keywordReturn, "return".toList, 0⟩, ⟨.braceOpen, ['\x7b'], 7⟩]
    let far : List Token := [⟨.keywordReturn, "return".toList, 40⟩, ⟨.braceOpen, ['\x7b'], 3⟩]
    (∃ st, parse {} near = .error ⟨.unexpected .knownToken near[1]?, 1, st⟩ ∧
      parse {} far = .error ⟨.unexpected .knownToken far[1]?, 1, st⟩ ∧
      SameButOffset "BraceOpen '\x7b' at offset 7".toList "BraceOpen '\x7b' at offset 3".toList) ∧
    (∃ c c', compile {} "return x;".toList = .ok c ∧ compile {} "return\n\n x ;".toList = .ok c' ∧
      c.tree = c'.tree ∧ c.output = c'.output) := by
  intro near far
  obtain ⟨hlists, hsources⟩ := parse_positions {}
  constructor
  · obtain ⟨st, hnear⟩ : ∃ st, parse {} near = .error ⟨.unexpected .knownToken near[1]?, 1, st⟩ :=
      ⟨_, rfl⟩
    rcases hlists near far (by decide) with
      ⟨p, hp, -⟩ | ⟨stop, f, hp, -, hf⟩ | ⟨e, i, st', hp, hp', hd⟩
    · cases hp
    · cases hp
      cases hf
    · obtain ⟨hfault, hi, hst⟩ := ParseStop.mk.inj (Except.error.inj (hnear.symm.trans hp))
      obtain ⟨rfl, -⟩ := ParseFault.unexpected.inj hfault
      subst hi
      exact ⟨st', hp, hp', hd⟩
  · have hscan : scan {} "return x;".toList = .ok [⟨.keywordReturn, "return".toList, 0⟩,
        ⟨.name, ['x'], 7⟩, ⟨.semicolon, [';'], 8⟩] := by decide +kernel
    have hscan' : scan {} "return\n\n x ;".toList = .ok [⟨.keywordReturn, "return".toList, 0⟩,
        ⟨.name, ['x'], 9⟩, ⟨.semicolon, [';'], 11⟩] := by decide +kernel
    have hok : (compile {} "return x;".toList).isOk = true := by decide +kernel
    rcases hsources _ _ _ _ hscan hscan' rfl with h | ⟨e, i, st, hc, -⟩
    · exact h
    · rw [hc] at hok
      cases hok

end TypeStrip
