import TypeStrip.Proofs.Parsing.Reads

/-!
# Refusals

Where a pass stops, and why.  A token is refused because something else was expected, or because a
node cannot be built; and as long as operators are operators and names are not empty, every node
can.

* `Token.Proper`              tokens whose texts make nodes;
* `ParseState.Usable`          states in which every name read so far can be used;
* `Expectation.grammar`       what the grammar can expect;
* `ParseState.step_error`     a refused token is unexpected or shows a flaw, and so does the end of
                              the input (`ParseState.finish_error`);
* `ParseState.step_refusal`, `ParseState.finish_refusal`   without flaws, it is unexpected;
* `feed_eq_error`             a pass stops at its first refusal;
* `parse_eq_error`            and so does a parse;
* `parse_expectation`         which expects nothing but what the grammar can;
* `parse_unexpected`          over proper tokens it fails because something else was expected.
-/

namespace TypeStrip

variable {o : Options} {room : Int}

/-! ### Proper tokens -/

/-- The text of an operator is one of the four signs, and that of a name is not empty. -/
def Token.Proper (t : Token) : Prop :=
  (t.kind = .operator → t.text ∈ [['+'], ['-'], ['*'], ['/']]) ∧ (t.kind = .name → t.text ≠ [])

instance (t : Token) : Decidable t.Proper :=
  inferInstanceAs (Decidable (_ ∧ _))

theorem Name.exists_ofText? {s : Text} (h : s ≠ []) : ∃ n, Name.ofText? s = some n :=
  ⟨⟨s, h⟩, Name.ofText?_eq_some_iff.mpr rfl⟩

theorem Operator.exists_ofText? {s : Text} (h : s ∈ [['+'], ['-'], ['*'], ['/']]) :
    ∃ op, Operator.ofText? s = some op := by
  simp only [List.mem_cons, List.not_mem_nil, or_false] at h
  rcases h with rfl | rfl | rfl | rfl
  · exact ⟨.plus, rfl⟩
  · exact ⟨.minus, rfl⟩
  · exact ⟨.times, rfl⟩
  · exact ⟨.divide, rfl⟩

/-! ### Names read so far -/

def Frame.Usable : Frame → Prop
  | .returning _ => True
  | .body name _ _ _ => name ≠ []

def Header.Usable : Header → Prop
  | start => True
  | named name | params name _ | closed name _ | returnColon name _ | typed name _ _ => name ≠ []
  | param name _ p | paramColon name _ p | paramTyped name _ p _ => name ≠ [] ∧ p ≠ []

/-- No name that is still needed is empty. -/
structure ParseState.Usable (s : ParseState) : Prop where
  opened : ∀ f ∈ s.opened, f.Usable
  header : ∀ h ∈ s.header, h.Usable

theorem SpellsOpening.name_ne_nil {ts : List Token} {name : Text} {params : List Param}
    (h : SpellsOpening ts name params) (hts : ∀ t ∈ ts, t.Proper) : name ≠ [] := by
  cases h with
  | @mk f n a ts params hf hn ha hps => exact (hts n (by simp)).2 hn

theorem SpellsHead.name_ne_nil {ts : List Token} {name : Text} {params : List Param}
    {type : Option Text} (h : SpellsHead o ts name params type) (hts : ∀ t ∈ ts, t.Proper) :
    name ≠ [] := by
  cases h with
  | @mk f n a b c ts us params type hf hn ha hps hb ht hreq hc => exact (hts n (by simp)).2 hn

theorem Header.Reads.usable {h : Header} {ts : List Token} (hr : h.Reads ts)
    (hts : ∀ t ∈ ts, t.Proper) : h.Usable := by
  cases hr with
  | start hf => exact trivial
  | @named f n hf hn => exact (hts n (by simp)).2 hn
  | params h => exact h.name_ne_nil hts
  | @param ts name ps p h hp =>
    exact ⟨h.name_ne_nil fun t ht => hts t (by simp [ht]), (hts p (by simp)).2 hp⟩
  | @paramColon ts name ps p c h hp hc =>
    exact ⟨h.name_ne_nil fun t ht => hts t (by simp [ht]), (hts p (by simp)).2 hp⟩
  | @paramTyped ts name ps p c t h hp hc ht =>
    exact ⟨h.name_ne_nil fun t ht => hts t (by simp [ht]), (hts p (by simp)).2 hp⟩
  | closed h hb => exact h.name_ne_nil fun t ht => hts t (by simp [ht])
  | returnColon h hb hc => exact h.name_ne_nil fun t ht => hts t (by simp [ht])
  | typed h hb hc ht => exact h.name_ne_nil fun t ht => hts t (by simp [ht])

theorem Reads.usable {done : List Node} {fs : List Frame} {ts : List Token}
    (h : Reads o room done fs ts) (hts : ∀ t ∈ ts, t.Proper) : ∀ f ∈ fs, f.Usable := by
  induction h with
  | done h hfit => intro f hf; cases hf
  | @returning fs ts us r vs hf hr hroom hv hs hfit ih =>
    refine List.forall_mem_cons.mpr ⟨trivial, ih fun t ht => hts t (by simp [ht])⟩
  | @body fs ts us hs name params type ns hf hh hroom hb hfit ih =>
    refine List.forall_mem_cons.mpr ⟨?_, ih fun t ht => hts t (by simp [ht])⟩
    exact hh.name_ne_nil fun t ht => hts t (by simp [ht])

theorem ParseState.Reads.usable {s : ParseState} {ts : List Token} (h : s.Reads o room ts)
    (hts : ∀ t ∈ ts, t.Proper) : s.Usable := by
  obtain ⟨done, opened, header⟩ := s
  cases header with
  | none => exact ⟨TypeStrip.Reads.usable h hts, nofun⟩
  | some hd =>
    obtain ⟨-, us, hs, rfl, hread, hhead⟩ := h
    refine ⟨hread.usable fun t ht => hts t (by simp [ht]), ?_⟩
    rintro _ ⟨⟩
    exact hhead.usable fun t ht => hts t (by simp [ht])

/-- A pass over proper tokens leads to a state whose names can be used. -/
theorem usable_of_feed {s : ParseState} {p : Nat} {ts : List Token}
    (hts : ∀ t ∈ ts, t.Proper) (h : feed o room .start p ts = .ok s) : s.Usable := by
  have hstart : ParseState.start.Reads o room [] := Reads.done .nil (Fits.nil 0)
  exact (hstart.feed h).usable hts

/-! ### What can be refused -/

/-- What can be expected at some place of the grammar. -/
def Expectation.grammar : List Expectation :=
  [knownToken, returnValue, semicolonAfterReturn, paramOrParenClose, paramType, functionName,
    parenOpen, colonAfterParams, returnType, braceOpen, braceClose, shallowerNesting]

/-- A refusal because the grammar expects something else. -/
def Refusal.Unexpected (r : Refusal) : Prop := ∃ e ∈ Expectation.grammar, r = .unexpected e

/-- A refusal because a node cannot be built. -/
def Refusal.Flawed (r : Refusal) : Prop := ∃ flaw read, r = .flawed flaw read

theorem Refusal.unexpected_of {e : Expectation} {r : Refusal} {α : Type}
    (he : e ∈ Expectation.grammar)
    (h : (Except.error (.unexpected e) : Except Refusal α) = .error r) : r.Unexpected :=
  ⟨e, he, (Except.error.inj h).symm⟩

theorem Refusal.flawed_of {flaw : Flaw} {read : Bool} {r : Refusal} {α : Type}
    (h : (Except.error (.flawed flaw read) : Except Refusal α) = .error r) : r.Flawed :=
  ⟨flaw, read, (Except.error.inj h).symm⟩

namespace Header

variable {name : Text} {ps : List Param} {t : Token} {r : Refusal}

theorem paramsStep_error (h : paramsStep name ps t = .error r) : r.Unexpected := by
  unfold paramsStep at h
  split at h
  · cases h
  · cases h
  · exact Refusal.unexpected_of (by decide) h

theorem settle_error {p : Text} {type : Option Text} (h : settle name ps p type t = .error r) :
    r.Unexpected ∨ r.Flawed ∧ p = [] := by
  by_cases hp : p = []
  · subst hp
    exact .inr ⟨Refusal.flawed_of h, rfl⟩
  · obtain ⟨n, hn⟩ := Name.exists_ofText? hp
    simp only [settle, hn] at h
    split at h
    · cases h
    · exact .inl (paramsStep_error h)

theorem step_error {hd : Header} (h : hd.step o t = .error r) :
    r.Unexpected ∨ r.Flawed ∧ ¬ hd.Usable := by
  have hsettle {name ps p type} (h : settle name ps p type t = .error r) :
      r.Unexpected ∨ r.Flawed ∧ ¬ (name ≠ [] ∧ p ≠ []) :=
    (settle_error h).imp_right fun ⟨hflaw, hp⟩ => ⟨hflaw, fun husable => husable.2 hp⟩
  cases hd with
  | start | named _ | paramColon _ _ _ | returnColon _ _ | typed _ _ _ =>
    simp only [step] at h
    split at h
    · cases h
    · exact .inl (Refusal.unexpected_of (by decide) h)
  | params name ps => exact .inl (paramsStep_error h)
  | param name ps p =>
    simp only [step] at h
    split at h
    · cases h
    · exact hsettle h
  | paramTyped name ps p type => exact hsettle h
  | closed name ps =>
    simp only [step] at h
    split at h
    · cases h
    · split at h
      · cases h
      · exact .inl (Refusal.unexpected_of (by decide) h)

theorem finish_error (hd : Header) : hd.finish.Unexpected ∨ hd.finish.Flawed ∧ ¬ hd.Usable := by
  cases hd with
  | param name ps p | paramTyped name ps p type =>
    by_cases hp : p = []
    · subst hp
      exact .inr ⟨⟨_, _, rfl⟩, fun husable => husable.2 rfl⟩
    · obtain ⟨n, hn⟩ := Name.exists_ofText? hp
      exact .inl ⟨.paramOrParenClose, by decide, by simp only [finish, settleEnd, hn]⟩
  | start | named _ | params _ _ | paramColon _ _ _ | closed _ _ | returnColon _ _
  | typed _ _ _ => exact .inl ⟨_, by decide, rfl⟩

end Header

namespace ParseState

variable {s : ParseState} {t : Token} {r : Refusal}

theorem nodeStep_error (h : nodeStep room s t = .error r) :
    r.Unexpected ∨ r.Flawed ∧ ¬ t.Proper := by
  unfold nodeStep at h
  split at h
  · cases h
  · next hk =>
    split at h
    · next hnone =>
      refine .inr ⟨Refusal.flawed_of h, fun ht => ?_⟩
      obtain ⟨op, hop⟩ := Operator.exists_ofText? (ht.1 hk)
      rw [hnone] at hop
      cases hop
    · cases h
  · cases h
  · cases h
  · cases h
  · cases h
  · cases h
  · split at h
    · exact .inl (Refusal.unexpected_of (by decide) h)
    · cases h
  · split at h
    · exact .inl (Refusal.unexpected_of (by decide) h)
    · cases h
  all_goals exact .inl (Refusal.unexpected_of (by decide) h)

theorem bodyStep_error (h : bodyStep room s t = .error r) :
    r.Unexpected ∨ r.Flawed ∧ ¬ (s.Usable ∧ t.Proper) := by
  have hnode (h : nodeStep room s t = .error r) :
      r.Unexpected ∨ r.Flawed ∧ ¬ (s.Usable ∧ t.Proper) :=
    (nodeStep_error h).imp_right fun ⟨hflaw, ht⟩ => ⟨hflaw, fun hproper => ht hproper.2⟩
  unfold bodyStep at h
  split at h
  · split at h
    · split at h
      · exact .inl (Refusal.unexpected_of (by decide) h)
      · cases h
    · exact hnode h
  · next name params type ns fs hopen =>
    split at h
    · split at h
      · next hnone =>
        refine .inr ⟨Refusal.flawed_of h, fun husable => ?_⟩
        have hframe : (Frame.body name params type ns).Usable :=
          husable.1.opened _ (by rw [hopen]; exact List.mem_cons_self)
        obtain ⟨n, hn⟩ := Name.exists_ofText? (show name ≠ [] from hframe)
        rw [hnone] at hn
        cases hn
      · cases h
    · exact hnode h
  · exact hnode h

/-- A refused token is unexpected, or it shows that an operator or a name is none. -/
theorem step_error (h : s.step o room t = .error r) :
    r.Unexpected ∨ r.Flawed ∧ ¬ (s.Usable ∧ t.Proper) := by
  unfold step at h
  split at h
  · exact bodyStep_error h
  · next hd hh =>
    split at h
    · next hstep =>
      cases h
      refine (Header.step_error hstep).imp_right fun ⟨hflaw, hempty⟩ => ⟨hflaw, fun husable => ?_⟩
      exact hempty (husable.1.header hd hh)
    · cases h
    · cases h

theorem finish_error (h : s.finish = .error r) : r.Unexpected ∨ r.Flawed ∧ ¬ s.Usable := by
  unfold finish at h
  split at h
  · next hd hh =>
    cases h
    refine hd.finish_error.imp_right fun ⟨hflaw, hempty⟩ => ⟨hflaw, fun husable => ?_⟩
    exact hempty (husable.header hd hh)
  · exact .inl (Refusal.unexpected_of (by decide) h)
  · exact .inl (Refusal.unexpected_of (by decide) h)
  · cases h

theorem step_refusal (hs : s.Usable) (ht : t.Proper) (h : s.step o room t = .error r) :
    r.Unexpected :=
  (step_error h).resolve_right fun hflaw => hflaw.2 ⟨hs, ht⟩

theorem finish_refusal (hs : s.Usable) (h : s.finish = .error r) : r.Unexpected :=
  (finish_error h).resolve_right fun hflaw => hflaw.2 hs

end ParseState

/-! ### Where a pass stops -/

/-- An unexpected token stays unread. -/
theorem ParseStop.ofRefusal_unexpected (e : Expectation) (found : Option Token) (p : Nat)
    (s : ParseState) :
    ParseStop.ofRefusal (.unexpected e) found p s = ⟨.unexpected e found, p, s⟩ := rfl

theorem feed_eq_error {s : ParseState} {p : Nat} {ts : List Token} {e : ParseStop}
    (h : feed o room s p ts = .error e) : ∃ us t vs s' r, ts = us ++ t :: vs ∧
      feed o room s p us = .ok s' ∧ s'.step o room t = .error r ∧
      e = .ofRefusal r (some t) (p + us.length) s' := by
  induction ts generalizing s p with
  | nil => cases h
  | cons t ts ih =>
    rw [feed] at h
    cases hstep : s.step o room t with
    | error r =>
      rw [hstep] at h
      exact ⟨[], t, ts, s, r, rfl, rfl, hstep, (Except.error.inj h).symm⟩
    | ok s₁ =>
      rw [hstep] at h
      obtain ⟨us, u, vs, s', r, rfl, hfeed, hr, rfl⟩ := ih h
      refine ⟨t :: us, u, vs, s', r, rfl, ?_, hr, ?_⟩
      · rw [feed, hstep]
        exact hfeed
      · rw [List.length_cons]
        congr 1
        omega

/-- The place where a parse stops: the tokens before it, the state behind these, and the refusal of
the next token or of the end of the input. -/
theorem parse_eq_error {ts : List Token} {e : ParseStop} (h : parse o ts = .error e) :
    ∃ us vs s r, ts = us ++ vs ∧ feed o maxDepth .start 0 us = .ok s ∧
      e = .ofRefusal r vs.head? us.length s ∧
      ((∃ t ws, vs = t :: ws ∧ s.step o maxDepth t = .error r) ∨
        (vs = [] ∧ s.finish = .error r)) := by
  have hfrom : parseFrom o maxDepth .start 0 ts = .error e := by
    unfold parse at h
    split at h
    · next hp => rw [hp, Except.error.inj h]
    · cases h
  unfold parseFrom at hfrom
  cases hfeed : feed o maxDepth .start 0 ts with
  | error e' =>
    rw [hfeed] at hfrom
    cases hfrom
    obtain ⟨us, t, vs, s, r, rfl, hus, hr, rfl⟩ := feed_eq_error hfeed
    refine ⟨us, t :: vs, s, r, rfl, hus, ?_, .inl ⟨t, vs, rfl, hr⟩⟩
    rw [Nat.zero_add]
    rfl
  | ok s =>
    simp only [hfeed] at hfrom
    cases hfin : s.finish with
    | error r =>
      simp only [hfin] at hfrom
      cases hfrom
      refine ⟨ts, [], s, r, by simp, hfeed, ?_, .inr ⟨rfl, hfin⟩⟩
      rw [Nat.zero_add]
      rfl
    | ok u =>
      simp only [hfin] at hfrom
      cases hfrom

/-- Whatever the texts of the tokens are, a parse expects nothing but what the grammar does. -/
theorem parse_expectation {ts : List Token} {stop : ParseStop} {e : Expectation}
    {found : Option Token} (h : parse o ts = .error stop)
    (hfault : stop.fault = .unexpected e found) : e ∈ Expectation.grammar := by
  obtain ⟨us, vs, s, r, rfl, hfeed, rfl, hcases⟩ := parse_eq_error h
  have hr : r.Unexpected ∨ r.Flawed := by
    rcases hcases with ⟨t, ws, rfl, hr⟩ | ⟨rfl, hr⟩
    · exact (ParseState.step_error hr).imp_right And.left
    · exact (ParseState.finish_error hr).imp_right And.left
  rcases hr with ⟨e', he', rfl⟩ | ⟨flaw, read, rfl⟩
  · cases hfault
    exact he'
  · cases hfault

theorem parse_unexpected {ts : List Token} {stop : ParseStop} (hts : ∀ t ∈ ts, t.Proper)
    (h : parse o ts = .error stop) :
    ∃ e ∈ Expectation.grammar, ∃ found, stop.fault = .unexpected e found := by
  obtain ⟨us, vs, s, r, rfl, hfeed, rfl, hcases⟩ := parse_eq_error h
  have husable : s.Usable := usable_of_feed (fun t ht => hts t (List.mem_append_left _ ht)) hfeed
  have hr : r.Unexpected := by
    rcases hcases with ⟨t, ws, rfl, hr⟩ | ⟨rfl, hr⟩
    · exact ParseState.step_refusal husable (hts t (by simp)) hr
    · exact ParseState.finish_refusal husable hr
  obtain ⟨e, he, rfl⟩ := hr
  exact ⟨e, he, _, rfl⟩

end TypeStrip
