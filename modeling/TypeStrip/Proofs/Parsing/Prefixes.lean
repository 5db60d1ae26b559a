import TypeStrip.Proofs.Lexeme
import TypeStrip.Proofs.Parsing.Refusals

/-!
# Viable prefixes

A parse reads on exactly as long as the tokens behind it can still become a program.

* `ParseState.completion`   tokens that close everything a state has open;
* `runs_closing`            open constructs are closed by their last tokens;
* `runs_header`             a header is completed to the opening of a body;
* `runs_completion`         a state is completed to one with nothing open;
* `Viable`                  tokens that some continuation makes a program;
* `parse_error_located`     a parse stops at the first token behind which no continuation helps.
-/

namespace TypeStrip

variable {o : Options} {room : Int}

/-! ### Completions -/

def Token.mark (k : Kind) : Token := ⟨k, k.word, 0⟩

def Token.anyName : Token := ⟨.name, ['x'], 0⟩

/-- The last tokens of a construct; a `return` gets one more value, since it may have none yet. -/
def Frame.closing : Frame → List Token
  | .returning _ => [⟨.number, ['0'], 0⟩, .mark .semicolon]
  | .body _ _ _ _ => [.mark .braceClose]

/-- The tokens up to the brace that opens the body. -/
def Header.completion : Header → List Token
  | start => [.anyName, .mark .parenOpen, .mark .parenClose, .mark .colon, .anyName,
      .mark .braceOpen]
  | named _ => [.mark .parenOpen, .mark .parenClose, .mark .colon, .anyName, .mark .braceOpen]
  | paramColon _ _ _ => [.anyName, .mark .parenClose, .mark .colon, .anyName, .mark .braceOpen]
  | params _ _ | param _ _ _ | paramTyped _ _ _ _ =>
    [.mark .parenClose, .mark .colon, .anyName, .mark .braceOpen]
  | closed _ _ => [.mark .colon, .anyName, .mark .braceOpen]
  | returnColon _ _ => [.anyName, .mark .braceOpen]
  | typed _ _ _ => [.mark .braceOpen]

def ParseState.completion (s : ParseState) : List Token :=
  match s.header with
  | none => s.opened.flatMap Frame.closing
  | some h => h.completion ++ .mark .braceClose :: s.opened.flatMap Frame.closing

theorem Frame.proper_closing (f : Frame) : ∀ t ∈ f.closing, t.Proper := by
  cases f <;> exact of_decide_eq_true rfl

theorem Header.proper_completion (h : Header) : ∀ t ∈ h.completion, t.Proper := by
  cases h <;> exact of_decide_eq_true rfl

theorem ParseState.proper_completion (s : ParseState) : ∀ t ∈ s.completion, t.Proper := by
  have hclosing : ∀ t ∈ s.opened.flatMap Frame.closing, t.Proper := by
    intro t ht
    obtain ⟨f, _, hf⟩ := List.mem_flatMap.mp ht
    exact f.proper_closing t hf
  unfold ParseState.completion
  split
  · exact hclosing
  · next h _ =>
    intro t ht
    rcases List.mem_append.mp ht with ht | ht
    · exact h.proper_completion t ht
    · rcases List.mem_cons.mp ht with rfl | ht
      · decide
      · exact hclosing t ht

/-! ### Closing what is open -/

theorem Frame.usable_add {f : Frame} (n : Node) (h : f.Usable) : (f.add n).Usable := by
  cases f <;> exact h

theorem ParseState.usable_add {s : ParseState} (n : Node) (h : ∀ f ∈ s.opened, f.Usable) :
    ∀ f ∈ (s.add n).opened, f.Usable := by
  obtain ⟨done, opened, header⟩ := s
  cases opened with
  | nil => exact h
  | cons f fs =>
    obtain ⟨hf, hfs⟩ := List.forall_mem_cons.mp h
    exact List.forall_mem_cons.mpr ⟨Frame.usable_add n hf, hfs⟩

/-- How a construct is closed does not depend on what it holds. -/
theorem ParseState.closing_add (s : ParseState) (n : Node) :
    (s.add n).opened.flatMap Frame.closing = s.opened.flatMap Frame.closing := by
  obtain ⟨done, opened, header⟩ := s
  cases opened with
  | nil => rfl
  | cons f fs => cases f <;> rfl

/-- The last tokens of the innermost construct make it a node of the construct around it. -/
theorem runs_frame (done : List Node) (fs : List Frame) {f : Frame} (h : f.Usable) :
    ∃ n, Runs o room ⟨done, f :: fs, none⟩ f.closing (ParseState.add n ⟨done, fs, none⟩) := by
  cases f with
  | returning vs =>
    have hleaf : ParseState.step o room ⟨done, .returning vs :: fs, none⟩ ⟨.number, ['0'], 0⟩ =
        .ok ⟨done, .returning (.number ['0'] :: vs) :: fs, none⟩ :=
      ParseState.step_leaf (.number rfl) rfl (fun _ => rfl)
    exact ⟨_, Runs.cons hleaf (Runs.single (ParseState.step_semicolon rfl (List.cons_ne_nil _ _)))⟩
  | body name params type ns =>
    obtain ⟨n, rfl⟩ : ∃ n : Name, name = n.text := ⟨⟨name, h⟩, rfl⟩
    exact ⟨_, Runs.single (ParseState.step_braceClose rfl)⟩

theorem runs_closing {s : ParseState} (hh : s.header = none) (hs : ∀ f ∈ s.opened, f.Usable) :
    ∃ done, Runs o room s (s.opened.flatMap Frame.closing) ⟨done, [], none⟩ := by
  -- closing a construct changes the one around it, so only their number goes down
  induction hn : s.opened.length generalizing s with
  | zero =>
    obtain ⟨done, opened, header⟩ := s
    cases hh
    obtain rfl := List.eq_nil_of_length_eq_zero hn
    exact ⟨done, Runs.nil _⟩
  | succ n ih =>
    obtain ⟨done, opened, header⟩ := s
    cases hh
    obtain ⟨f, fs, rfl⟩ := List.exists_cons_of_length_eq_add_one hn
    obtain ⟨hf, hfs⟩ := List.forall_mem_cons.mp hs
    obtain ⟨m, hm⟩ : ∃ m, Runs o room ⟨done, f :: fs, none⟩ f.closing
        (ParseState.add m ⟨done, fs, none⟩) := runs_frame done fs hf
    obtain ⟨done', hrest⟩ := ih (s := ParseState.add m ⟨done, fs, none⟩)
      (ParseState.header_add _ m) (ParseState.usable_add m hfs)
      (by rw [ParseState.length_opened_add]; exact Nat.succ.inj hn)
    rw [ParseState.closing_add] at hrest
    exact ⟨done', hm.append hrest⟩

/-! ### Completing headers -/

section
variable (done : List Node) (fs : List Frame)

theorem runs_closed (name : Text) (ps : List Param) :
    Runs o room ⟨done, fs, some (.closed name ps)⟩
      [.mark .colon, .anyName, .mark .braceOpen]
      ⟨done, .body name ps.reverse (some ['x']) [] :: fs, none⟩ :=
  runs_type done fs (.some rfl rfl) (by simp) rfl name ps

/-- A stage behind some parameters takes a closing parenthesis. -/
theorem runs_behind {h : Header} {name : Text} {ps : List Param} (hb : h.Behind o name ps) :
    Runs o room ⟨done, fs, some h⟩
      [.mark .parenClose, .mark .colon, .anyName, .mark .braceOpen]
      ⟨done, .body name ps.reverse (some ['x']) [] :: fs, none⟩ := by
  have hclose : Runs o room ⟨done, fs, some h⟩ [.mark .parenClose]
      ⟨done, fs, some (.closed name ps)⟩ := runs_params done fs .nil rfl name ps hb
  exact hclose.append (runs_closed done fs name ps)

theorem runs_typedParam {name p : Text} (ps : List Param) (type : Text) (hp : p ≠ []) :
    ∃ params, Runs o room ⟨done, fs, some (.paramTyped name ps p type)⟩
      [.mark .parenClose, .mark .colon, .anyName, .mark .braceOpen]
      ⟨done, .body name params (some ['x']) [] :: fs, none⟩ := by
  have hbehind : (Header.paramTyped name ps p type).Behind o name (⟨⟨p, hp⟩, some type⟩ :: ps) :=
    fun t _ hc => Header.settle_eq rfl hc
  exact ⟨_, runs_behind done fs hbehind⟩

theorem runs_header {h : Header} (hh : h.Usable) : ∃ name params type, name ≠ [] ∧
    Runs o room ⟨done, fs, some h⟩ h.completion ⟨done, .body name params type [] :: fs, none⟩ := by
  cases h with
  | start =>
    have hrest : Runs o room ⟨done, fs, some (.params ['x'] [])⟩ _ _ :=
      runs_behind done fs (Header.behind_params ['x'] [])
    exact ⟨['x'], [], some ['x'], by decide, Runs.cons (ParseState.step_more rfl)
      (Runs.cons (ParseState.step_more rfl) hrest)⟩
  | named name =>
    have hrest : Runs o room ⟨done, fs, some (.params name [])⟩ _ _ :=
      runs_behind done fs (Header.behind_params name [])
    exact ⟨name, [], some ['x'], hh, Runs.cons (ParseState.step_more rfl) hrest⟩
  | params name ps =>
    exact ⟨name, _, _, hh, runs_behind done fs (Header.behind_params name ps)⟩
  | param name ps p =>
    obtain ⟨hname, hp⟩ := hh
    have hbehind : (Header.param name ps p).Behind o name (⟨⟨p, hp⟩, none⟩ :: ps) := by
      intro t hcolon hcomma
      show (if t.kind = .colon then _ else _) = _
      rw [if_neg hcolon]
      exact Header.settle_eq rfl hcomma
    exact ⟨name, _, _, hname, runs_behind done fs hbehind⟩
  | paramColon name ps p =>
    obtain ⟨hname, hp⟩ := hh
    obtain ⟨params, hrest⟩ : ∃ params, Runs o room
        ⟨done, fs, some (.paramTyped name ps p ['x'])⟩ _ _ :=
      runs_typedParam done fs ps ['x'] hp
    exact ⟨name, params, _, hname, Runs.cons (ParseState.step_more rfl) hrest⟩
  | paramTyped name ps p type =>
    obtain ⟨hname, hp⟩ := hh
    obtain ⟨params, hrest⟩ := runs_typedParam done fs ps type hp
    exact ⟨name, params, _, hname, hrest⟩
  | closed name ps => exact ⟨name, _, _, hh, runs_closed done fs name ps⟩
  | returnColon name ps =>
    exact ⟨name, _, _, hh, Runs.cons (ParseState.step_more rfl)
      (Runs.single (ParseState.step_opens rfl))⟩
  | typed name ps type => exact ⟨name, _, _, hh, Runs.single (ParseState.step_opens rfl)⟩

end

/-- Everything that is open can be closed, also where no further construct may be opened. -/
theorem runs_completion {s : ParseState} (hs : s.Usable) :
    ∃ done, Runs o room s s.completion ⟨done, [], none⟩ := by
  obtain ⟨done, opened, header⟩ := s
  cases header with
  | none => exact runs_closing rfl hs.opened
  | some h =>
    obtain ⟨name, params, type, hname, hrun⟩ : ∃ name params type, name ≠ [] ∧
        Runs o room ⟨done, opened, some h⟩ h.completion
          ⟨done, .body name params type [] :: opened, none⟩ :=
      runs_header done opened (hs.header h rfl)
    obtain ⟨done', hclose⟩ : ∃ done', Runs o room
        ⟨done, .body name params type [] :: opened, none⟩
        (.mark .braceClose :: opened.flatMap Frame.closing) ⟨done', [], none⟩ :=
      runs_closing rfl (List.forall_mem_cons.mpr ⟨hname, hs.opened⟩)
    exact ⟨done', hrun.append hclose⟩

/-! ### Prefixes of programs -/

/-- Some continuation of the tokens, again by proper tokens, is a program. -/
def Viable (o : Options) (ts : List Token) : Prop :=
  ∃ us, (∀ u ∈ us, u.Proper) ∧ ∃ p, parse o (ts ++ us) = .ok p

theorem viable_of_feed {ts : List Token} {s : ParseState} (hts : ∀ t ∈ ts, t.Proper)
    (h : feed o maxDepth .start 0 ts = .ok s) : Viable o ts := by
  obtain ⟨done, hdone⟩ : ∃ done, Runs o maxDepth s s.completion ⟨done, [], none⟩ :=
    runs_completion (usable_of_feed hts h)
  have hall : feed o maxDepth .start 0 (ts ++ s.completion) = .ok ⟨done, [], none⟩ := by
    rw [feed_append, h]
    exact hdone _
  refine ⟨s.completion, s.proper_completion, ⟨done.reverse⟩, ?_⟩
  simp only [parse, parseFrom, hall]
  rfl

/-- Behind a refused token nothing helps. -/
theorem parse_refused {ts : List Token} {s : ParseState} {t : Token} {r : Refusal}
    (h : feed o maxDepth .start 0 ts = .ok s) (hr : s.step o maxDepth t = .error r)
    (us : List Token) (p : Program) : parse o (ts ++ [t] ++ us) ≠ .ok p := by
  have hfail : feed o maxDepth .start 0 (ts ++ [t] ++ us) =
      .error (.ofRefusal r (some t) (0 + ts.length) s) := by
    rw [List.append_assoc, feed_append, h]
    simp only [List.singleton_append, feed, hr]
  intro hp
  simp only [parse, parseFrom, hfail] at hp
  cases hp

/-- **A parse stops at the first token that cannot be part of a program.**  The tokens before it
are the beginning of a program, whatever follows them and it is not, and it is the token that the
message describes; the end of the input is only reported where the input is the beginning of a
program. -/
theorem parse_error_located (o : Options) (ts : List Token) (stop : ParseStop)
    (hts : ∀ t ∈ ts, t.Proper) (h : parse o ts = .error stop) :
    ∃ e found, stop.fault = .unexpected e found ∧ stop.position ≤ ts.length ∧
      Viable o (ts.take stop.position) ∧
      (∀ hi : stop.position < ts.length, describeFound found = (ts.get ⟨_, hi⟩).describe ∧
        ∀ us p, parse o (ts.take (stop.position + 1) ++ us) ≠ .ok p) ∧
      (stop.position = ts.length → describeFound found = "end of input".toList) := by
  obtain ⟨us, vs, s, r, rfl, hfeed, hstop, hcases⟩ := parse_eq_error h
  have hus : ∀ t ∈ us, t.Proper := fun t ht => hts t (List.mem_append_left _ ht)
  have husable : s.Usable := usable_of_feed hus hfeed
  rcases hcases with ⟨t, ws, rfl, hr⟩ | ⟨rfl, hr⟩
  · obtain ⟨e, -, rfl⟩ := ParseState.step_refusal husable (hts t (by simp)) hr
    rw [ParseStop.ofRefusal_unexpected] at hstop
    subst hstop
    refine ⟨e, some t, rfl, by simp, ?_, fun hi => ⟨?_, ?_⟩, fun hi => ?_⟩
    · rw [List.take_left]
      exact viable_of_feed hus hfeed
    · have hget : (us ++ t :: ws).get ⟨us.length, hi⟩ = t := by
        rw [List.get_eq_getElem, List.getElem_append_right (Nat.le_refl _)]
        simp only [Nat.sub_self, List.getElem_cons_zero]
      exact congrArg Token.describe hget.symm
    · intro vs p
      have htake : (us ++ t :: ws).take (us.length + 1) = us ++ [t] := by
        rw [List.take_length_add_append]
        rfl
      rw [htake]
      exact parse_refused hfeed hr vs p
    · simp at hi
  · obtain ⟨e, -, rfl⟩ := ParseState.finish_refusal husable hr
    rw [ParseStop.ofRefusal_unexpected] at hstop
    subst hstop
    refine ⟨e, none, rfl, by simp, ?_, fun hi => ?_, fun _ => rfl⟩
    · rw [List.append_nil, List.take_length]
      exact viable_of_feed hus hfeed
    · simp at hi

/-- Behind the second `{`, which the grammar has no place for, stand tokens that would be fine
elsewhere. -/
theorem parse_error_located_nested :
    let ts : List Token := [⟨.keywordReturn, "return".toList, 0⟩,
      ⟨.keywordFunction, "function".toList, 7⟩, ⟨.name, ['f'], 16⟩, ⟨.parenOpen, ['('], 17⟩,
      ⟨.name, ['a'], 18⟩, ⟨.parenClose, [')'], 19⟩, ⟨.braceOpen, ['\x7b'], 20⟩,
      ⟨.braceOpen, ['\x7b'], 21⟩, ⟨.semicolon, [';'], 22⟩]
    ∃ stop e found, parse ⟨true, false⟩ ts = .error stop ∧ stop.fault = .unexpected e found ∧
      describeFound found = (Token.mk .braceOpen ['\x7b'] 21).describe ∧
      Viable ⟨true, false⟩ (ts.take 7) ∧
      ∀ us p, parse ⟨true, false⟩ (ts.take 8 ++ us) ≠ .ok p := by
  intro ts
  have hts : ∀ t ∈ ts, t.Proper := by decide
  have h : (parse ⟨true, false⟩ ts).isOk = false := by decide
  cases hp : parse ⟨true, false⟩ ts with
  | ok p => rw [hp] at h; cases h
  | error stop =>
    obtain ⟨e, found, hfault, -, hviable, hnext, -⟩ := parse_error_located _ ts stop hts hp
    have hpos : stop.position = 7 := by cases hp; rfl
    have hi : stop.position < ts.length := by rw [hpos]; decide
    obtain ⟨hfound, hnone⟩ := hnext hi
    have hget : ts.get ⟨stop.position, hi⟩ = ⟨.braceOpen, ['\x7b'], 21⟩ := by
      simp only [hpos]
      rfl
    rw [hget] at hfound
    rw [hpos] at hviable hnone
    exact ⟨stop, e, found, rfl, hfault, hfound, hviable, hnone⟩

end TypeStrip
