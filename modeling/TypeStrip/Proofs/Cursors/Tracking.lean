import TypeStrip.Cursor
import TypeStrip.Proofs.Parsing.Runs

/-!
# Readings and passes

A pass keeps a stack of open constructs and takes one token at a time.  A reading takes a part of
the input at once.  What a reading does is told by the state it takes a pass to.

* `Cursor.pass`           a pass from a state, at the place of a cursor;
* `Cursor.Along`          cursors that differ in their place only;
* `Cursor.Tracks`         a reading that does what a pass does from one state to the next;
* `Cursor.Tracks.andThen` and so does one such reading after another;
* `tracks_token`          reading one token does, in a state that waits for it;
* `tracks_heading`        reading the header of a function does.
-/

namespace TypeStrip

variable {o : Options} {room : Int}

namespace Cursor

variable {c : Cursor} {s s' : ParseState} {t : Token}

theorem rest_of_peek (h : c.peek = some t) : c.rest = t :: c.skip.rest := by
  obtain ⟨hlt, rfl⟩ := List.getElem?_eq_some_iff.mp h
  exact List.drop_eq_getElem_cons hlt

theorem rest_of_peek_eq_none (h : c.peek = none) : c.rest = [] :=
  List.drop_eq_nil_of_le (List.getElem?_eq_none_iff.mp h)

/-! ### Passes -/

/-- What comes of a pass from `s` over the tokens from `c` on, up to the first node that is done:
the node, or the fault, and the place where it ends. -/
def pass (o : Options) (room : Int) (s : ParseState) (c : Cursor) :
    Except (ParseFault × Nat) (Node × Nat) :=
  match s.done with
  | n :: _ => .ok (n, c.position)
  | [] =>
    match walkFrom o room s c.position c.rest with
    | .ok r => .ok r
    | .error e => .error (e.fault, e.position)

theorem pass_of_done (hd : s.done = []) : pass o room s c =
    match walkFrom o room s c.position c.rest with
    | .ok r => .ok r
    | .error e => .error (e.fault, e.position) := by
  unfold pass
  rw [hd]

theorem pass_step (hd : s.done = []) (ht : c.peek = some t) (h : s.step o room t = .ok s') :
    pass o room s c = pass o room s' c.skip := by
  unfold pass
  rw [hd, rest_of_peek ht]
  simp only [walkFrom, h]
  cases s'.done <;> rfl

theorem pass_refused {r : Refusal} (hd : s.done = []) (ht : c.peek = some t)
    (h : s.step o room t = .error r) :
    pass o room s c = .error (r.fault (some t), c.position + r.length) := by
  rw [pass_of_done hd, rest_of_peek ht]
  simp only [walkFrom, h, ParseStop.ofRefusal]

theorem pass_end {r : Refusal} (hd : s.done = []) (ht : c.peek = none)
    (h : s.finish = .error r) :
    pass o room s c = .error (r.fault none, c.position + r.length) := by
  rw [pass_of_done hd, rest_of_peek_eq_none ht]
  simp only [walkFrom, h, ParseStop.ofRefusal]

/-- States that take the current token, or the end of the input, in the same way. -/
theorem pass_congr (hd : s.done = []) (hd' : s'.done = [])
    (hstep : ∀ t, c.peek = some t → s.step o room t = s'.step o room t)
    {r : Refusal} (hend : c.peek = none → s.finish = .error r ∧ s'.finish = .error r) :
    pass o room s c = pass o room s' c := by
  cases ht : c.peek with
  | none =>
    obtain ⟨h, h'⟩ := hend ht
    rw [pass_end hd ht h, pass_end hd' ht h']
  | some t =>
    cases h : s'.step o room t with
    | error r => rw [pass_refused hd ht ((hstep t ht).trans h), pass_refused hd' ht h]
    | ok s₁ => rw [pass_step hd ht ((hstep t ht).trans h), pass_step hd' ht h]

/-! ### Readings and passes -/

theorem Reading.andThen_eq_ok {n m : Nat} {α β : Type} {r : Reading n α}
    {f : α → (c : Cursor) → c.left < n → Reading m β} {b : β} {c' : Cursor}
    (h : (r.andThen f).outcome = (.ok b, c')) :
    ∃ a c₁ hlt, r.outcome = (.ok a, c₁) ∧ (f a c₁ hlt).outcome = (.ok b, c') := by
  obtain ⟨⟨outcome, c₁⟩, hlt⟩ := r
  cases outcome with
  | error e => cases h
  | ok a => exact ⟨a, c₁, hlt a c₁ rfl, rfl, h⟩

/-- The same cursor at another place. -/
def Along (c c' : Cursor) : Prop := c' = { c with position := c'.position }

theorem Along.refl (c : Cursor) : c.Along c := rfl

theorem Along.trans {c₁ c₂ c₃ : Cursor} (h : c₁.Along c₂) (h' : c₂.Along c₃) : c₁.Along c₃ := by
  unfold Along at h h' ⊢
  rw [h] at h'
  exact h'

theorem along_skip (c : Cursor) : c.Along c.skip := rfl

/-- The constructs that may still be entered at a cursor are those that a state has room for. -/
def Agrees (room : Int) (c : Cursor) (opened : Nat) : Prop := c.limit - c.depth = room - opened

theorem Along.agrees {c' : Cursor} {opened : Nat} (h : c.Along c')
    (hc : Agrees room c opened) : Agrees room c' opened := by
  rw [h]
  exact hc

/-- A reading from `c` does what a pass does from `s`: where the reading has a result, the pass
goes on from the state `next` for it, and otherwise it fails in the same way. -/
structure Tracks {n : Nat} {α : Type} (o : Options) (room : Int) (s : ParseState) (c : Cursor)
    (r : Reading n α) (next : α → ParseState) : Prop where
  along : c.Along r.outcome.2
  ok : ∀ a c', r.outcome = (.ok a, c') → pass o room s c = pass o room (next a) c'
  error : ∀ e c', r.outcome = (.error e, c') → pass o room s c = .error (e, c'.position)

namespace Tracks

variable {n m : Nat} {α β : Type} {next : α → ParseState}

theorem of_ok {r : Reading n α} {c' : Cursor} {a : α} (hr : r.outcome = (.ok a, c'))
    (hc : c.Along c') (hpass : pass o room s c = pass o room (next a) c') :
    Tracks o room s c r next := by
  refine ⟨by rw [hr]; exact hc, fun b c'' heq => ?_, fun e c'' heq => ?_⟩
  · rw [hr] at heq
    cases heq
    exact hpass
  · rw [hr] at heq
    cases heq

theorem of_error {r : Reading n α} {c' : Cursor} {e : ParseFault}
    (hr : r.outcome = (.error e, c')) (hc : c.Along c')
    (hpass : pass o room s c = .error (e, c'.position)) : Tracks o room s c r next := by
  refine ⟨by rw [hr]; exact hc, fun a c'' heq => ?_, fun e' c'' heq => ?_⟩
  · rw [hr] at heq
    cases heq
  · rw [hr] at heq
    cases heq
    exact hpass

theorem give {c' : Cursor} {a : α} {h : c'.left < n} (hc : c.Along c')
    (hpass : pass o room s c = pass o room (next a) c') :
    Tracks o room s c (Reading.give a c' h) next := .of_ok rfl hc hpass

theorem fail {c' : Cursor} {e : ParseFault} (hc : c.Along c')
    (hpass : pass o room s c = .error (e, c'.position)) :
    Tracks o room s c (Reading.fail (n := n) e c') next := .of_error rfl hc hpass

/-- A pass that reaches `s'` at `c'` does from there what a reading does. -/
theorem of_pass {c' : Cursor} {r : Reading n α} (hc : c.Along c')
    (hpass : pass o room s c = pass o room s' c') (h : Tracks o room s' c' r next) :
    Tracks o room s c r next :=
  ⟨hc.trans h.along, fun a c'' heq => hpass.trans (h.ok a c'' heq),
    fun e c'' heq => hpass.trans (h.error e c'' heq)⟩

theorem weaken {r : Reading n α} (h : Tracks o room s c r next) (hle : n ≤ m) :
    Tracks o room s c (r.weaken hle) next :=
  ⟨h.along, h.ok, h.error⟩

theorem andThen {r : Reading n α} {f : α → (c : Cursor) → c.left < n → Reading m β}
    {mid : α → ParseState} {next : β → ParseState} (h : Tracks o room s c r mid)
    (hf : ∀ a c' hlt, r.outcome = (.ok a, c') → c.Along c' →
      Tracks o room (mid a) c' (f a c' hlt) next) :
    Tracks o room s c (r.andThen f) next := by
  obtain ⟨⟨outcome, c'⟩, hlt⟩ := r
  cases outcome with
  | error e => exact .fail h.along (h.error e c' rfl)
  | ok a => exact (hf a c' (hlt a c' rfl) rfl h.along).of_pass h.along (h.ok a c' rfl)

/-- What is read one level further in leaves the level as it was. -/
theorem ascend {r : Reading n α} (h : Tracks o room s c.deeper r next) :
    Tracks o room s c r.ascend next := by
  obtain ⟨⟨outcome, c'⟩, hlt⟩ := r
  have hback : c.Along c'.ascend := by
    have hc' : c' = { c.deeper with position := c'.position } := h.along
    have hdepth : c.depth + 1 - 1 = c.depth := by omega
    unfold Along
    rw [hc']
    show Cursor.mk c.tokens c'.position (c.depth + 1 - 1) c.limit = _
    rw [hdepth]
    rfl
  refine ⟨hback, fun a c'' heq => ?_, fun e c'' heq => ?_⟩
  · obtain ⟨ha, rfl⟩ := Prod.mk.inj heq
    exact h.ok a c' (Prod.ext ha rfl)
  · obtain ⟨he, rfl⟩ := Prod.mk.inj heq
    exact h.error e c' (Prod.ext he rfl)

end Tracks

theorem kind_of_check {k : Kind} (h : c.check k = true) (ht : c.peek = some t) :
    t.kind = k := by
  obtain ⟨u, hu, hk⟩ := exists_of_check h
  rw [ht] at hu
  cases hu
  exact hk

theorem kind_ne_of_check {k : Kind} (h : ¬ c.check k = true) (ht : c.peek = some t) :
    t.kind ≠ k := by
  intro hk
  apply h
  unfold check
  rw [ht]
  exact decide_eq_true hk

/-- Where a state waits for one kind of token, a pass does what reading such a token does. -/
theorem tracks_token {k : Kind} {e : Expectation} {next : Token → ParseState}
    (hd : s.done = [])
    (hok : ∀ t, c.peek = some t → t.kind = k → s.step o room t = .ok (next t))
    (hno : ∀ t, c.peek = some t → t.kind ≠ k → s.step o room t = .error (.unexpected e))
    (hend : c.peek = none → s.finish = .error (.unexpected e)) :
    Tracks o room s c (c.token k e) next := by
  cases ht : c.peek with
  | none =>
    have hreq : c.require k e = (.error (.unexpected e none), c) := by
      unfold require check
      rw [ht]
      rfl
    exact .of_error hreq (Along.refl c) (pass_end hd ht (hend ht))
  | some t =>
    by_cases hk : t.kind = k
    · have hreq : c.require k e = (.ok t, c.skip) := by
        unfold require check advance
        rw [ht]
        exact if_pos (decide_eq_true hk)
      exact .of_ok hreq (along_skip c) (pass_step hd ht (hok t ht hk))
    · have hreq : c.require k e = (.error (.unexpected e (some t)), c) := by
        unfold require check
        rw [ht]
        exact if_neg (by simpa using hk)
      exact .of_error hreq (Along.refl c) (pass_refused hd ht (hno t ht hk))

/-! ### Headers -/

section
variable (fs : List Frame) {name : Text} {ps : List Param}

/-- A pass inside a header. -/
def inHeader (h : Header) : ParseState := ⟨[], fs, some h⟩

theorem finish_inHeader (h : Header) : (inHeader fs h).finish = .error h.finish := rfl

theorem step_inHeader {h h' : Header} (hstep : h.step o t = .ok (.more h')) :
    (inHeader fs h).step o room t = .ok (inHeader fs h') := ParseState.step_more hstep

theorem step_inHeader_refused {h : Header} {r : Refusal} (hstep : h.step o t = .error r) :
    (inHeader fs h).step o room t = .error r := by
  simp only [ParseState.step, inHeader, hstep]

theorem step_inHeader_congr {h h' : Header} (hstep : h.step o t = h'.step o t) :
    (inHeader fs h).step o room t = (inHeader fs h').step o room t := by
  simp only [ParseState.step, inHeader]
  rw [hstep]

/-- A stage that waits for one kind of token. -/
theorem tracks_stage {h : Header} {next : Token → Header} {k : Kind} {e : Expectation}
    (hstep : ∀ t, c.peek = some t →
      h.step o t = if t.kind = k then .ok (.more (next t)) else .error (.unexpected e))
    (hend : h.finish = .unexpected e) :
    Tracks o room (inHeader fs h) c (c.token k e) fun t => inHeader fs (next t) := by
  refine tracks_token rfl (fun t ht hk => ?_) (fun t ht hk => ?_) (fun _ => ?_)
  · exact step_inHeader fs ((hstep t ht).trans (if_pos hk))
  · exact step_inHeader_refused fs ((hstep t ht).trans (if_neg hk))
  · rw [finish_inHeader, hend]

/-- At a stage behind a parameter, a pass does what settling the parameter does: it may be settled
only when the token behind it is seen, but then it is as if it had been settled before. -/
theorem tracks_settle {h : Header} {p : Text} {type : Option Text} {n : Nat} {hlt : c.left < n}
    (hstep : ∀ t, c.peek = some t → h.step o t = Header.settle name ps p type t)
    (hend : h.finish = Header.settleEnd p) :
    Tracks o room (inHeader fs h) c (settle p type c hlt)
      fun q => inHeader fs (.params name (q :: ps)) := by
  have hfinish : (inHeader fs h).finish = .error (Header.settleEnd p) := by
    rw [finish_inHeader, hend]
  unfold settle
  split
  · next hcomma =>
    obtain ⟨t, ht, hk⟩ := exists_of_check hcomma
    have hsettle := hstep t ht
    unfold settle.build
    cases hp : Name.ofText? p with
    | none =>
      rw [Header.settle, hp, decide_eq_true hk] at hsettle
      exact .fail (along_skip c) (pass_refused rfl ht (step_inHeader_refused fs hsettle))
    | some q =>
      rw [Header.settle_comma (Name.ofText?_eq_some_iff.mp hp) hk] at hsettle
      exact .give (along_skip c) (pass_step rfl ht (step_inHeader fs hsettle))
  · next hcomma =>
    unfold settle.build
    unfold Header.settleEnd at hfinish
    cases hp : Name.ofText? p with
    | none =>
      rw [hp] at hfinish
      refine .fail (Along.refl c) ?_
      cases ht : c.peek with
      | none => exact pass_end rfl ht hfinish
      | some t =>
        have hsettle := hstep t ht
        rw [Header.settle, hp, decide_eq_false (kind_ne_of_check hcomma ht)] at hsettle
        exact pass_refused rfl ht (step_inHeader_refused fs hsettle)
    | some q =>
      rw [hp] at hfinish
      refine .give (Along.refl c) (pass_congr rfl rfl (fun t ht => ?_) fun _ => ⟨hfinish, rfl⟩)
      apply step_inHeader_congr
      rw [hstep t ht]
      exact Header.settle_eq (Name.ofText?_eq_some_iff.mp hp) (kind_ne_of_check hcomma ht)

theorem tracks_param (hclose : ¬ c.check .parenClose = true) :
    Tracks o room (inHeader fs (.params name ps)) c c.param
      fun q => inHeader fs (.params name (q :: ps)) := by
  have hname : Tracks o room (inHeader fs (.params name ps)) c
      (c.token .name .paramOrParenClose) fun t => inHeader fs (.param name ps t.text) := by
    refine tracks_stage fs (fun t ht => ?_) rfl
    have hne := kind_ne_of_check hclose ht
    rw [Header.step, Header.paramsStep]
    split
    · next h => exact absurd h hne
    · next h => exact (if_pos h).symm
    · next h => exact (if_neg h).symm
  refine hname.andThen fun n c' hlt _ _ => ?_
  split
  · next hcolon =>
    obtain ⟨t, ht, hk⟩ := exists_of_check hcolon
    have hstep : Header.step o t (.param name ps n.text) =
        .ok (.more (.paramColon name ps n.text)) := if_pos hk
    refine Tracks.of_pass (along_skip c') (pass_step rfl ht (step_inHeader fs hstep)) ?_
    exact (tracks_stage fs (fun _ _ => rfl) rfl).andThen fun type c'' hlt' _ _ =>
      tracks_settle fs (fun _ _ => rfl) rfl
  · next hcolon =>
    exact tracks_settle fs (fun t ht => if_neg (kind_ne_of_check hcolon ht)) rfl

theorem tracks_params : Tracks o room (inHeader fs (.params name ps)) c (c.params ps)
    fun qs => inHeader fs (.closed name qs.reverse) := by
  fun_induction Cursor.params ps c with
  | case1 ps c hclose =>
    obtain ⟨t, ht, hk⟩ := exists_of_check hclose
    have hstep : Header.step o t (.params name ps) = .ok (.more (.closed name ps)) := by
      rw [Header.step, Header.paramsStep, hk]
    refine .give (along_skip c) ?_
    rw [List.reverse_reverse]
    exact pass_step rfl ht (step_inHeader fs hstep)
  | case2 ps c hclose ih =>
    exact (tracks_param fs hclose).andThen fun p c' hlt _ _ => (ih p c' hlt).weaken _

/-- The brace that opens a body, at a stage that waits for it. -/
theorem tracks_opening {h : Header} {qs : List Param} {type : Option Text}
    (hstep : ∀ t, c.peek = some t → h.step o t =
      if t.kind = .braceOpen then .ok (.opens name qs.reverse type)
      else .error (.unexpected .braceOpen))
    (hend : c.peek = none → h.finish = .unexpected .braceOpen) :
    Tracks o room (inHeader fs h) c (c.token .braceOpen .braceOpen)
      fun _ => ⟨[], .body name qs type [] :: fs, none⟩ := by
  refine tracks_token rfl (fun t ht hk => ?_) (fun t ht hk => ?_) (fun hnone => ?_)
  · have hopens : (inHeader fs h).step o room t =
        .ok ⟨[], .body name qs.reverse.reverse type [] :: fs, none⟩ :=
      ParseState.step_opens ((hstep t ht).trans (if_pos hk))
    rwa [List.reverse_reverse] at hopens
  · exact step_inHeader_refused fs ((hstep t ht).trans (if_neg hk))
  · rw [finish_inHeader, hend hnone]

/-- Behind the closing parenthesis: either a type follows, or the body begins at once where that is
allowed. -/
theorem tracks_heading : Tracks o room (inHeader fs .start) c (c.heading o)
    fun hd => ⟨[], .body hd.name hd.params hd.returnType [] :: fs, none⟩ := by
  refine (tracks_stage fs (fun _ _ => rfl) rfl).andThen fun n c _ _ _ => ?_
  refine (tracks_stage fs (fun _ _ => rfl) rfl).andThen fun _ c _ _ _ => ?_
  refine (tracks_params fs).andThen fun qs c _ _ _ => ?_
  split
  · next hreq =>
    have hcolon : Tracks o room (inHeader fs (.closed n.text qs.reverse)) c
        (c.token .colon .colonAfterParams)
        fun _ => inHeader fs (.returnColon n.text qs.reverse) := by
      refine tracks_stage fs (fun t ht => ?_) rfl
      have hbody : ¬ (!o.requireReturnType && t.kind = .braceOpen) = true := by
        intro h
        simp only [Bool.and_eq_true, Bool.not_eq_true', decide_eq_true_eq] at h
        rw [h.1, Bool.false_or, Bool.not_eq_true'] at hreq
        exact kind_ne_of_check (by rw [hreq]; exact Bool.false_ne_true) ht h.2
      show (if t.kind = .colon then _ else if _ then _ else _) = _
      rw [if_neg hbody]
    refine hcolon.andThen fun _ c _ _ _ => ?_
    refine (tracks_stage fs (fun _ _ => rfl) rfl).andThen fun type c _ _ _ => ?_
    exact (tracks_opening fs (fun _ _ => rfl) fun _ => rfl).andThen fun _ c _ _ _ =>
      .give (Along.refl c) rfl
  · next hreq =>
    obtain ⟨hlenient, hopen⟩ : o.requireReturnType = false ∧ c.check .braceOpen = true := by
      simpa using hreq
    obtain ⟨t, ht, hk⟩ := exists_of_check hopen
    have hstep : ∀ u, c.peek = some u → Header.step o u (.closed n.text qs.reverse) =
        if u.kind = .braceOpen then .ok (.opens n.text qs.reverse none)
        else .error (.unexpected .braceOpen) := by
      intro u hu
      have hku := kind_of_check hopen hu
      simp only [Header.step, hku, hlenient]
      rfl
    exact (tracks_opening fs hstep (by simp [ht])).andThen fun _ c _ _ _ =>
      .give (Along.refl c) rfl

end

end Cursor

end TypeStrip
