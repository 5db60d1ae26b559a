import TypeStrip.Proofs.Parsing.Reads

/-!
# Passes up to the first node

* `ParseState.done_of_step`   a node finished outside of everything else leaves nothing open;
* `walkFrom_append`           a pass that has finished none so far goes on from its state;
* `walkFrom_eq_ok_iff`        a pass ends behind a spelling of one node that keeps within the room
                              there is, whatever follows;
* `position_of_walkFrom`      a pass that fails stops among the tokens it was given;
* `walkFrom_of_room_le`       a pass that fails fails with less room too, in the same way or earlier
                              for want of room.
-/

namespace TypeStrip

variable {o : Options} {room : Int}

/-! ### Finished nodes -/

namespace ParseState

variable {s s' : ParseState} {t : Token}

theorem add_done (hh : s.header = none) (n : Node) :
    (s.add n).done = s.done ∨ s.add n = ⟨n :: s.done, [], none⟩ := by
  obtain ⟨done, opened, header⟩ := s
  cases hh
  cases opened with
  | nil => exact .inr rfl
  | cons f fs => exact .inl rfl

/-- A token leaves the finished nodes as they are, or it finishes one more, with nothing left
open. -/
theorem done_of_step (h : s.step o room t = .ok s') :
    s'.done = s.done ∨ ∃ n, s' = ⟨n :: s.done, [], none⟩ := by
  have hadd : ∀ (fs : List Frame) (n : Node), s.header = none →
      (ParseState.add n { s with opened := fs }).done = s.done ∨
        ∃ n', ParseState.add n { s with opened := fs } = ⟨n' :: s.done, [], none⟩ := by
    intro fs n hh
    rcases add_done (s := { s with opened := fs }) hh n with h | h
    · exact .inl h
    · exact .inr ⟨n, h⟩
  unfold step at h
  split at h
  · next hh =>
    rcases bodyStep_eq_ok h with ⟨vs, fs, -, -, -, rfl⟩ | ⟨name, ps, type, ns, fs, -, -, rfl⟩ |
      ⟨-, hnode⟩
    · exact hadd fs _ hh
    · exact hadd fs _ hh
    · rcases nodeStep_eq_ok hnode with ⟨n, -, rfl⟩ | ⟨-, -, rfl⟩ | ⟨-, -, rfl⟩
      · exact hadd s.opened n hh
      · exact .inl rfl
      · exact .inl rfl
  · split at h <;> cases h
    · exact .inl rfl
    · exact .inl rfl

end ParseState

theorem done_suffix_feed {s s' : ParseState} {p : Nat} {ts : List Token}
    (h : feed o room s p ts = .ok s') : s.done <:+ s'.done := by
  induction ts generalizing s p with
  | nil =>
    cases h
    exact List.suffix_rfl
  | cons t ts ih =>
    unfold feed at h
    split at h
    · cases h
    · next s₁ hstep =>
      have hstep' : s.done <:+ s₁.done := by
        rcases ParseState.done_of_step hstep with hd | ⟨n, rfl⟩
        · exact hd ▸ List.suffix_rfl
        · exact List.suffix_cons n s.done
      exact hstep'.trans (ih h)

theorem walkFrom_append {s s' : ParseState} {p : Nat} {us : List Token} (vs : List Token)
    (h : feed o room s p us = .ok s') (hd : s'.done = []) :
    walkFrom o room s p (us ++ vs) = walkFrom o room s' (p + us.length) vs := by
  induction us generalizing s p with
  | nil =>
    cases h
    rfl
  | cons t us ih =>
    unfold feed at h
    split at h
    · cases h
    · next s₁ hstep =>
      have hd₁ : s₁.done = [] := List.suffix_nil.mp (hd ▸ done_suffix_feed h)
      rw [List.cons_append, walkFrom, hstep]
      simp only [hd₁]
      rw [ih h, List.length_cons, Nat.add_assoc, Nat.add_comm 1]

/-! ### Spellings of one node -/

/-- The tokens read so far and those of the pass together spell the node it ends with. -/
theorem spells_of_walkFrom {s : ParseState} {rs ts : List Token} {p q : Nat} {n : Node}
    (hs : s.Reads o room rs) (hd : s.done = []) (h : walkFrom o room s p ts = .ok (n, q)) :
    ∃ us vs, ts = us ++ vs ∧ q = p + us.length ∧ Spells o (rs ++ us) [n] ∧ Fits room 0 [n] := by
  induction ts generalizing s rs p with
  | nil =>
    unfold walkFrom at h
    split at h <;> cases h
  | cons t ts ih =>
    unfold walkFrom at h
    split at h
    · cases h
    · next s' hstep =>
      have hs' : s'.Reads o room (rs ++ [t]) := hs.step hstep
      rcases ParseState.done_of_step hstep with hd' | ⟨m, rfl⟩
      · rw [hd] at hd'
        simp only [hd'] at h
        obtain ⟨us, vs, rfl, rfl, hsp, hfit⟩ := ih hs' hd' h
        refine ⟨t :: us, vs, rfl, ?_, ?_, hfit⟩
        · rw [List.length_cons]
          omega
        · simpa using hsp
      · cases h
        rw [hd] at hs'
        cases hs' with
        | done hsp hfit => exact ⟨[t], ts, rfl, rfl, hsp, hfit⟩

/-- Nothing is finished before the last token of a node. -/
theorem Spells.exists_last {ts : List Token} {n : Node} (h : Spells o ts [n])
    (hfit : Fits room 0 [n]) : ∃ us e s, ts = us ++ [e] ∧ Runs o room .start us s ∧ s.done = [] ∧
      s.step o room e = .ok ⟨[n], [], none⟩ := by
  cases h with
  | @leaf t _ us _ hn hns =>
    cases hns
    have hstep : ParseState.start.step o room t = .ok ⟨[n], [], none⟩ :=
      ParseState.step_leaf hn rfl fun hr => Bool.noConfusion hr
    exact ⟨[], t, .start, rfl, Runs.nil _, rfl, hstep⟩
  | @returns r e ts us values _ hr hv hne hsemi he hns =>
    cases hns
    have hnest : (Node.returns values).nesting = 1 + Node.nestingList values := rfl
    obtain ⟨hroom, hvalues⟩ := (fits_construct hnest).mp hfit
    have hrun := hv.runs (s := ⟨[], [.returning []], none⟩) ⟨rfl, fun _ => hsemi, hvalues⟩
    rw [ParseState.addAll_opened, Frame.nodes, List.append_nil] at hrun
    refine ⟨r :: ts, e, _, rfl, Runs.cons (ParseState.step_return rfl hr hroom) hrun, rfl, ?_⟩
    show ParseState.step o room ⟨[], [.returning values.reverse], none⟩ e = _
    rw [ParseState.step_semicolon he (by simpa using hne), List.reverse_reverse]
    rfl
  | @function e hs ts us name params type body _ hhead hb he hns =>
    cases hns
    have hnest : (Node.function name params type body).nesting = 1 + Node.nestingList body := rfl
    obtain ⟨hroom, hbody⟩ := (fits_construct hnest).mp hfit
    have hrun := hb.runs (s := ⟨[], [.body name.text params type []], none⟩)
      ⟨rfl, fun hr => Bool.noConfusion hr, hbody⟩
    rw [ParseState.addAll_opened, Frame.nodes, List.append_nil] at hrun
    refine ⟨hs ++ ts, e, _, rfl, (runs_head [] [] hhead hroom).append hrun, rfl, ?_⟩
    show ParseState.step o room ⟨[], [.body name.text params type body.reverse], none⟩ e = _
    rw [ParseState.step_braceClose he, List.reverse_reverse]
    rfl

theorem walkFrom_eq_ok_iff {p q : Nat} {ts : List Token} {n : Node} :
    walkFrom o room .start p ts = .ok (n, q) ↔
      ∃ us vs, ts = us ++ vs ∧ q = p + us.length ∧ Spells o us [n] ∧ Fits room 0 [n] := by
  constructor
  · intro h
    have hstart : ParseState.start.Reads o room [] := Reads.done .nil (Fits.nil 0)
    exact spells_of_walkFrom hstart rfl h
  · rintro ⟨_, vs, rfl, rfl, hsp, hfit⟩
    obtain ⟨us, e, s, rfl, hrun, hd, hstep⟩ := hsp.exists_last hfit
    rw [List.append_assoc, walkFrom_append _ (hrun p) hd, List.singleton_append, walkFrom, hstep,
      List.length_append, List.length_singleton, Nat.add_assoc]

/-! ### Failing passes -/

theorem Header.length_finish (h : Header) : h.finish.length = 0 := by
  have hsettle : ∀ p, (settleEnd p).length = 0 := by
    intro p
    unfold settleEnd
    split <;> rfl
  cases h with
  | param name ps p => exact hsettle p
  | paramTyped name ps p type => exact hsettle p
  | start | named _ | params _ _ | paramColon _ _ _ | closed _ _ | returnColon _ _ | typed _ _ _ =>
    rfl

/-- The end of the input is not read. -/
theorem ParseState.length_of_finish {s : ParseState} {r : Refusal} (h : s.finish = .error r) :
    r.length = 0 := by
  unfold finish at h
  split at h
  · cases h
    exact Header.length_finish _
  · cases h
    rfl
  · cases h
    rfl
  · cases h

theorem Refusal.length_le (r : Refusal) : r.length ≤ 1 := by
  cases r with
  | unexpected e => exact Nat.zero_le 1
  | flawed f read =>
    show (if read = true then 1 else 0) ≤ 1
    split <;> omega

theorem position_of_walkFrom {s : ParseState} {p : Nat} {ts : List Token} {e : ParseStop}
    (h : walkFrom o room s p ts = .error e) : p ≤ e.position ∧ e.position ≤ p + ts.length := by
  induction ts generalizing s p with
  | nil =>
    unfold walkFrom at h
    split at h
    · next r hr =>
      cases h
      have hlen := ParseState.length_of_finish hr
      simp only [ParseStop.ofRefusal, List.length_nil]
      omega
    · cases h
      exact ⟨Nat.le_refl p, Nat.le_refl p⟩
  | cons t ts ih =>
    rw [List.length_cons]
    unfold walkFrom at h
    split at h
    · next r hr =>
      cases h
      have hlen := r.length_le
      simp only [ParseStop.ofRefusal]
      omega
    · split at h
      · cases h
      · have hpos := ih h
        omega

/-! ### Less room -/

namespace ParseState

variable {m M : Int}

theorem nodeStep_of_room_le (h : m ≤ M) (s : ParseState) (t : Token) :
    nodeStep m s t = nodeStep M s t ∨ nodeStep m s t = .error (.unexpected .shallowerNesting) := by
  by_cases hm : m ≤ s.opened.length
  · unfold nodeStep
    cases t.kind with
    | keywordReturn | keywordFunction => exact .inr (if_pos hm)
    | _ => exact .inl rfl
  · have hM : ¬ M ≤ s.opened.length := by omega
    left
    unfold nodeStep
    rw [if_neg hm, if_neg hm, if_neg hM, if_neg hM]

/-- With less room a token is treated in the same way, or it is a keyword for which there is no
room. -/
theorem step_of_room_le (h : m ≤ M) (s : ParseState) (t : Token) :
    s.step o m t = s.step o M t ∨ s.step o m t = .error (.unexpected .shallowerNesting) := by
  unfold step
  cases s.header with
  | some hd => exact .inl rfl
  | none =>
    unfold bodyStep
    cases hs : s.opened with
    | nil => exact nodeStep_of_room_le h s t
    | cons f fs =>
      cases f with
      | returning vs =>
        by_cases hk : t.kind = .semicolon
        · simp only [if_pos hk, true_or]
        · simp only [if_neg hk]
          exact nodeStep_of_room_le h s t
      | body name ps type ns =>
        by_cases hk : t.kind = .braceClose
        · simp only [if_pos hk, true_or]
        · simp only [if_neg hk]
          exact nodeStep_of_room_le h s t

end ParseState

theorem walkFrom_of_room_le {m M : Int} (h : m ≤ M) {s : ParseState} {p : Nat} {ts : List Token}
    {e : ParseStop} (he : walkFrom o M s p ts = .error e) :
    walkFrom o m s p ts = .error e ∨ ∃ t q s', q ≤ e.position ∧
      walkFrom o m s p ts = .error ⟨.unexpected .shallowerNesting (some t), q, s'⟩ := by
  induction ts generalizing s p with
  | nil => exact .inl he
  | cons t ts ih =>
    rcases s.step_of_room_le (o := o) h t with hstep | hstep
    · unfold walkFrom at he ⊢
      rw [hstep]
      split at he
      · exact .inl he
      · split at he
        · cases he
        · exact ih he
    · refine .inr ⟨t, p, s, (position_of_walkFrom he).1, ?_⟩
      rw [walkFrom, hstep]
      rfl

end TypeStrip
