import TypeStrip.Proofs.Segmentation

/-!
# Readable texts

Whether a text can be scanned at all does not depend on where its lexemes end: it only has to keep
to known characters outside of its strings, and every string has to end.

* `Offends`                  why no item can be read at a place, said without a reader;
* `Item.read_eq_error_iff`   nothing else keeps an item from being read;
* `readable`                 the condition, one character at a time;
* `readable_text`            valid lexemes and blanks are readable in any order, also where some of
                             them run together;
* `exists_tokens`            a readable text is scanned.
-/

namespace TypeStrip

/-- The characters that may stand outside of strings. -/
def isKnown (c : Char) : Bool :=
  (Kind.ofPunctuation? c).isSome || isBlank c || isDigit c || isLetter c || isOperator c

/-- Nothing can be read at the front of `c :: s`: the character belongs to no class, or it is a
quote and no other quote follows. -/
inductive Offends (c : Char) (s : Text) : ReadFault → Prop where
  | unknown (hc : isKnown c = false) (hq : c ≠ '"') : Offends c s (.unknown c)
  | unterminated (hc : c = '"') (hs : '"' ∉ s) : Offends c s .unterminated

/-- Known characters outside of quotes, and quotes in pairs; `inside` tells whether a quote is
open. -/
def readable (inside : Bool) : Text → Bool
  | [] => !inside
  | c :: s => if c = '"' then readable (!inside) s else (inside || isKnown c) && readable inside s

variable {boundary : Bool}

theorem readable_quote (inside : Bool) (s : Text) :
    readable inside ('"' :: s) = readable (!inside) s := by
  rw [readable, if_pos rfl]

theorem readable_known {w : Text} (hw : ∀ c ∈ w, isKnown c = true) (r : Text) :
    readable false (w ++ r) = readable false r := by
  induction w with
  | nil => rfl
  | cons c w ih =>
    have hc := hw c List.mem_cons_self
    have hq : c ≠ '"' := by
      rintro rfl
      exact absurd hc (by decide)
    rw [List.cons_append, readable, if_neg hq, hc, Bool.false_or, Bool.true_and]
    exact ih fun d hd => hw d (List.mem_cons_of_mem _ hd)

theorem readable_inside {s : Text} (hs : '"' ∉ s) (r : Text) :
    readable true (s ++ r) = readable true r := by
  induction s with
  | nil => rfl
  | cons c s ih =>
    obtain ⟨hc, hs⟩ := not_or.mp (mt List.mem_cons.mpr hs)
    rw [List.cons_append, readable, if_neg (Ne.symm hc), Bool.true_or, Bool.true_and, ih hs]

theorem readable_lexeme {l : Lexeme} (h : l.Valid boundary) (r : Text) :
    readable false (l.text ++ r) = readable false r := by
  obtain ⟨k, w⟩ := l
  cases k with
  | number => exact readable_known (fun c hc => by simp [isKnown, h.2 c hc]) r
  | name => exact readable_known (fun c hc => by simp [isKnown, h.2.1 c hc]) r
  | string =>
    obtain ⟨s, rfl, hs⟩ := h
    show readable false ('"' :: (s ++ ['"']) ++ r) = _
    rw [List.cons_append, List.append_assoc, readable_quote, Bool.not_false, readable_inside hs]
    exact readable_quote true r
  | operator =>
    obtain ⟨c, hc, rfl⟩ := h
    exact readable_known (fun d hd => by simp [isKnown, List.mem_singleton.mp hd, hc]) r
  | keywordReturn | keywordFunction | parenOpen | parenClose | braceOpen | braceClose | colon
  | comma | semicolon =>
    cases h
    exact readable_known (List.all_eq_true.mp (by decide)) r

theorem readable_blanks {g : Text} (hg : Blanks g) (r : Text) :
    readable false (g ++ r) = readable false r :=
  readable_known (fun c hc => by simp [isKnown, hg c hc]) r

theorem readable_text {ps : List Piece} (h : ∀ p ∈ ps, p.Sound boundary) :
    readable false (Piece.text ps) = true := by
  induction ps with
  | nil => rfl
  | cons p ps ih =>
    have hp := h p List.mem_cons_self
    rw [Piece.text_cons, readable_lexeme hp.valid, readable_blanks hp.blank]
    exact ih fun q hq => h q (List.mem_cons_of_mem _ hq)

/-! ### Faults -/

theorem Offends.halts {c : Char} {s : Text} {e : ReadFault} (h : Offends c s e) :
    Halts (c :: s) := by
  rintro d ⟨⟩
  cases h with
  | unknown hc hq =>
    simp only [isKnown, Bool.or_eq_false_iff] at hc
    exact ⟨hc.1.1.2, hc.1.2⟩
  | unterminated hc hs =>
    subst hc
    decide

theorem Item.read_eq_error_iff {c : Char} {s : Text} {e : ReadFault} :
    Item.read boundary c s = .error e ↔ Offends c s e := by
  constructor
  · intro h
    have hreads := Item.reads boundary c s
    rw [h] at hreads
    cases hreads with
    | unterminated hc hs =>
      refine .unterminated hc fun hm => ?_
      have hne := List.dropWhile_eq_nil_iff.mp hs '"' hm
      simp at hne
    | unknown hp hb hd hl hc ho =>
      refine .unknown ?_ hc
      simp [isKnown, hp, hb, hd, hl, ho]
  · intro h
    have hk : keyword? boundary (c :: s) = none := keyword?_eq_none (h.halts c rfl).2
    cases h with
    | unknown hc hq =>
      simp only [isKnown, Bool.or_eq_false_iff, Option.isSome_eq_false_iff,
        Option.isNone_iff_eq_none] at hc
      obtain ⟨⟨⟨⟨hp, hb⟩, hd⟩, hl⟩, ho⟩ := hc
      simp only [Item.read, hp, hk, hb, hd, hl, hq, ho, Bool.false_eq_true, if_false]
    | unterminated hc hs =>
      subst hc
      have hdrop : s.dropWhile (· ≠ '"') = [] := by
        rw [List.dropWhile_eq_nil_iff]
        intro d hd
        simpa using fun he : d = '"' => hs (he ▸ hd)
      have hp : Kind.ofPunctuation? '"' = none := by decide
      have hb : isBlank '"' = false := by decide
      have hd : isDigit '"' = false := by decide
      have hl : isLetter '"' = false := by decide
      simp only [Item.read, hp, hk, hb, hd, hl, hdrop, if_true, Bool.false_eq_true, if_false]

theorem not_readable_of_offends {c : Char} {s : Text} {e : ReadFault} (h : Offends c s e) :
    readable false (c :: s) = false := by
  cases h with
  | unknown hc hq => rw [readable, if_neg hq, hc, Bool.or_self, Bool.false_and]
  | unterminated hc hs =>
    rw [hc, readable_quote, Bool.not_false, ← List.append_nil s, readable_inside hs]
    rfl

theorem exists_tokens {s : Text} (h : readable false s = true) (pos : Nat) :
    ∃ ts, scanFrom boundary pos s = .ok ts := by
  induction hn : s.length using Nat.strong_induction_on generalizing s pos with
  | _ n ih =>
  cases s with
  | nil => exact ⟨[], scanFrom_nil boundary pos⟩
  | cons c s =>
    cases hread : Item.read boundary c s with
    | error e =>
      rw [not_readable_of_offends (Item.read_eq_error_iff.mp hread)] at h
      contradiction
    | ok i =>
      have hlt := Item.length_rest_read hread
      cases i with
      | blank r =>
        obtain ⟨hc, rfl⟩ := Item.blank_of_read hread
        have hr : readable false r = true := by
          rw [← readable_known (w := [c]) (by simp [isKnown, hc]) r]
          exact h
        rw [scanFrom_blank pos hread]
        exact ih _ (hn ▸ hlt) hr (pos + 1) rfl
      | lexeme k w r =>
        obtain ⟨hsplit, hvalid, -⟩ := Item.valid_of_read hread
        have hr : readable false r = true := by
          rw [← readable_lexeme hvalid r, ← hsplit]
          exact h
        obtain ⟨ts, hts⟩ := ih _ (hn ▸ hlt) hr (pos + w.length) rfl
        exact ⟨⟨k, w, pos⟩ :: ts, by rw [scanFrom_lexeme pos hread, hts]; rfl⟩

end TypeStrip
