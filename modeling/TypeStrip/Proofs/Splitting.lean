import TypeStrip.Proofs.Cuts
import TypeStrip.Proofs.Readable

/-!
# Keywords without word boundaries

Where a keyword needs no word boundary, it is also found at the front of a longer word, and again
at the front of what is left of that word.  All else is scanned as with word boundaries, so the two
scans of a source meet at the end of every run of letters.

* `splitWord`          a run of letters cut into the keywords at its front and the rest;
* `Token.split`        a token cut in this way if it is a name;
* `scanFrom_letters`   without word boundaries a run of letters is scanned into its cut;
* `Item.read_legacy`   nothing but names is read in another way;
* `scan_legacy`        so names are split, and nothing else changes.
-/

namespace TypeStrip

/-! ### Cutting words -/

def leadingKeyword (w : Text) : Option (Kind × Text) := keywords.find? fun kw => kw.2.isPrefixOf w

theorem mem_of_leadingKeyword {w v : Text} {k : Kind} (h : leadingKeyword w = some (k, v)) :
    (k, v) ∈ keywords ∧ v ≠ [] ∧ v <+: w := by
  have hm := List.mem_of_find?_eq_some h
  have hp := List.find?_some h
  exact ⟨hm, (letters_of_mem_keywords _ hm).1, List.isPrefixOf_iff_prefix.mp hp⟩

theorem length_leadingKeyword {w v : Text} {k : Kind} (h : leadingKeyword w = some (k, v)) :
    w.length - v.length < w.length := by
  obtain ⟨-, hne, hp⟩ := mem_of_leadingKeyword h
  have hpos := List.length_pos_iff.mpr hne
  have hle := hp.length_le
  omega

/-- A word at the offset `pos`, cut into the keywords at its front, as many as there are one behind
the other, and the letters that are left as a name, if there are any. -/
def splitWord (pos : Nat) (w : Text) : List Token :=
  match h : leadingKeyword w with
  | some (k, v) =>
    have := length_leadingKeyword h
    ⟨k, v, pos⟩ :: splitWord (pos + v.length) (w.drop v.length)
  | none => if w = [] then [] else [⟨.name, w, pos⟩]
termination_by w.length

/-- A name is split; any other token stays as it is. -/
def Token.split (t : Token) : List Token :=
  if t.kind = .name then splitWord t.position t.text else [t]

example : Token.split ⟨.name, "returnfunctionx".toList, 4⟩ =
    [⟨.keywordReturn, "return".toList, 4⟩, ⟨.keywordFunction, "function".toList, 10⟩,
      ⟨.name, ['x'], 18⟩] := by decide +kernel

/-! ### Scanning words -/

/-- A keyword needs nothing behind it. -/
theorem Lexeme.valid_keyword {kw : Kind × Text} (h : kw ∈ keywords) (r : Text) :
    Lexeme.Valid false ⟨kw.1, kw.2⟩ ∧ Lexeme.Stops false ⟨kw.1, kw.2⟩ r := by
  obtain ⟨k, w⟩ := kw
  obtain ⟨-, -, hw, hk⟩ := letters_of_mem_keywords _ h
  rcases hk with hk | hk <;> cases hk <;> exact ⟨hw, fun _ _ => rfl⟩

theorem scanFrom_letters {w r : Text} (hw : ∀ c ∈ w, isLetter c = true)
    (hr : ∀ c ∈ r.head?, isLetter c = false) (pos : Nat) : scanFrom false pos (w ++ r) =
      (scanFrom false (pos + w.length) r).map (splitWord pos w ++ ·) := by
  fun_induction splitWord pos w with
  | case1 pos w k v h _ ih =>
    obtain ⟨hm, -, u, rfl⟩ := mem_of_leadingKeyword h
    obtain ⟨hvalid, hstops⟩ := Lexeme.valid_keyword hm (u ++ r)
    have hu := ih (by rw [List.drop_left]; exact fun c hc => hw c (List.mem_append_right v hc))
    rw [List.drop_left] at hu ⊢
    have hfirst := scanFrom_valid hvalid hstops pos
    rw [List.append_assoc, hfirst, hu, List.length_append, ← Nat.add_assoc]
    cases scanFrom false (pos + v.length + u.length) r <;> rfl
  | case2 pos h =>
    show scanFrom false pos r = (scanFrom false pos r).map fun us => us
    cases scanFrom false pos r <;> rfl
  | case3 pos w h hne =>
    have hfree : KeywordFree false w := by
      intro kw hm hp
      exact List.find?_eq_none.mp h kw hm (List.isPrefixOf_iff_prefix.mpr hp)
    exact scanFrom_valid (l := ⟨.name, w⟩) ⟨hne, hw, hfree⟩ hr pos

/-! ### Both scans -/

/-- A lexeme other than a name is read in the same way without word boundaries. -/
theorem Item.read_legacy {c : Char} {s w r : Text} {k : Kind}
    (h : Item.read true c s = .ok (.lexeme k w r)) (hk : k ≠ .name) :
    Item.read false c s = .ok (.lexeme k w r) := by
  obtain ⟨hsplit, hvalid, hstops⟩ := Item.valid_of_read h
  have hvalid' : Lexeme.Valid false ⟨k, w⟩ := (Lexeme.valid_iff.mp hvalid).1.valid hk
  have hstops' : Lexeme.Stops false ⟨k, w⟩ r := by
    intro d hd
    have hno := hstops d hd
    revert hno
    cases k <;> simp [Kind.goesOn]
  obtain ⟨c', s', hcs, hread⟩ := Item.read_of_valid hvalid' hstops'
  obtain ⟨rfl, rfl⟩ := List.cons.inj (hsplit.trans hcs)
  exact hread

theorem scanFrom_legacy (pos : Nat) (s : Text) :
    scanFrom false pos s = (scanFrom true pos s).map (·.flatMap Token.split) := by
  -- on the length of the text: a name is passed in one step of the strict scan, whatever the other
  -- scan makes of it
  induction hn : s.length using Nat.strong_induction_on generalizing s pos with
  | _ n ih =>
  cases s with
  | nil => rw [scanFrom_nil, scanFrom_nil]; rfl
  | cons c s =>
    cases hread : Item.read true c s with
    | error e =>
      have hread' : Item.read false c s = .error e :=
        Item.read_eq_error_iff.mpr (Item.read_eq_error_iff.mp hread)
      rw [scanFrom_fault pos hread, scanFrom_fault pos hread']
      rfl
    | ok i =>
      have hlt : i.rest.length < n := hn ▸ Item.length_rest_read hread
      cases i with
      | blank r =>
        obtain ⟨hc, rfl⟩ := Item.blank_of_read hread
        rw [scanFrom_blank pos hread, scanFrom_blank pos (Item.read_blank hc)]
        exact ih _ hlt _ _ rfl
      | lexeme k w r =>
        have hrest := ih _ hlt (pos + w.length) r rfl
        rw [scanFrom_lexeme pos hread]
        by_cases hk : k = .name
        · subst hk
          obtain ⟨hsplit, ⟨-, hw, -⟩, hstops⟩ := Item.valid_of_read hread
          rw [hsplit, scanFrom_letters hw hstops, hrest]
          cases scanFrom true (pos + w.length) r <;> rfl
        · rw [scanFrom_lexeme pos (Item.read_legacy hread hk), hrest]
          cases scanFrom true (pos + w.length) r with
          | error f => rfl
          | ok ts => simp [Except.map, Token.split, hk]

/-- **Without word boundaries a source is scanned as with them, and then its names are split.**  In
particular the same sources are scanned, and the others fail with the same fault. -/
theorem scan_legacy (type type' : Bool) (s : Text) :
    scan ⟨false, type⟩ s = (scan ⟨true, type'⟩ s).map (·.flatMap Token.split) :=
  scanFrom_legacy 0 s

end TypeStrip
