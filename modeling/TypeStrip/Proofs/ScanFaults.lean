import TypeStrip.Proofs.Readable

/-!
# Where scanning stops

A scan stops at the first place where nothing can be read.  The source in front of that place is
scanned by itself, although it is cut off there: no item that was read looked further.

* `scanFrom_eq_error`     a fault, the text in front of it, and what offends;
* `scanFrom_of_offends`   what offends behind a text that is scanned is a fault;
* `scan_eq_error_iff`     the two together, for a whole source;
* `Blocked`               a place up to which a scan comes, and no further;
* `blocked_iff`           the place of a fault is such a place, and `Blocked.unique` the only one;
* `scan_fault_located`    the place, the character and the message of a fault.
-/

namespace TypeStrip

variable {boundary : Bool} {o : Options}

/-- A lexeme that stops at a text stops at every beginning of that text. -/
theorem Lexeme.Stops.of_append {l : Lexeme} {s r : Text} (h : l.Stops boundary (s ++ r)) :
    l.Stops boundary s := by
  intro c hc
  cases s with
  | nil => cases hc
  | cons d s => exact h c hc

theorem scanFrom_eq_error {s : Text} {pos : Nat} {f : ScanFault}
    (h : scanFrom boundary pos s = .error f) : ∃ front c rest ts, s = front ++ c :: rest ∧
      f.position = pos + front.length ∧ scanFrom boundary pos front = .ok ts ∧
      Offends c rest f.fault := by
  -- on the length of the text; the items in front of the fault are read again without it
  induction hn : s.length using Nat.strong_induction_on generalizing s pos with
  | _ n ih =>
  cases s with
  | nil =>
    rw [scanFrom_nil] at h
    cases h
  | cons c s =>
    cases hread : Item.read boundary c s with
    | error e =>
      rw [scanFrom_fault pos hread] at h
      cases h
      exact ⟨[], c, s, [], rfl, rfl, scanFrom_nil boundary pos, Item.read_eq_error_iff.mp hread⟩
    | ok i =>
      have hlt := Item.length_rest_read hread
      cases i with
      | blank r =>
        obtain ⟨hc, rfl⟩ := Item.blank_of_read hread
        rw [scanFrom_blank pos hread] at h
        obtain ⟨front, d, rest, ts, rfl, hp, hfront, hd⟩ := ih _ (hn ▸ hlt) h rfl
        refine ⟨c :: front, d, rest, ts, rfl, ?_, ?_, hd⟩
        · rw [hp, List.length_cons]
          omega
        · rw [scanFrom_blank pos (Item.read_blank hc)]
          exact hfront
      | lexeme k w r =>
        obtain ⟨hsplit, hvalid, hstops⟩ := Item.valid_of_read hread
        rw [scanFrom_lexeme pos hread] at h
        cases hrest : scanFrom boundary (pos + w.length) r with
        | ok us => rw [hrest] at h; cases h
        | error g =>
          rw [hrest] at h
          cases h
          obtain ⟨front, d, rest, ts, rfl, hp, hfront, hd⟩ := ih _ (hn ▸ hlt) hrest rfl
          have hfirst := scanFrom_valid hvalid hstops.of_append pos
          refine ⟨w ++ front, d, rest, ⟨k, w, pos⟩ :: ts, ?_, ?_, ?_, hd⟩
          · rw [hsplit, List.append_assoc]
          · rw [hp, List.length_append]
            omega
          · rw [hfirst, hfront]
            rfl

theorem scanFrom_of_offends {front rest : Text} {c : Char} {e : ReadFault} {pos : Nat}
    {ts : List Token} (h : scanFrom boundary pos front = .ok ts) (hc : Offends c rest e) :
    scanFrom boundary pos (front ++ c :: rest) = .error ⟨e, pos + front.length⟩ := by
  rw [scanFrom_append h hc.halts, scanFrom_fault _ (Item.read_eq_error_iff.mpr hc)]
  rfl

theorem scan_eq_error_iff {s : Text} {f : ScanFault} : scan o s = .error f ↔
    (∃ ts, scan o (s.take f.position) = .ok ts) ∧
      ∃ c, s[f.position]? = some c ∧ Offends c (s.drop (f.position + 1)) f.fault := by
  constructor
  · intro h
    obtain ⟨front, c, rest, ts, rfl, hp, hts, hoffends⟩ := scanFrom_eq_error h
    rw [hp, Nat.zero_add]
    refine ⟨⟨ts, ?_⟩, c, ?_, ?_⟩
    · rw [List.take_left]
      exact hts
    · rw [List.getElem?_append_right (Nat.le_refl _), Nat.sub_self]
      rfl
    · rw [← List.drop_drop, List.drop_left]
      exact hoffends
  · rintro ⟨⟨ts, hts⟩, c, hc, hoffends⟩
    obtain ⟨hp, rfl⟩ := List.getElem?_eq_some_iff.mp hc
    have hs : s = s.take f.position ++ s[f.position] :: s.drop (f.position + 1) := by simp
    have hlength : (s.take f.position).length = f.position :=
      List.length_take_of_le (Nat.le_of_lt hp)
    rw [scan, hs, scanFrom_of_offends hts hoffends, hlength, Nat.zero_add]

/-- The first `p` characters of `s` are scanned, and behind them stands a character of no class, or
a quote without another one behind it. -/
def Blocked (o : Options) (s : Text) (p : Nat) : Prop :=
  (∃ ts, scan o (s.take p) = .ok ts) ∧ ∃ c, s[p]? = some c ∧
    (isKnown c = false ∧ c ≠ '"' ∨ c = '"' ∧ '"' ∉ s.drop (p + 1))

theorem blocked_iff {s : Text} {p : Nat} :
    Blocked o s p ↔ ∃ f, scan o s = .error f ∧ f.position = p := by
  constructor
  · rintro ⟨hts, c, hc, ⟨hk, hq⟩ | ⟨hq, hs⟩⟩
    · exact ⟨⟨.unknown c, p⟩, scan_eq_error_iff.mpr ⟨hts, c, hc, .unknown hk hq⟩, rfl⟩
    · exact ⟨⟨.unterminated, p⟩, scan_eq_error_iff.mpr ⟨hts, c, hc, .unterminated hq hs⟩, rfl⟩
  · rintro ⟨⟨e, p⟩, hf, rfl⟩
    obtain ⟨hts, c, hc, hoffends⟩ := scan_eq_error_iff.mp hf
    refine ⟨hts, c, hc, ?_⟩
    cases hoffends with
    | unknown hk hq => exact .inl ⟨hk, hq⟩
    | unterminated hq hs => exact .inr ⟨hq, hs⟩

theorem Blocked.unique {s : Text} {p q : Nat} (h : Blocked o s p) (h' : Blocked o s q) : p = q := by
  obtain ⟨f, hf, rfl⟩ := blocked_iff.mp h
  obtain ⟨g, hg, rfl⟩ := blocked_iff.mp h'
  rw [Except.error.inj (hf.symm.trans hg)]

/-- **A scan fails at the first place where nothing can be read.**  The source up to there is
scanned, and the fault names the offset and the character that stands there.  There is one such
place if the scan fails, and none otherwise. -/
theorem scan_fault_located (o : Options) (s : Text) :
    (∀ p, (∃ f, scan o s = .error f ∧ f.position = p) ↔ Blocked o s p) ∧
    (∀ f, scan o s = .error f → s[f.position]? = some f.char ∧
      (f.char ≠ '"' → f.message = "Unknown character ".toList ++ Text.quoted [f.char] ++
        " at offset ".toList ++ Text.decimal f.position) ∧
      (f.char = '"' → f.message =
        "Unterminated string starting at offset ".toList ++ Text.decimal f.position)) ∧
    ((∃ f, scan o s = .error f) ↔ ∃ p, Blocked o s p) ∧
    ∀ p q, Blocked o s p → Blocked o s q → p = q := by
  refine ⟨fun p => blocked_iff.symm, ?_, ⟨?_, ?_⟩, fun p q h h' => h.unique h'⟩
  · rintro ⟨e, p⟩ hf
    obtain ⟨-, c, hc, hoffends⟩ := scan_eq_error_iff.mp hf
    cases hoffends with
    | unknown hk hq => exact ⟨hc, fun _ => rfl, fun he => absurd he hq⟩
    | unterminated hq hs =>
      subst hq
      exact ⟨hc, fun hne => absurd rfl hne, fun _ => rfl⟩
  · rintro ⟨f, hf⟩
    exact ⟨f.position, blocked_iff.mpr ⟨f, hf, rfl⟩⟩
  · rintro ⟨p, h⟩
    obtain ⟨f, hf, -⟩ := blocked_iff.mp h
    exact ⟨f, hf⟩

/-- The unknown sign inside the first string does not count, and the keyword is one with and
without the open quote behind it. -/
theorem scan_fault_located_open : ∃ f, scan {} "\"#\"return\"x".toList = .error f ∧
    f.position = 9 ∧ f.char = '"' ∧
    f.message = "Unterminated string starting at offset 9".toList ∧
    ∀ p, Blocked {} "\"#\"return\"x".toList p → p = 9 := by
  obtain ⟨hplace, htext, -, hunique⟩ := scan_fault_located {} "\"#\"return\"x".toList
  have hblocked : Blocked {} "\"#\"return\"x".toList 9 :=
    ⟨⟨[⟨.string, "\"#\"".toList, 0⟩, ⟨.keywordReturn, "return".toList, 3⟩], by decide +kernel⟩,
      '"', rfl, .inr ⟨rfl, by decide⟩⟩
  obtain ⟨f, hf, hp⟩ := (hplace 9).mpr hblocked
  obtain ⟨hc, -, hm⟩ := htext f hf
  rw [hp] at hc hm
  have hchar : f.char = '"' := (Option.some.inj hc).symm
  exact ⟨f, hf, hp, hchar, (hm hchar).trans (by decide +kernel), fun p h => hunique p 9 h hblocked⟩

end TypeStrip
