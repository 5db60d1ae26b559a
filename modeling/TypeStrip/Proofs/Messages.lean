import TypeStrip.Proofs.Failures

/-!
# Messages are printable

What a report quotes from a source may hold any characters.  Between its quotes only printable
ones are left, so that a report always takes a single line.

* `isPrintable_of_ascii`           the characters from the space to the tilde;
* `isControl_of_isPrintable`, `eq_space_of_isPrintable`   controls and blanks;
* `Text.Printable`                 texts of printable characters;
* `Text.SingleLine`                what follows for them;
* `Text.quoted_printable`          texts in quotes, `Text.decimal_printable` numbers;
* `Token.describe_printable`       tokens inside a message;
* `ScanFault.message_printable`    the messages of the scanner;
* `Expectation.diagnostic_printable`   the messages of the parser;
* `compile_message_printable`      the report on a failed compilation;
* `diagnostics_printable`          every report, with its parts.
-/

namespace TypeStrip

/-! ### Printable characters -/

theorem isPrintable_of_ascii {c : Char} (h : 0x20 ≤ c.toNat) (h' : c.toNat < 0x7f) :
    isPrintable c = true := by
  obtain ⟨rest, hranges⟩ : ∃ rest, unprintableRanges = (0x0, 0x1f) :: (0x7f, 0xa0) :: rest :=
    ⟨_, rfl⟩
  rw [isPrintable, hranges, inRanges, inRanges, if_neg (Nat.not_lt_zero _), if_pos h']
  simpa using Nat.lt_of_succ_le h

theorem pairwise_unprintableRanges : unprintableRanges.Pairwise fun r r' => r.1 ≤ r'.1 := by
  -- Neighbours are compared only: the table has too many pairs to look at all of them.
  have hchain : (unprintableRanges.map Prod.fst).IsChain (· ≤ ·) := by decide +kernel
  exact List.pairwise_map.mp (List.isChain_iff_pairwise.mp hchain)

theorem outside_of_isPrintable {c : Char} (h : isPrintable c = true) {r : Nat × Nat}
    (hr : r ∈ unprintableRanges) : c.toNat < r.1 ∨ r.2 < c.toNat := by
  by_contra hinside
  have htable : inRanges c.toNat unprintableRanges = true :=
    (inRanges_iff pairwise_unprintableRanges).mpr ⟨r, hr, by omega, by omega⟩
  rw [isPrintable, htable] at h
  cases h

/-- The control characters, in increasing order. -/
def controlRanges : List (Nat × Nat) := [(0x0, 0x1f), (0x7f, 0x9f)]

def isControl (c : Char) : Bool := inRanges c.toNat controlRanges

theorem isControl_of_isPrintable {c : Char} (h : isPrintable c = true) : isControl c = false := by
  have hcover : ∀ r ∈ controlRanges, ∃ u ∈ unprintableRanges, u.1 ≤ r.1 ∧ r.2 ≤ u.2 := by
    decide +kernel
  refine Bool.eq_false_iff.mpr fun hcontrol => ?_
  obtain ⟨r, hr, hlow, hhigh⟩ := (inRanges_iff (by decide)).mp hcontrol
  obtain ⟨u, hu, hleft, hright⟩ := hcover r hr
  have houtside := outside_of_isPrintable h hu
  omega

/-- The plain space is the only blank that is printable. -/
theorem eq_space_of_isPrintable {c : Char} (h : isPrintable c = true) (hblank : isBlank c = true) :
    c = ' ' := by
  -- The range that ends with the plain space is one too long for the table.
  have hcover : ∀ r ∈ blankRanges, ∃ u ∈ unprintableRanges,
      u.1 ≤ r.1 ∧ (r.2 ≤ u.2 ∨ r.2 = ' '.toNat ∧ r.2 ≤ u.2 + 1) := by decide +kernel
  obtain ⟨r, hr, hlow, hhigh⟩ := (inRanges_iff (by decide)).mp hblank
  obtain ⟨u, hu, hleft, hright⟩ := hcover r hr
  have houtside := outside_of_isPrintable h hu
  have hspace : c.toNat = ' '.toNat := by omega
  exact Char.toNat_inj.mp hspace

/-! ### Printable texts -/

namespace Text

/-- Every character of a text is printable. -/
def Printable (s : Text) : Prop := ∀ c ∈ s, isPrintable c = true

instance (s : Text) : Decidable s.Printable := List.decidableBAll _ s

theorem Printable.append {s t : Text} (hs : s.Printable) (ht : t.Printable) :
    Printable (s ++ t) := List.forall_mem_append.mpr ⟨hs, ht⟩

theorem Printable.cons {c : Char} {s : Text} (hc : isPrintable c = true) (hs : s.Printable) :
    Printable (c :: s) := List.forall_mem_cons.mpr ⟨hc, hs⟩

/-- A text that takes one line and shows all of its characters: no control, no separator of lines or
paragraphs, and no blank but the plain space. -/
structure SingleLine (s : Text) : Prop where
  printable : s.Printable
  control : ∀ c ∈ s, isControl c = false
  separator : '\u2028' ∉ s ∧ '\u2029' ∉ s
  space : ∀ c ∈ s, isBlank c = true → c = ' '

theorem Printable.singleLine {s : Text} (h : s.Printable) : s.SingleLine := by
  have hspace : ∀ c ∈ s, isBlank c = true → c = ' ' := fun c hc => eq_space_of_isPrintable (h c hc)
  have hseparator : ∀ c, isBlank c = true → c ≠ ' ' → c ∉ s := fun c hblank hne hc =>
    hne (hspace c hc hblank)
  exact ⟨h, fun c hc => isControl_of_isPrintable (h c hc),
    ⟨hseparator _ rfl (by decide), hseparator _ rfl (by decide)⟩, hspace⟩

theorem hex_printable (w n : Nat) : (hex w n).Printable := by
  have hdigit : ∀ n < 16, isPrintable (Nat.digitChar n) = true := by decide
  induction w generalizing n with
  | zero => exact nofun
  | succ w ih => exact (ih _).append (.cons (hdigit _ (Nat.mod_lt _ (by decide))) nofun)

theorem decimal_printable (n : Nat) : (decimal n).Printable := by
  intro c hc
  have hdigit := Nat.isDigit_of_mem_toDigits (by decide) (by decide) hc
  obtain ⟨hlow, hhigh⟩ := Char.isDigit_iff_toNat.mp hdigit
  exact isPrintable_of_ascii (Nat.le_trans (by decide) hlow) (Nat.lt_of_le_of_lt hhigh (by decide))

theorem escape_printable {q : Char} (hq : isPrintable q = true) (c : Char) :
    (escape q c).Printable := by
  have hform := escapes_escape q c
  generalize escape q c = form at hform ⊢
  cases hform with
  | marked h =>
    refine .cons (by decide) (.cons ?_ nofun)
    rcases h with rfl | rfl
    · decide
    · exact hq
  | tab | newline | carriageReturn => decide
  | plain h => exact .cons h nofun
  | numbered hw =>
    have hletter : ∀ p ∈ escapeWidths, isPrintable p.1 = true := by decide
    exact .cons (by decide) (.cons (hletter _ hw) (hex_printable _ _))

theorem quoted_printable (s : Text) : (quoted s).Printable := by
  have hq : isPrintable (quoteMark s) = true := by
    unfold quoteMark
    split <;> decide
  refine .append (.cons hq ?_) (.cons hq nofun)
  intro c hc
  obtain ⟨d, -, hd⟩ := List.mem_flatMap.mp hc
  exact escape_printable hq d c hd

end Text

/-! ### Reports -/

theorem Token.describe_printable (t : Token) : t.describe.Printable := by
  have hlabel : ∀ k : Kind, Text.Printable k.label.toList := by
    intro k
    cases k <;> decide
  refine .append (.append (.append (hlabel _) (.cons (by decide) ?_)) (by decide)) ?_
  · exact Text.quoted_printable _
  · exact Text.decimal_printable _

theorem describeFound_printable (found : Option Token) : (describeFound found).Printable := by
  cases found with
  | none => decide
  | some t => exact t.describe_printable

theorem Diagnostic.kind_printable (d : Diagnostic) : Text.Printable d.kind.toList := by
  unfold Diagnostic.kind
  split <;> decide

theorem ScanFault.message_printable (f : ScanFault) : f.message.Printable := by
  unfold ScanFault.message
  split
  · exact .append (.append (.append (by decide) (Text.quoted_printable _)) (by decide))
      (Text.decimal_printable _)
  · exact .append (by decide) (Text.decimal_printable _)

theorem Expectation.diagnostic_printable {e : Expectation} (he : e.message.Printable)
    (found : Option Token) : (e.diagnostic found).message.Printable :=
  .append (.append he (by decide)) (describeFound_printable found)

theorem Expectation.message_printable :
    ∀ e ∈ Expectation.grammar, e.message.Printable := by decide +kernel

theorem compile_message_printable {o : Options} {s : Text} {e : CompileFault} {d : Diagnostic}
    (h : compile o s = .error e) (hd : e.verdict = .diagnostic d) : d.message.Printable := by
  rcases compile_diagnostic h with ⟨f, hf⟩ | ⟨x, hx, found, hdiag⟩
  · rw [hf] at hd
    rw [← Verdict.diagnostic.inj hd]
    exact f.message_printable
  · rw [hdiag] at hd
    rw [← Verdict.diagnostic.inj hd]
    exact Expectation.diagnostic_printable (Expectation.message_printable x hx) found

/-- **A report is one printable line.**  Nothing is asked of the source, nor of the texts of the
tokens: a report of the scanner is one line, and so are a report of the parser, what it expects and
what it has found. -/
theorem diagnostics_printable (o : Options) :
    (∀ (s : Text) (f : ScanFault), scan o s = .error f → f.diagnostic.message.SingleLine) ∧
    ∀ (ts : List Token) (stop : ParseStop) (d : Diagnostic), parse o ts = .error stop →
      stop.fault.verdict = .diagnostic d →
      ∃ expected found, d = .parse (.str expected) (.str found) ∧ expected.SingleLine ∧
        found.SingleLine ∧ d.message.SingleLine := by
  refine ⟨fun s f _ => f.message_printable.singleLine, ?_⟩
  intro ts stop d h hd
  cases hfault : stop.fault with
  | flawed flaw =>
    rw [hfault] at hd
    cases hd
  | unexpected e found =>
    rw [hfault] at hd
    cases hd
    have he : e.message.Printable := e.message_printable (parse_expectation h hfault)
    exact ⟨_, _, rfl, he.singleLine, (describeFound_printable found).singleLine,
      (Expectation.diagnostic_printable he found).singleLine⟩

/-- A character without a width in a source, and a token whose text would break the line twice and
ends with a character that is not assigned. -/
theorem diagnostics_printable_hidden :
    let t : Token := ⟨.braceClose, ['\n', '\u2028', '\'', Char.ofNat 0x10ffff], 3⟩
    scan {} ['a', '\u200b'] = .error ⟨.unknown '\u200b', 1⟩ ∧
    Text.SingleLine "Unknown character '\\u200b' at offset 1".toList ∧
    parse {} [t] = .error ⟨.unexpected .knownToken (some t), 0, .start⟩ ∧
    Text.SingleLine "unrecognized token".toList ∧
    Text.SingleLine "BraceClose \"\\n\\u2028'\\U0010ffff\" at offset 3".toList ∧
    Text.SingleLine
      "unrecognized token, found BraceClose \"\\n\\u2028'\\U0010ffff\" at offset 3".toList := by
  intro t
  obtain ⟨hsources, hlists⟩ := diagnostics_printable {}
  have hscan : scan {} ['a', '\u200b'] = .error ⟨.unknown '\u200b', 1⟩ := by decide +kernel
  have hline : ScanFault.message ⟨.unknown '\u200b', 1⟩ =
      "Unknown character '\\u200b' at offset 1".toList := by decide +kernel
  have hfound : t.describe = "BraceClose \"\\n\\u2028'\\U0010ffff\" at offset 3".toList := by
    decide +kernel
  have hmessage : (Expectation.knownToken.diagnostic (some t)).message =
      "unrecognized token, found BraceClose \"\\n\\u2028'\\U0010ffff\" at offset 3".toList := by
    show "unrecognized token".toList ++ ", found ".toList ++ t.describe = _
    rw [hfound]
    decide +kernel
  have hparse : parse {} [t] = .error ⟨.unexpected .knownToken (some t), 0, .start⟩ := rfl
  obtain ⟨expected, found, hd, hexpected, hshown, hreport⟩ := hlists _ _ _ hparse rfl
  obtain ⟨rfl, rfl⟩ : expected = Expectation.knownToken.message ∧ found = t.describe := by
    cases hd
    exact ⟨rfl, rfl⟩
  rw [← hline, ← hfound, ← hmessage]
  exact ⟨hscan, hsources _ _ hscan, hparse, hexpected, hshown, hreport⟩

end TypeStrip
