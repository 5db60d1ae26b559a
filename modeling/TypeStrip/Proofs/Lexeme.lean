import Mathlib.Data.List.TakeWhile
import TypeStrip.Token.Lexeme

/-!
# Valid lexemes

A lexeme is a token without its place.

* `Lexeme.Valid`         the texts that a lexeme of each kind may have;
* `Lexeme.Stops`         the texts in front of which a lexeme ends where it should;
* `Item.Reads`           what reading one item can give, by cases;
* `Item.read_of_valid`   a valid lexeme is read in front of every text at which it stops;
* `Item.valid_of_read`   a lexeme that is read is valid and stops at what follows it.

So the two conditions together say exactly what reading one lexeme gives.
-/

namespace TypeStrip

/-- A token without its place. -/
structure Lexeme where
  kind : Kind
  text : Text
  deriving DecidableEq, Repr, Inhabited

def Token.lexeme (t : Token) : Lexeme := ⟨t.kind, t.text⟩

/-- The text of a kind that has only one, and nothing for the four other kinds. -/
def Kind.word : Kind → Text
  | parenOpen => ['(']
  | parenClose => [')']
  | braceOpen => ['{']
  | braceClose => ['}']
  | colon => [':']
  | comma => [',']
  | semicolon => [';']
  | keywordReturn => "return".toList
  | keywordFunction => "function".toList
  | number | name | string | operator => []

def Lexeme.mark (k : Kind) : Lexeme := ⟨k, k.word⟩

/-- A word that no keyword takes the place of.  With `boundary` only the whole word could be one,
without it also a beginning of the word. -/
def KeywordFree (boundary : Bool) (w : Text) : Prop :=
  ∀ kw ∈ keywords, if boundary then w ≠ kw.2 else ¬ kw.2 <+: w

instance (boundary : Bool) (w : Text) : Decidable (KeywordFree boundary w) :=
  List.decidableBAll _ keywords

/-- A number goes on with digits, a name with letters; a keyword goes on with letters only where
`boundary` makes the longer word a name. -/
def Kind.goesOn (boundary : Bool) (k : Kind) (c : Char) : Bool :=
  match k with
  | number => isDigit c
  | name => isLetter c
  | keywordReturn | keywordFunction => boundary && isLetter c
  | _ => false

namespace Lexeme

def Valid (boundary : Bool) (l : Lexeme) : Prop :=
  match l.kind with
  | .number => l.text ≠ [] ∧ ∀ c ∈ l.text, isDigit c = true
  | .name => l.text ≠ [] ∧ (∀ c ∈ l.text, isLetter c = true) ∧ KeywordFree boundary l.text
  | .string => ∃ s : Text, l.text = '"' :: (s ++ ['"']) ∧ '"' ∉ s
  | .operator => ∃ c, isOperator c = true ∧ l.text = [c]
  | k => l.text = k.word

/-- The lexeme does not go on with the text behind it. -/
def Stops (boundary : Bool) (l : Lexeme) (rest : Text) : Prop :=
  ∀ c ∈ rest.head?, l.kind.goesOn boundary c = false

end Lexeme

/-! ### Character classes -/

theorem isDigit_iff {c : Char} : isDigit c = true ↔ 48 ≤ c.toNat ∧ c.toNat ≤ 57 := by
  simp only [isDigit, Bool.and_eq_true, decide_eq_true_eq, Char.le_def, UInt32.le_iff_toNat_le]
  rfl

theorem isLetter_iff {c : Char} : isLetter c = true ↔
    (97 ≤ c.toNat ∧ c.toNat ≤ 122) ∨ (65 ≤ c.toNat ∧ c.toNat ≤ 90) := by
  simp only [isLetter, Bool.or_eq_true, Bool.and_eq_true, decide_eq_true_eq, Char.le_def,
    UInt32.le_iff_toNat_le]
  rfl

theorem isDigit_of_isLetter {c : Char} (h : isLetter c = true) : isDigit c = false := by
  rw [isLetter_iff] at h
  rw [Bool.eq_false_iff, ne_eq, isDigit_iff]
  omega

theorem isBlank_of_isLetter {c : Char} (h : isLetter c = true) : isBlank c = false := by
  rw [isLetter_iff] at h
  simp only [isBlank, blankRanges, inRanges]
  grind

theorem isBlank_of_isDigit {c : Char} (h : isDigit c = true) : isBlank c = false := by
  rw [isDigit_iff] at h
  simp only [isBlank, blankRanges, inRanges]
  grind

theorem isLetter_of_isBlank {c : Char} (h : isBlank c = true) : isLetter c = false := by
  cases hc : isLetter c with
  | false => rfl
  | true => exact absurd h (by simp [isBlank_of_isLetter hc])

theorem isDigit_of_isBlank {c : Char} (h : isBlank c = true) : isDigit c = false := by
  cases hc : isDigit c with
  | false => rfl
  | true => exact absurd h (by simp [isBlank_of_isDigit hc])

theorem Kind.ofPunctuation?_eq_some {c : Char} {k : Kind} (h : Kind.ofPunctuation? c = some k) :
    c ∈ ['(', ')', '{', '}', ':', ',', ';'] ∧ k.word = [c] ∧
      k ∉ [Kind.number, .name, .string, .operator, .keywordReturn, .keywordFunction] := by
  unfold Kind.ofPunctuation? at h
  split at h <;> first | contradiction | (cases h; decide)

/-- A character of a class without punctuation is no punctuation. -/
theorem Kind.ofPunctuation?_eq_none {p : Char → Bool} {c : Char}
    (hp : ['(', ')', '{', '}', ':', ',', ';'].any p = false) (h : p c = true) :
    Kind.ofPunctuation? c = none := by
  cases hk : Kind.ofPunctuation? c with
  | none => rfl
  | some k => exact absurd h (List.any_eq_false.mp hp c (Kind.ofPunctuation?_eq_some hk).1)

/-- An operator belongs to no other class of characters. -/
theorem classes_of_isOperator {c : Char} (h : isOperator c = true) : Kind.ofPunctuation? c = none ∧
    isBlank c = false ∧ isDigit c = false ∧ isLetter c = false ∧ c ≠ '"' := by
  have hc : c = '+' ∨ c = '-' ∨ c = '*' ∨ c = '/' := by simpa [isOperator, or_assoc] using h
  rcases hc with rfl | rfl | rfl | rfl <;> decide

/-! ### Keywords -/

theorem letters_of_mem_keywords : ∀ kw ∈ keywords,
    kw.2 ≠ [] ∧ (∀ c ∈ kw.2, isLetter c = true) ∧ kw.2 = kw.1.word ∧
      (kw.1 = .keywordReturn ∨ kw.1 = .keywordFunction) := by
  intro kw h
  simp only [keywords, List.mem_cons, List.not_mem_nil, or_false] at h
  rcases h with rfl | rfl
  · exact ⟨by decide, List.all_eq_true.mp (by decide), rfl, .inl rfl⟩
  · exact ⟨by decide, List.all_eq_true.mp (by decide), rfl, .inr rfl⟩

/-- The two keywords begin with different letters. -/
theorem keywords_unique {kw kw' : Kind × Text} {s : Text} (h : kw ∈ keywords) (h' : kw' ∈ keywords)
    (hs : kw.2 <+: s) (hs' : kw'.2 <+: s) : kw = kw' := by
  obtain ⟨t, rfl⟩ := hs
  obtain ⟨t', ht⟩ := hs'
  simp only [keywords, List.mem_cons, List.not_mem_nil, or_false] at h h'
  rcases h with rfl | rfl <;> rcases h' with rfl | rfl <;> simp at ht ⊢

theorem keyword?_eq_some_iff {boundary : Bool} {s w : Text} {k : Kind} :
    keyword? boundary s = some (k, w) ↔ (k, w) ∈ keywords ∧ w <+: s ∧
      ∀ c ∈ (s.drop w.length).head?, (boundary && isLetter c) = false := by
  have hstart : ∀ r : Text, (!(boundary && startsWithLetter r)) = true ↔
      ∀ c ∈ r.head?, (boundary && isLetter c) = false := by
    intro r
    cases boundary <;> cases r <;> simp [startsWithLetter]
  rw [keyword?, Option.filter_eq_some_iff, hstart]
  constructor
  · rintro ⟨hf, hb⟩
    have hp := List.find?_some hf
    exact ⟨List.mem_of_find?_eq_some hf, List.isPrefixOf_iff_prefix.mp hp, hb⟩
  · rintro ⟨hm, hp, hb⟩
    refine ⟨?_, hb⟩
    cases hf : keywords.find? fun kw => kw.2.isPrefixOf s with
    | none =>
      have hno := List.find?_eq_none.mp hf _ hm
      exact absurd (List.isPrefixOf_iff_prefix.mpr hp) hno
    | some kw =>
      have hp' := List.find?_some hf
      rw [keywords_unique (List.mem_of_find?_eq_some hf) hm (List.isPrefixOf_iff_prefix.mp hp') hp]

theorem keyword?_eq_none {boundary : Bool} {c : Char} {s : Text} (h : isLetter c = false) :
    keyword? boundary (c :: s) = none := by
  cases hk : keyword? boundary (c :: s) with
  | none => rfl
  | some kw =>
    obtain ⟨k, w⟩ := kw
    obtain ⟨hm, ⟨t, ht⟩, -⟩ := keyword?_eq_some_iff.mp hk
    obtain ⟨hne, hl, -⟩ := letters_of_mem_keywords _ hm
    obtain ⟨d, v, rfl⟩ := List.exists_cons_of_ne_nil hne
    have hd := hl d List.mem_cons_self
    rw [(List.cons.inj ht).1, h] at hd
    contradiction

/-! ### Runs -/

theorem takeWhile_append_stop {p : Char → Bool} {w r : Text} (hw : ∀ c ∈ w, p c = true)
    (hr : ∀ c ∈ r.head?, p c = false) :
    (w ++ r).takeWhile p = w ∧ (w ++ r).dropWhile p = r := by
  have hnil : r.takeWhile p = [] ∧ r.dropWhile p = r := by
    cases r with
    | nil => exact ⟨rfl, rfl⟩
    | cons c r => simp [hr c rfl]
  rw [List.takeWhile_append_of_pos hw, List.dropWhile_append_of_pos hw, hnil.1, hnil.2,
    List.append_nil]
  exact ⟨rfl, rfl⟩

theorem head?_dropWhile_stop (p : Char → Bool) (s : Text) :
    ∀ c ∈ (s.dropWhile p).head?, p c = false := by
  intro c hc
  have h := List.head?_dropWhile_not p s
  rw [Option.mem_def.mp hc] at h
  exact h

/-- Letters at the front of a text lie in the run of letters that the text begins with. -/
theorem prefix_run {v w r : Text} (hv : ∀ c ∈ v, isLetter c = true)
    (hr : ∀ c ∈ r.head?, isLetter c = false) (h : v <+: w ++ r) : v <+: w := by
  induction v generalizing w with
  | nil => exact List.nil_prefix
  | cons c v ih =>
    cases w with
    | nil =>
      obtain ⟨t, ht⟩ := h
      have hc := hr c (by rw [List.nil_append] at ht; rw [← ht]; rfl)
      rw [hv c List.mem_cons_self] at hc
      contradiction
    | cons d w =>
      obtain ⟨rfl, hp⟩ := List.cons_prefix_cons.mp h
      exact List.cons_prefix_cons.mpr ⟨rfl, ih (fun c hc => hv c (List.mem_cons_of_mem _ hc)) hp⟩

/-! ### Reading one item -/

namespace Item

variable {boundary : Bool} {c : Char} {s : Text}

theorem read_blank (h : isBlank c = true) : read boundary c s = .ok (blank s) := by
  have hp := Kind.ofPunctuation?_eq_none (by decide) h
  have hk : keyword? boundary (c :: s) = none := keyword?_eq_none (isLetter_of_isBlank h)
  simp only [read, hp, hk, h, if_true]

theorem read_number (h : isDigit c = true) : read boundary c s =
    .ok (lexeme .number (c :: s.takeWhile isDigit) (s.dropWhile isDigit)) := by
  have hl : isLetter c = false := by
    cases hc : isLetter c with
    | false => rfl
    | true => rw [isDigit_of_isLetter hc] at h; contradiction
  have hp := Kind.ofPunctuation?_eq_none (by decide) h
  have hk : keyword? boundary (c :: s) = none := keyword?_eq_none hl
  simp only [read, hp, hk, isBlank_of_isDigit h, h, if_true, Bool.false_eq_true, if_false]

theorem read_name (h : isLetter c = true) (hk : keyword? boundary (c :: s) = none) :
    read boundary c s =
      .ok (lexeme .name (c :: s.takeWhile isLetter) (s.dropWhile isLetter)) := by
  have hp := Kind.ofPunctuation?_eq_none (by decide) h
  simp only [read, hp, hk, isBlank_of_isLetter h, isDigit_of_isLetter h, h, if_true,
    Bool.false_eq_true, if_false]

theorem read_keyword {k : Kind} {w : Text} (hk : keyword? boundary (c :: s) = some (k, w)) :
    read boundary c s = .ok (lexeme k w ((c :: s).drop w.length)) := by
  have hl : isLetter c = true := by
    cases hc : isLetter c with
    | true => rfl
    | false => rw [keyword?_eq_none hc] at hk; contradiction
  have hp := Kind.ofPunctuation?_eq_none (by decide) hl
  simp only [read, hp, hk]

theorem read_string {r : Text} (h : s.dropWhile (· ≠ '"') = '"' :: r) :
    read boundary '"' s = .ok (lexeme .string ('"' :: (s.takeWhile (· ≠ '"') ++ ['"'])) r) := by
  have hk : keyword? boundary ('"' :: s) = none := keyword?_eq_none (by decide)
  have hp : Kind.ofPunctuation? '"' = none := by decide
  have hb : isBlank '"' = false := by decide
  have hd : isDigit '"' = false := by decide
  have hl : isLetter '"' = false := by decide
  simp only [read, hp, hk, hb, hd, hl, h, if_true, Bool.false_eq_true, if_false, List.cons_append]

theorem read_operator (h : isOperator c = true) : read boundary c s =
    .ok (lexeme .operator [c] s) := by
  obtain ⟨hp, hb, hd, hl, hq⟩ := classes_of_isOperator h
  have hk : keyword? boundary (c :: s) = none := keyword?_eq_none hl
  simp only [read, hp, hk, hb, hd, hl, hq, h, if_true, Bool.false_eq_true, if_false]

/-- A name in front of a text that does not go on with letters is not taken for a keyword. -/
theorem keyword?_of_keywordFree {w r : Text} (hw : ∀ c ∈ w, isLetter c = true)
    (hf : KeywordFree boundary w) (hr : ∀ c ∈ r.head?, isLetter c = false) :
    keyword? boundary (w ++ r) = none := by
  cases hk : keyword? boundary (w ++ r) with
  | none => rfl
  | some kw =>
    obtain ⟨k, v⟩ := kw
    obtain ⟨hm, hp, hb⟩ := keyword?_eq_some_iff.mp hk
    obtain ⟨-, hv, -⟩ := letters_of_mem_keywords _ hm
    have hfree := hf _ hm
    obtain ⟨u, rfl⟩ := prefix_run hv hr hp
    cases boundary with
    | false => simp at hfree
    | true =>
      -- the word is longer than the keyword, so a letter follows the keyword
      obtain ⟨d, u, rfl⟩ := List.exists_cons_of_ne_nil (l := u) (by rintro rfl; simp at hfree)
      have hd := hb d (by simp)
      rw [hw d (by simp)] at hd
      contradiction

/-- A run of letters that is not taken for a keyword is free of keywords. -/
theorem keywordFree_of_run (hk : keyword? boundary (c :: s) = none) :
    KeywordFree boundary (c :: s.takeWhile isLetter) := by
  intro kw hm
  have hsplit : c :: s = (c :: s.takeWhile isLetter) ++ s.dropWhile isLetter := by simp
  have hno : ¬ (kw.2 <+: c :: s ∧
      ∀ d ∈ ((c :: s).drop kw.2.length).head?, (boundary && isLetter d) = false) := by
    intro h
    rw [keyword?_eq_some_iff.mpr ⟨hm, h.1, h.2⟩] at hk
    contradiction
  cases boundary with
  | false =>
    intro hp
    exact hno ⟨hp.trans (hsplit ▸ List.prefix_append _ _), by simp⟩
  | true =>
    intro he
    refine hno ⟨hsplit ▸ he ▸ List.prefix_append _ _, ?_⟩
    rw [hsplit, ← he, List.drop_left]
    exact head?_dropWhile_stop isLetter s

theorem read_of_valid {l : Lexeme} {r : Text} (hl : l.Valid boundary) (hs : l.Stops boundary r) :
    ∃ c s, l.text ++ r = c :: s ∧ read boundary c s = .ok (lexeme l.kind l.text r) := by
  obtain ⟨k, w⟩ := l
  cases k with
  | number =>
    obtain ⟨hne, hd⟩ := hl
    obtain ⟨c, w, rfl⟩ := List.exists_cons_of_ne_nil hne
    obtain ⟨ht, hr⟩ := takeWhile_append_stop (fun d h => hd d (List.mem_cons_of_mem _ h)) hs
    refine ⟨c, w ++ r, rfl, ?_⟩
    rw [read_number (hd c List.mem_cons_self), ht, hr]
  | name =>
    obtain ⟨hne, hd, hf⟩ := hl
    obtain ⟨c, w, rfl⟩ := List.exists_cons_of_ne_nil hne
    have hk : keyword? boundary (c :: (w ++ r)) = none := keyword?_of_keywordFree hd hf hs
    obtain ⟨ht, hr⟩ := takeWhile_append_stop (fun d h => hd d (List.mem_cons_of_mem _ h)) hs
    refine ⟨c, w ++ r, rfl, ?_⟩
    rw [read_name (hd c List.mem_cons_self) hk, ht, hr]
  | string =>
    obtain ⟨s, rfl, hq⟩ := hl
    have hstop := takeWhile_append_stop (p := (· ≠ '"')) (w := s) (r := '"' :: r)
      (fun c hc => by simpa using fun h : c = '"' => hq (h ▸ hc)) (by simp)
    refine ⟨'"', s ++ '"' :: r, by simp, ?_⟩
    rw [read_string hstop.2, hstop.1]
  | operator =>
    obtain ⟨c, hc, rfl⟩ := hl
    exact ⟨c, r, rfl, read_operator hc⟩
  | keywordReturn =>
    cases hl
    refine ⟨'r', "eturn".toList ++ r, rfl, ?_⟩
    exact read_keyword (k := .keywordReturn) (w := "return".toList)
      (keyword?_eq_some_iff.mpr ⟨by decide, ⟨r, rfl⟩, hs⟩)
  | keywordFunction =>
    cases hl
    refine ⟨'f', "unction".toList ++ r, rfl, ?_⟩
    exact read_keyword (k := .keywordFunction) (w := "function".toList)
      (keyword?_eq_some_iff.mpr ⟨by decide, ⟨r, rfl⟩, hs⟩)
  | parenOpen | parenClose | braceOpen | braceClose | colon | comma | semicolon =>
    cases hl
    exact ⟨_, r, rfl, rfl⟩

/-- The ways in which reading an item ends, each with what is known of the text then. -/
inductive Reads (boundary : Bool) (c : Char) (s : Text) : Except ReadFault Item → Prop where
  | punctuation {k : Kind} (hp : Kind.ofPunctuation? c = some k) :
      Reads boundary c s (.ok (lexeme k [c] s))
  | keyword {k : Kind} {w : Text} (hk : keyword? boundary (c :: s) = some (k, w)) :
      Reads boundary c s (.ok (lexeme k w ((c :: s).drop w.length)))
  | blank (hb : isBlank c = true) : Reads boundary c s (.ok (blank s))
  | number (hd : isDigit c = true) :
      Reads boundary c s (.ok (lexeme .number (c :: s.takeWhile isDigit) (s.dropWhile isDigit)))
  | name (hl : isLetter c = true) (hk : keyword? boundary (c :: s) = none) :
      Reads boundary c s (.ok (lexeme .name (c :: s.takeWhile isLetter) (s.dropWhile isLetter)))
  | string {q : Char} {r : Text} (hc : c = '"') (hs : s.dropWhile (· ≠ '"') = q :: r) :
      Reads boundary c s (.ok (lexeme .string (c :: s.takeWhile (· ≠ '"') ++ [q]) r))
  | unterminated (hc : c = '"') (hs : s.dropWhile (· ≠ '"') = []) :
      Reads boundary c s (.error .unterminated)
  | operator (ho : isOperator c = true) : Reads boundary c s (.ok (lexeme .operator [c] s))
  | unknown (hp : Kind.ofPunctuation? c = none) (hb : ¬ isBlank c = true)
      (hd : ¬ isDigit c = true) (hl : ¬ isLetter c = true) (hc : c ≠ '"')
      (ho : ¬ isOperator c = true) : Reads boundary c s (.error (.unknown c))

theorem reads (boundary : Bool) (c : Char) (s : Text) :
    Reads boundary c s (read boundary c s) := by
  unfold read
  split
  · next k hp => exact .punctuation hp
  · next hp =>
    split
    · next k w hk => exact .keyword hk
    · next hk =>
      by_cases hb : isBlank c = true
      · rw [if_pos hb]
        exact .blank hb
      by_cases hd : isDigit c = true
      · rw [if_neg hb, if_pos hd]
        exact .number hd
      by_cases hl : isLetter c = true
      · rw [if_neg hb, if_neg hd, if_pos hl]
        exact .name hl hk
      rw [if_neg hb, if_neg hd, if_neg hl]
      by_cases hc : c = '"'
      · rw [if_pos hc]
        split
        · next hs => exact .unterminated hc hs
        · next q r hs => exact .string hc hs
      by_cases ho : isOperator c = true
      · rw [if_neg hc, if_pos ho]
        exact .operator ho
      rw [if_neg hc, if_neg ho]
      exact .unknown hp hb hd hl hc ho

theorem valid_of_read {k : Kind} {w r : Text} (h : read boundary c s = .ok (lexeme k w r)) :
    c :: s = w ++ r ∧ Lexeme.Valid boundary ⟨k, w⟩ ∧ Lexeme.Stops boundary ⟨k, w⟩ r := by
  have hreads := reads boundary c s
  rw [h] at hreads
  have hrun : ∀ p : Char → Bool, p c = true → ∀ d ∈ c :: s.takeWhile p, p d = true :=
    fun p hp => List.forall_mem_cons.mpr ⟨hp, fun d hd => List.mem_takeWhile_imp hd⟩
  cases hreads with
  | punctuation hp =>
    obtain ⟨-, hw, hk⟩ := Kind.ofPunctuation?_eq_some hp
    refine ⟨rfl, ?_, fun d _ => ?_⟩ <;> cases k <;> simp_all [Lexeme.Valid, Kind.goesOn]
  | keyword hk =>
    obtain ⟨hm, ⟨t, ht⟩, hb⟩ := keyword?_eq_some_iff.mp hk
    obtain ⟨-, -, hw, hkind⟩ := letters_of_mem_keywords _ hm
    refine ⟨?_, ?_, ?_⟩
    · rw [← ht, List.drop_left]
    · rcases hkind with rfl | rfl <;> exact hw
    · rcases hkind with rfl | rfl <;> exact hb
  | number hd =>
    exact ⟨by simp, ⟨by simp, hrun isDigit hd⟩, head?_dropWhile_stop isDigit s⟩
  | name hl hk =>
    exact ⟨by simp, ⟨by simp, hrun isLetter hl, keywordFree_of_run hk⟩,
      head?_dropWhile_stop isLetter s⟩
  | @string q _ hc hs =>
    have hstop := head?_dropWhile_stop (· ≠ '"') s q (by rw [hs]; rfl)
    have hq : q = '"' := by simpa using hstop
    subst hc hq
    have hsplit : s.takeWhile (· ≠ '"') ++ '"' :: r = s := by
      rw [← hs]
      exact List.takeWhile_append_dropWhile
    refine ⟨by simpa using hsplit.symm, ⟨s.takeWhile (· ≠ '"'), rfl, ?_⟩, fun _ _ => rfl⟩
    intro hm
    have hne := List.mem_takeWhile_imp hm
    simp at hne
  | operator ho => exact ⟨rfl, ⟨c, ho, rfl⟩, fun _ _ => rfl⟩

theorem blank_of_read {r : Text} (h : read boundary c s = .ok (blank r)) :
    isBlank c = true ∧ r = s := by
  have hreads := reads boundary c s
  rw [h] at hreads
  cases hreads with
  | blank hb => exact ⟨hb, rfl⟩

end Item

end TypeStrip
