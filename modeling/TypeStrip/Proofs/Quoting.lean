import Mathlib.Algebra.Group.Nat.Defs
import Mathlib.Tactic.SplitIfs
import TypeStrip.Cursor
import TypeStrip.Proofs.Lexeme

/-!
# Quoted texts are unambiguous

A text in quotes shows where it ends and what it stands for, whatever is written behind it.  So a
token on a line of its own shows its kind and its text, and a token inside a message also its
offset.

* `Tells`                  two values can be told apart by what is written for them;
* `Tells.of_decoder`       they can if a decoder gives them back;
* `Tells.flatMap`          items one after the other, closed by a character that begins no item;
* `hexValue_hex`           base sixteen digits read back;
* `Text.unescape_escape`   an escape read back;
* `Text.quoted_tells`      texts in quotes;
* `Text.decimal_injective`   numbers at the end of a text;
* `Token.lexeme_tells`     a kind, a character and a text in quotes;
* `Token.render_tells`     tokens, up to their places;
* `Token.describe_eq_iff`, `describeFound_eq_iff`   tokens, or the end of the input, inside a
                           message;
* `renderings_unambiguous`   what can be read off each form.
-/

namespace TypeStrip

/-! ### Telling values apart -/

section Tells

variable {α β : Type} {code : α → Text} {view : α → β}

/-- Wherever `code` writes `a` or `b`, and whatever follows, the text shows which of them it is, as
far as `view` sees a difference, and where the rest begins. -/
def Tells (code : α → Text) (view : α → β) (a b : α) : Prop :=
  ∀ r r', code a ++ r = code b ++ r' → view a = view b ∧ r = r'

theorem Tells.of_decoder {decode : Text → β × Text} {a b : α}
    (ha : ∀ r, decode (code a ++ r) = (view a, r)) (hb : ∀ r, decode (code b ++ r) = (view b, r)) :
    Tells code view a b := by
  intro r r' h
  have hdecode := ha r
  rw [h, hb] at hdecode
  exact Prod.mk.inj hdecode.symm

theorem Tells.append_left {a b : α} (s : Text) (h : Tells code view a b) :
    Tells (s ++ code ·) view a b := by
  intro r r' heq
  simp only [List.append_assoc] at heq
  exact h r r' (List.append_cancel_left heq)

theorem Tells.append_right {a b : α} (h : Tells code view a b) (s : Text) :
    Tells (code · ++ s) view a b := by
  intro r r' heq
  simp only [List.append_assoc] at heq
  obtain ⟨hview, hrest⟩ := h _ _ heq
  exact ⟨hview, List.append_cancel_left hrest⟩

/-- Items one after the other can be told apart if each of them can, and if the character behind
the last one begins no item. -/
theorem Tells.flatMap {q : Char} {as bs : List α}
    (hcode : ∀ a ∈ as, ∀ b ∈ bs, Tells code view a b)
    (hq : ∀ a, ∃ c t, code a = c :: t ∧ c ≠ q) :
    Tells (fun as => as.flatMap code ++ [q]) (List.map view) as bs := by
  intro r r'
  -- Both lists end at the same place: where one of them is over, the next character is `q`.
  induction as generalizing bs with
  | nil =>
    intro h
    cases bs with
    | nil => exact ⟨rfl, by simpa using h⟩
    | cons b bs =>
      obtain ⟨c, t, hc, hne⟩ := hq b
      simp [hc, hne.symm] at h
  | cons a as ih =>
    intro h
    cases bs with
    | nil =>
      obtain ⟨c, t, hc, hne⟩ := hq a
      simp [hc, hne] at h
    | cons b bs =>
      simp only [List.flatMap_cons, List.append_assoc] at h
      obtain ⟨hab, hrest⟩ := hcode a List.mem_cons_self b List.mem_cons_self _ _ h
      have htail := fun x hx y hy =>
        hcode x (List.mem_cons_of_mem a hx) y (List.mem_cons_of_mem b hy)
      obtain ⟨hmap, hr⟩ := ih htail (by simpa using hrest)
      exact ⟨by rw [List.map_cons, List.map_cons, hab, hmap], hr⟩

end Tells

/-- What stands before the first `q` of a text. -/
theorem append_cons_inj {q : Char} {s t r r' : Text} (hs : q ∉ s) (ht : q ∉ t)
    (h : s ++ q :: r = t ++ q :: r') : s = t ∧ r = r' := by
  have hrun : ∀ {s r : Text}, q ∉ s → (s ++ q :: r).takeWhile (· != q) = s := fun hs =>
    (takeWhile_append_stop (fun c hc => by simpa using ne_of_mem_of_not_mem hc hs) (by simp)).1
  have hst : s = t := by rw [← hrun hs, h, hrun ht]
  subst hst
  exact ⟨rfl, (List.cons.inj (List.append_cancel_left h)).2⟩

/-! ### Numbers in base sixteen -/

/-- The value of a base sixteen digit in lower case. -/
def hexDigit (c : Char) : Nat := if c.isDigit then c.toNat - '0'.toNat else c.toNat - 'a'.toNat + 10

def hexValue (s : Text) : Nat := s.foldl (fun n c => 16 * n + hexDigit c) 0

theorem hexDigit_digitChar : ∀ n < 16, hexDigit (Nat.digitChar n) = n := by decide

theorem hexValue_hex {w n : Nat} (h : n < 16 ^ w) : hexValue (Text.hex w n) = n := by
  induction w generalizing n with
  | zero =>
    rw [Nat.pow_zero] at h
    rw [Nat.lt_one_iff.mp h]
    rfl
  | succ w ih =>
    have hdiv : n / 16 < 16 ^ w := Nat.div_lt_of_lt_mul (by rwa [Nat.mul_comm, ← Nat.pow_succ])
    have hhigh := ih hdiv
    rw [hexValue] at hhigh
    rw [Text.hex, hexValue, List.foldl_append, hhigh, List.foldl_cons, List.foldl_nil,
      hexDigit_digitChar _ (Nat.mod_lt n (by decide))]
    exact Nat.div_add_mod n 16

/-- The number that the first `w` digits of a text spell, and what follows them. -/
def unhex (w : Nat) (s : Text) : Nat × Text := (hexValue (s.take w), s.drop w)

theorem unhex_hex {w n : Nat} (h : n < 16 ^ w) (r : Text) :
    unhex w (Text.hex w n ++ r) = (n, r) := by
  rw [unhex, List.take_left' (Text.length_hex w n), List.drop_left' (Text.length_hex w n),
    hexValue_hex h]

/-! ### Escapes -/

namespace Text

/-- The character that `w` digits stand for, and what follows them. -/
def unescapeHex (w : Nat) (s : Text) : Char × Text :=
  (Char.ofNat (unhex w s).1, (unhex w s).2)

/-- The character that the beginning of a text between quotes stands for, and what follows. -/
def unescape : Text → Char × Text
  | '\\' :: k :: r =>
    match k with
    | 't' => ('\t', r)
    | 'n' => ('\n', r)
    | 'r' => ('\r', r)
    | 'x' => unescapeHex 2 r
    | 'u' => unescapeHex 4 r
    | 'U' => unescapeHex 8 r
    | k => (k, r)
  | c :: r => (c, r)
  | [] => default

theorem unescapeHex_hex {w : Nat} {c : Char} (h : c.toNat < 16 ^ w) (r : Text) :
    unescapeHex w (hex w c.toNat ++ r) = (c, r) := by
  rw [unescapeHex, unhex_hex h, Char.ofNat_toNat]

/-- A character that is not a backslash stands for itself. -/
theorem unescape_cons {c : Char} (h : c ≠ '\\') (r : Text) : unescape (c :: r) = (c, r) := by
  unfold unescape
  split <;> simp_all

theorem unescape_escape {q : Char} (hq : q = '\'' ∨ q = '"') (c : Char) (r : Text) :
    unescape (escape q c ++ r) = (c, r) := by
  have hform := escapes_escape q c
  generalize escape q c = form at hform ⊢
  cases hform with
  | marked h =>
    rcases h with rfl | rfl
    · rfl
    · rcases hq with rfl | rfl <;> rfl
  | tab h => rw [h]; rfl
  | newline h => rw [h]; rfl
  | carriageReturn h => rw [h]; rfl
  | plain h hmark => exact unescape_cons hmark.1 r
  | numbered hw h =>
    simp only [escapeWidths, List.mem_cons, Prod.mk.injEq, List.not_mem_nil, or_false] at hw
    rcases hw with ⟨rfl, rfl, rfl⟩ | ⟨rfl, rfl, rfl⟩ | ⟨rfl, rfl, rfl⟩ <;>
      exact unescapeHex_hex h r

/-- An escape begins with a backslash, unless it is the character itself. -/
theorem escape_eq (q c : Char) :
    (∃ t, escape q c = '\\' :: t) ∨ escape q c = [c] ∧ c ≠ q := by
  have hform := escapes_escape q c
  generalize escape q c = form at hform ⊢
  cases hform with
  | plain h hmark => exact .inr ⟨rfl, hmark.2⟩
  | _ => exact .inl ⟨_, rfl⟩

theorem quoteMark_cases (s : Text) : quoteMark s = '\'' ∨ quoteMark s = '"' := by
  unfold quoteMark
  split <;> simp

theorem quoted_tells (s t : Text) : Tells quoted id s t := by
  intro r r' h
  rw [quoted, quoted, List.cons_append, List.cons_append] at h
  obtain ⟨hmark, hrest⟩ := List.cons.inj h
  rw [← hmark] at hrest
  have hq := quoteMark_cases s
  generalize quoteMark s = q at hrest hq
  have hchars : ∀ c ∈ s, ∀ d ∈ t, Tells (escape q) id c d := fun c _ d _ =>
    .of_decoder (unescape_escape hq c) (unescape_escape hq d)
  have hfirst : ∀ c, ∃ d u, escape q c = d :: u ∧ d ≠ q := by
    intro c
    rcases escape_eq q c with ⟨u, hu⟩ | ⟨hu, hne⟩
    · exact ⟨_, u, hu, by rcases hq with rfl | rfl <;> decide⟩
    · exact ⟨c, [], hu, hne⟩
  simpa using Tells.flatMap hchars hfirst r r' hrest

theorem decimal_injective {m n : Nat} (h : decimal m = decimal n) : m = n := by
  have hread : ∀ k, Nat.ofDigitChars 10 (decimal k) 0 = k := fun _ => Nat.ofDigitChars_ten_toDigits
  rw [← hread m, h, hread n]

end Text

/-! ### Tokens -/

namespace Token

/-- Both forms of a token begin with its kind and its text, with a character between them that is
part of no kind. -/
theorem lexeme_tells {q : Char} (hq : ∀ k : Kind, q ∉ k.label.toList) (t u : Token) :
    Tells (fun t => t.kind.label.toList ++ q :: Text.quoted t.text) lexeme t u := by
  intro r r' h
  simp only [List.append_assoc, List.cons_append] at h
  obtain ⟨hlabel, hquoted⟩ := append_cons_inj (hq _) (hq _) h
  obtain ⟨htext, hrest⟩ := Text.quoted_tells _ _ _ _ hquoted
  have hkind := Kind.label_injective (String.toList_injective hlabel)
  refine ⟨?_, hrest⟩
  rw [lexeme, lexeme, hkind, show t.text = u.text from htext]

/-- A token on a line of its own shows its kind and its text. -/
theorem render_tells (t u : Token) : Tells render lexeme t u := by
  have hparen : ∀ k : Kind, '(' ∉ k.label.toList := by
    intro k
    cases k <;> decide
  exact (lexeme_tells hparen t u).append_right [')']

theorem render_eq_iff {t u : Token} : t.render = u.render ↔ t.kind = u.kind ∧ t.text = u.text := by
  constructor
  · intro h
    obtain ⟨hlexeme, -⟩ := render_tells t u [] [] (by rw [h])
    exact Lexeme.mk.inj hlexeme
  · rintro ⟨hkind, htext⟩
    rw [render, render, hkind, htext]

theorem space_not_mem_label (k : Kind) : ' ' ∉ k.label.toList := by
  cases k <;> decide

theorem describe_eq (t : Token) : t.describe =
    t.kind.label.toList ++ ' ' :: Text.quoted t.text ++
      (" at offset ".toList ++ Text.decimal t.position) := by
  rw [describe, List.append_assoc]

/-- A token inside a message shows its kind, its text and its offset. -/
theorem describe_eq_iff {t u : Token} : t.describe = u.describe ↔ t = u := by
  refine ⟨fun h => ?_, congrArg describe⟩
  rw [describe_eq, describe_eq] at h
  obtain ⟨hlexeme, hoffset⟩ := lexeme_tells space_not_mem_label t u _ _ h
  have hposition := Text.decimal_injective (List.append_cancel_left hoffset)
  obtain ⟨k, w, p⟩ := t
  obtain ⟨k', w', p'⟩ := u
  cases hlexeme
  cases hposition
  rfl

/-- What stands before the first space is a kind, and there is no kind with the name `end`. -/
theorem describe_ne_endOfInput (t : Token) : t.describe ≠ "end of input".toList := by
  intro h
  have hend : "end of input".toList = "end".toList ++ ' ' :: "of input".toList := by decide
  rw [describe_eq, hend, List.append_assoc, List.cons_append] at h
  obtain ⟨hlabel, -⟩ := append_cons_inj (space_not_mem_label _) (by decide) h
  have hkind := Kind.ofLabel?_label t.kind
  have hnone : Kind.ofLabel? "end".toList = none := by decide
  rw [hlabel, hnone] at hkind
  cases hkind

end Token

theorem describeFound_eq_iff (found found' : Option Token) :
    describeFound found = describeFound found' ↔ found = found' := by
  refine ⟨fun h => ?_, congrArg describeFound⟩
  cases found with
  | none =>
    cases found' with
    | none => rfl
    | some u => exact absurd h.symm u.describe_ne_endOfInput
  | some t =>
    cases found' with
    | none => exact absurd h t.describe_ne_endOfInput
    | some u => rw [Token.describe_eq_iff.mp h]

/-- **What is written of a token can be read back.**  A line of its own shows its kind and its text,
whatever that is, and a message shows its offset, too.  So two cursors describe what they are at in
the same way only if it is the same, and only the end of the input is described as such. -/
theorem renderings_unambiguous :
    (∀ t u : Token, t.render = u.render ↔ t.kind = u.kind ∧ t.text = u.text) ∧
    (∀ t u : Token, t.describe = u.describe ↔ t = u) ∧
    (∀ c c' : Cursor, c.describe = c'.describe ↔ c.peek = c'.peek) ∧
    ∀ c : Cursor, c.describe = "end of input".toList ↔ c.peek = none := by
  refine ⟨fun t u => Token.render_eq_iff, fun t u => Token.describe_eq_iff, ?_, ?_⟩
  · intro c c'
    exact describeFound_eq_iff c.peek c'.peek
  · intro c
    exact describeFound_eq_iff c.peek none

example : Token.describe ⟨.name, "x' at offset 3".toList, 4⟩ =
    "Name \"x' at offset 3\" at offset 4".toList := by decide

end TypeStrip
