import TypeStrip.Options
import TypeStrip.Text.Blank
import TypeStrip.Token

/-!
# Lexemes

What may stand at one place of a source.  The rules are tried in a fixed order and the first one
that applies wins: punctuation, keyword, blank, number, name, string, operator.

* `Kind.ofPunctuation?`, `isDigit`, `isLetter`, `isOperator`   the character classes;
* `keyword?`   the keyword a text starts with;
* `Item.read`  the first item of a text: a blank, or a lexeme of some kind.
-/

namespace TypeStrip

def Kind.ofPunctuation? (c : Char) : Option Kind :=
  match c with
  | '(' => some .parenOpen
  | ')' => some .parenClose
  | '{' => some .braceOpen
  | '}' => some .braceClose
  | ':' => some .colon
  | ',' => some .comma
  | ';' => some .semicolon
  | _ => none

def isDigit (c : Char) : Bool := '0' ≤ c && c ≤ '9'

def isLetter (c : Char) : Bool := ('a' ≤ c && c ≤ 'z') || ('A' ≤ c && c ≤ 'Z')

def isOperator (c : Char) : Bool := c == '+' || c == '-' || c == '*' || c == '/'

def keywords : List (Kind × Text) :=
  [(.keywordReturn, "return".toList), (.keywordFunction, "function".toList)]

def startsWithLetter (s : Text) : Bool :=
  match s with
  | [] => false
  | c :: _ => isLetter c

/-- The keyword that `s` starts with.  With `boundary`, a keyword that a letter follows is only the
beginning of a longer name. -/
def keyword? (boundary : Bool) (s : Text) : Option (Kind × Text) :=
  (keywords.find? fun kw => kw.2.isPrefixOf s).filter fun kw =>
    !(boundary && startsWithLetter (s.drop kw.2.length))

inductive ReadFault where
  | unknown (c : Char)
  /-- a quote that no later quote closes -/
  | unterminated
  deriving DecidableEq, Repr, Inhabited

inductive Item where
  | blank (rest : Text)
  | lexeme (kind : Kind) (text rest : Text)
  deriving DecidableEq, Repr, Inhabited

namespace Item

def rest : Item → Text
  | blank r => r
  | lexeme _ _ r => r

def read (boundary : Bool) (c : Char) (s : Text) : Except ReadFault Item :=
  match Kind.ofPunctuation? c with
  | some k => .ok (lexeme k [c] s)
  | none =>
    match keyword? boundary (c :: s) with
    | some (k, w) => .ok (lexeme k w ((c :: s).drop w.length))
    | none =>
      if isBlank c then .ok (blank s)
      else if isDigit c then .ok (lexeme .number (c :: s.takeWhile isDigit) (s.dropWhile isDigit))
      else if isLetter c then .ok (lexeme .name (c :: s.takeWhile isLetter) (s.dropWhile isLetter))
      else if c = '"' then
        match s.dropWhile (· ≠ '"') with
        | [] => .error .unterminated
        | q :: r => .ok (lexeme .string (c :: s.takeWhile (· ≠ '"') ++ [q]) r)
      else if isOperator c then .ok (lexeme .operator [c] s)
      else .error (.unknown c)

theorem keyword?_length {boundary : Bool} {s w : Text} {k : Kind}
    (h : keyword? boundary s = some (k, w)) : 0 < w.length := by
  rw [keyword?, Option.filter_eq_some_iff] at h
  have hm := List.mem_of_find?_eq_some h.1
  simp only [keywords, List.mem_cons, Prod.mk.injEq, List.not_mem_nil, or_false] at hm
  rcases hm with ⟨_, rfl⟩ | ⟨_, rfl⟩ <;> decide

/-- An item is never empty: what follows it is shorter than the text itself. -/
theorem length_rest_read {boundary : Bool} {c : Char} {s : Text} {i : Item}
    (h : read boundary c s = .ok i) : i.rest.length < (c :: s).length := by
  unfold read at h
  split at h
  · cases h
    simp [rest]
  · split at h
    · next k w hk =>
      cases h
      have := keyword?_length hk
      simp only [rest, List.length_drop, List.length_cons]
      omega
    · have hd : ∀ p : Char → Bool, (s.dropWhile p).length ≤ s.length := fun p =>
        (List.dropWhile_sublist p).length_le
      split at h
      · cases h; simp [rest]
      · split at h
        · cases h
          have := hd isDigit
          simp only [rest, List.length_cons]
          omega
        · split at h
          · cases h
            have := hd isLetter
            simp only [rest, List.length_cons]
            omega
          · split at h
            · split at h
              · cases h
              · next q r hq =>
                cases h
                have := hd (· ≠ '"')
                rw [hq, List.length_cons] at this
                simp only [rest, List.length_cons]
                omega
            · split at h
              · cases h; simp [rest]
              · cases h

end Item

end TypeStrip
