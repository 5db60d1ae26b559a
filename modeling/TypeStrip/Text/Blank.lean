import TypeStrip.Text

/-!
# Blank characters

The white space of the Unicode standard together with the four information separators
U+001C to U+001F.

* `isBlank`      the characters that separate words and tokens;
* `Text.words`   the maximal runs of other characters;
* `Text.mem_words`   a word is not empty and holds no blank.
-/

namespace TypeStrip

def blankRanges : List (Nat × Nat) :=
  [(0x9, 0xd), (0x1c, 0x20), (0x85, 0x85), (0xa0, 0xa0), (0x1680, 0x1680), (0x2000, 0x200a),
   (0x2028, 0x2029), (0x202f, 0x202f), (0x205f, 0x205f), (0x3000, 0x3000)]

def isBlank (c : Char) : Bool := inRanges c.toNat blankRanges

namespace Text

/-- Whether no word begins at the front of a text. -/
def startsBlank : Text → Bool
  | [] => true
  | c :: _ => isBlank c

def extendFirst (c : Char) : List Text → List Text
  | [] => [[c]]
  | w :: ws => (c :: w) :: ws

/-- The maximal runs of characters that are not blank, in order. -/
def words : Text → List Text
  | [] => []
  | c :: s =>
    if isBlank c then words s
    else if startsBlank s then [c] :: words s
    else extendFirst c (words s)

theorem words_nil : words [] = [] := rfl

theorem words_cons_blank {c : Char} (h : isBlank c = true) (s : Text) :
    words (c :: s) = words s := by
  rw [words, if_pos h]

theorem mem_words {s w : Text} (h : w ∈ words s) : w ≠ [] ∧ ∀ c ∈ w, isBlank c = false := by
  induction s generalizing w with
  | nil => simp [words_nil] at h
  | cons c s ih =>
    by_cases hc : isBlank c = true
    · rw [words_cons_blank hc] at h
      exact ih h
    · have hone : [c] ≠ [] ∧ ∀ d ∈ [c], isBlank d = false := by simpa using hc
      rw [words, if_neg hc] at h
      split at h
      · rcases List.mem_cons.mp h with rfl | h
        · exact hone
        · exact ih h
      · cases hw : words s with
        | nil =>
          rw [hw] at h
          rw [List.mem_singleton.mp h]
          exact hone
        | cons v ws =>
          rw [hw] at h
          rcases List.mem_cons.mp h with rfl | h
          · have hv := ih (w := v) (by rw [hw]; exact List.mem_cons_self)
            refine ⟨List.cons_ne_nil _ _, fun a ha => ?_⟩
            rcases List.mem_cons.mp ha with rfl | ha
            · simpa using hc
            · exact hv.2 a ha
          · exact ih (by rw [hw]; exact List.mem_cons_of_mem _ h)

end Text

end TypeStrip
