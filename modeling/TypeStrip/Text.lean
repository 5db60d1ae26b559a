/-!
# Texts

A text is its list of code points.  Offsets, lengths and cuts all count code points, so a list is
the view in which every rule about them is stated.

* `Text.decimal`, `Text.decimalInt`   the usual base ten digits;
* `Text.padLeft`                      a text filled up on its left to a least width;
* `Text.hex`                          a fixed number of lower-case base sixteen digits;
* `Text.lines`                        texts each ended by a line feed;
* `inRanges`                          membership in a sorted table of code point ranges;
* `inRanges_iff`                      which is membership in one of the ranges.
-/

namespace TypeStrip

/-- A text, as the list of its code points. -/
abbrev Text := List Char

namespace Text

def decimal (n : Nat) : Text := Nat.toDigits 10 n

def decimalInt : Int → Text
  | .ofNat n => decimal n
  | .negSucc n => '-' :: decimal (n + 1)

def padLeft (width : Nat) (c : Char) (s : Text) : Text :=
  List.replicate (width - s.length) c ++ s

/-- The last `width` base sixteen digits of `n`, in lower case. -/
def hex (width n : Nat) : Text :=
  match width with
  | 0 => []
  | w + 1 => hex w (n / 16) ++ [Nat.digitChar (n % 16)]

theorem length_hex (width n : Nat) : (hex width n).length = width := by
  induction width generalizing n with
  | zero => rfl
  | succ w ih => rw [hex, List.length_append, ih, List.length_singleton]

/-- The given texts, each followed by a line feed. -/
def lines (l : List Text) : Text := l.flatMap (· ++ ['\n'])

theorem lines_nil : lines [] = [] := rfl

theorem lines_cons (s : Text) (l : List Text) : lines (s :: l) = s ++ '\n' :: lines l := by
  simp [lines]

theorem lines_append (l m : List Text) : lines (l ++ m) = lines l ++ lines m := by
  simp [lines]

end Text

/-- Membership in a table of inclusive ranges that are sorted and do not touch: the walk stops at
the first range that starts behind `n`. -/
def inRanges (n : Nat) : List (Nat × Nat) → Bool
  | [] => false
  | (a, b) :: rest => if n < a then false else n ≤ b || inRanges n rest

theorem inRanges_iff {n : Nat} {l : List (Nat × Nat)} (hl : l.Pairwise fun r r' => r.1 ≤ r'.1) :
    inRanges n l = true ↔ ∃ r ∈ l, r.1 ≤ n ∧ n ≤ r.2 := by
  induction l with
  | nil => simp [inRanges]
  | cons r rest ih =>
    obtain ⟨hfirst, hrest⟩ := List.pairwise_cons.mp hl
    rw [inRanges]
    constructor
    · intro h
      split at h
      · cases h
      · next hr =>
        rcases (Bool.or_eq_true _ _).mp h with hn | hn
        · exact ⟨r, List.mem_cons_self, Nat.le_of_not_lt hr, of_decide_eq_true hn⟩
        · obtain ⟨u, hu, hbounds⟩ := (ih hrest).mp hn
          exact ⟨u, List.mem_cons_of_mem r hu, hbounds⟩
    · rintro ⟨u, hu, hlow, hhigh⟩
      rcases List.mem_cons.mp hu with rfl | hu
      · rw [if_neg (Nat.not_lt.mpr hlow), decide_eq_true hhigh, Bool.true_or]
      · -- The walk reaches the range of `n`, since no range in front of it starts behind `n`.
        have hr : r.1 ≤ n := Nat.le_trans (hfirst u hu) hlow
        rw [if_neg (Nat.not_lt.mpr hr), (ih hrest).mpr ⟨u, hu, hlow, hhigh⟩, Bool.or_true]

end TypeStrip
