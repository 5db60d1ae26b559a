import TypeStrip.Text

/-!
# Texts measured in bytes

The length of a text in UTF-8, and cuts by it that never split a character.

* `Text.byteLength`       the length;
* `Text.takeBytes`        the longest beginning that has at most so many bytes;
* `Text.abbreviated`      a text of at most 50 bytes, or its two ends.
-/

namespace TypeStrip
namespace Text

def byteLength (s : Text) : Nat := s.foldr (fun c n => c.utf8Size + n) 0

/-- The longest beginning of `s` that has at most `n` bytes. -/
def takeBytes (n : Nat) : Text → Text
  | [] => []
  | c :: s => if c.utf8Size ≤ n then c :: takeBytes (n - c.utf8Size) s else []

/-- A text of at most 50 bytes stands for itself; of a longer one, up to 25 bytes at its beginning
and up to 24 at its end are kept. -/
def abbreviated (s : Text) : Text :=
  if byteLength s ≤ 50 then s
  else takeBytes 25 s ++ "...".toList ++ (takeBytes 24 s.reverse).reverse

end Text
end TypeStrip
